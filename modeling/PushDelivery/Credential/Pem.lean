import PushDelivery.Text.Base64
import PushDelivery.Text.Utf8

namespace PushDelivery.Pem

open Text

structure Block where
  label : List UInt8
  content : List UInt8
deriving DecidableEq, Repr

def label (s : String) : List UInt8 :=
  Utf8.encode s.toList

def labels : List (List UInt8) :=
  ["CERTIFICATE", "PUBLIC KEY", "RSA PRIVATE KEY", "PRIVATE KEY", "EC PRIVATE KEY", "X509 CRL",
    "CERTIFICATE REQUEST", "ECHCONFIG"].map label

def isLineEnd (b : UInt8) : Bool :=
  b == 10 || b == 13

/-- The lines of a document; each keeps the line feed or carriage return that ends it. -/
def lines : List UInt8 → List (List UInt8)
  | [] => []
  | b :: rest =>
    if isLineEnd b then [b] :: lines rest
    else
      match lines rest with
      | [] => [[b]]
      | line :: others => (b :: line) :: others

def beginMark : List UInt8 := label "-----BEGIN "

/-- The line that ends a block begins with its label between these marks. -/
def endMark (label : List UInt8) : List UInt8 :=
  Pem.label "-----END " ++ label ++ Pem.label "-----"

def isFiller (b : UInt8) : Bool :=
  isLineEnd b || b == 0x20

def isDash (b : UInt8) : Bool :=
  b == 0x2D

/-- The label of a line that begins a block, given what follows the mark. The label ends before
the first of the five dashes at the end, between which blanks may stand. -/
def readLabel? (rest : List UInt8) : Option (List UInt8) :=
  let back := rest.reverse
  let trail := back.takeWhile fun b => isDash b || isFiller b
  if trail.countP isDash = 5 then
    let kept := (trail.reverse.takeWhile fun b => !isDash b).length
    some (rest.take (rest.length - trail.length + kept))
  else none

/-- The first block of the lines, and the lines after it. The arguments before the lines are the
label of an open block and the lines of its content that have been read, the last one first. A
block that begins inside another one takes its place. -/
def next : Option (List UInt8) → List (List UInt8) → List (List UInt8) →
    Except Unit (Option (Block × List (List UInt8)))
  | none, _, [] => .ok none
  | some _, _, [] => .error ()
  | opened, body, line :: rest =>
    if beginMark.isPrefixOf line then
      match readLabel? (line.drop beginMark.length) with
      | none => .error ()
      | some label => next (some label) body rest
    else
      match opened with
      | none => next none body rest
      | some label =>
        if (endMark label).isPrefixOf line then
          if labels.contains label then
            match Base64.decode? body.reverse.flatten with
            | none => .error ()
            | some content => .ok (some (⟨label, content⟩, rest))
          else next none [] rest
        else next opened (line :: body) rest

/-- The blocks of the lines up to the first fault, and whether there is one. -/
def blocksWithin : (fuel : Nat) → List (List UInt8) → List Block × Bool
  | 0, _ => ([], false)
  | fuel + 1, lines =>
    match next none [] lines with
    | .error () => ([], true)
    | .ok none => ([], false)
    | .ok (some (block, rest)) =>
      let (blocks, broken) := blocksWithin fuel rest
      (block :: blocks, broken)

/-- A document read block by block: a reader who has what he wants does not see a later fault. -/
structure Document where
  blocks : List Block
  /-- Whether something that is no block follows them. -/
  broken : Bool

def read (text : List UInt8) : Document :=
  let ls := lines text
  let (blocks, broken) := blocksWithin (ls.length + 1) ls
  ⟨blocks, broken⟩

def Document.contents (doc : Document) (name : String) : List (List UInt8) :=
  (doc.blocks.filter fun b => b.label == label name).map Block.content

def Document.first? (doc : Document) (names : List String) : Option Block :=
  doc.blocks.find? fun b => (names.map label).contains b.label

end PushDelivery.Pem
