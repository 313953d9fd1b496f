import PushDelivery.Text.Hex

namespace PushDelivery

open Text

structure Uuid where
  bits : BitVec 128
deriving DecidableEq, Repr

namespace Uuid

def render (u : Uuid) : List Char :=
  let ds := Hex.padded 32 u.bits.toNat
  ds.take 8 ++ '-' :: (ds.drop 8).take 4 ++ '-' :: (ds.drop 12).take 4 ++
    '-' :: (ds.drop 16).take 4 ++ '-' :: ds.drop 20

def toText (u : Uuid) : String :=
  String.ofList u.render

/-- Exactly `width` digits. -/
def digits? : (width : Nat) → List Char → Option (List Char × List Char)
  | 0, cs => some ([], cs)
  | width + 1, c :: rest =>
    if Hex.isDigit c then (digits? width rest).map fun (ds, rest) => (c :: ds, rest) else none
  | _ + 1, [] => none

/-- Groups of digits with a hyphen between them. -/
def groups? : List Nat → List Char → Option (List Char × List Char)
  | [], cs => some ([], cs)
  | [width], cs => digits? width cs
  | width :: widths, cs => do
    let (ds, cs) ← digits? width cs
    match cs with
    | '-' :: cs =>
      let (es, cs) ← groups? widths cs
      return (ds ++ es, cs)
    | _ => none

def ofDigits (ds : List Char) : Uuid :=
  ⟨BitVec.ofNat 128 (ds.foldl (fun n c => n * 16 + (Hex.value? c).getD 0) 0)⟩

def hyphenated? (cs : List Char) : Option Uuid :=
  match groups? [8, 4, 4, 4, 12] cs with
  | some (ds, []) => some (ofDigits ds)
  | _ => none

def plain? (cs : List Char) : Option Uuid :=
  match digits? 32 cs with
  | some (ds, []) => some (ofDigits ds)
  | _ => none

/-- The text between braces. -/
def unbraced? : List Char → Option (List Char)
  | '\x7b' :: cs => if cs.getLast? = some '\x7d' then some cs.dropLast else none
  | _ => none

/-- The text behind `urn:uuid:`, which may be in either case. -/
def unnamed? (cs : List Char) : Option (List Char) :=
  if (cs.take 9).map Char.toLower = ['u', 'r', 'n', ':', 'u', 'u', 'i', 'd', ':'] then
    some (cs.drop 9)
  else none

def read? (cs : List Char) : Option Uuid :=
  hyphenated? cs <|> plain? cs <|> (unbraced? cs).bind hyphenated? <|>
    (unnamed? cs).bind hyphenated?

def ofText? (s : String) : Option Uuid :=
  read? s.toList

end Uuid

end PushDelivery
