import PushDelivery.Crypto.BigEndian

namespace PushDelivery.Der

structure Element where
  tag : UInt8
  content : List UInt8
deriving DecidableEq, Repr

def booleanTag : UInt8 := 0x01
def integerTag : UInt8 := 0x02
def bitStringTag : UInt8 := 0x03
def octetStringTag : UInt8 := 0x04
def objectNameTag : UInt8 := 0x06
def sequenceTag : UInt8 := 0x30

def contextTag (n : UInt8) : UInt8 := 0xA0 + n

/-- A length below 128 is one byte, otherwise one or two bytes follow. The shortest form has to be
used. -/
def length? : List UInt8 → Option (Nat × List UInt8)
  | [] => none
  | b :: rest =>
    if b < 0x80 then some (b.toNat, rest)
    else if b = 0x81 then
      match rest with
      | c :: rest => if 0x80 ≤ c then some (c.toNat, rest) else none
      | _ => none
    else if b = 0x82 then
      match rest with
      | c :: d :: rest => if 0 < c then some (c.toNat * 256 + d.toNat, rest) else none
      | _ => none
    else none

/-- The first element. Tags with a number of more than five bits are not read. -/
def element? : List UInt8 → Option (Element × List UInt8)
  | [] => none
  | tag :: rest =>
    if tag &&& 0x1F = 0x1F then none
    else do
      let (n, rest) ← length? rest
      if n ≤ rest.length then some (⟨tag, rest.take n⟩, rest.drop n) else none

def expect? (tag : UInt8) (bytes : List UInt8) : Option (List UInt8 × List UInt8) := do
  let (e, rest) ← element? bytes
  if e.tag = tag then some (e.content, rest) else none

def only? (tag : UInt8) (bytes : List UInt8) : Option (List UInt8) := do
  let (content, rest) ← expect? tag bytes
  if rest.isEmpty then some content else none

/-- The content of the first element if it has a tag; another element is left where it is. -/
def optional? (tag : UInt8) (bytes : List UInt8) : Option (Option (List UInt8) × List UInt8) :=
  if bytes.head? = some tag then (expect? tag bytes).map fun (c, rest) => (some c, rest)
  else some (none, bytes)

/-- The contents of at most `fuel` elements with one tag, one after the other. -/
def eachWithin? (tag : UInt8) : (fuel : Nat) → List UInt8 → Option (List (List UInt8))
  | _, [] => some []
  | 0, _ => none
  | fuel + 1, bytes => do
    let (content, rest) ← expect? tag bytes
    return content :: (← eachWithin? tag fuel rest)

def each? (tag : UInt8) (bytes : List UInt8) : Option (List (List UInt8)) :=
  eachWithin? tag bytes.length bytes

/-- The value of an integer that is not negative, written without needless bytes. -/
def natural? : List UInt8 → Option Nat
  | [] => none
  | [b] => if b < 0x80 then some b.toNat else none
  | b :: c :: rest =>
    if b < 0x80 ∧ (b ≠ 0 ∨ 0x80 ≤ c) then some (BigEndian.toNat (b :: c :: rest)) else none

def lengthBytes (n : Nat) : List UInt8 :=
  if n < 128 then [UInt8.ofNat n]
  else if n < 256 then [0x81, UInt8.ofNat n]
  else [0x82, UInt8.ofNat (n / 256), UInt8.ofNat n]

/-- An element whose content has fewer than 65536 bytes. -/
def wrap (tag : UInt8) (content : List UInt8) : List UInt8 :=
  tag :: (lengthBytes content.length ++ content)

/-- A number as an integer, whose highest bit is left free for the sign. -/
def wrapNatural (n : Nat) : List UInt8 :=
  wrap integerTag (BigEndian.ofNat ((n.log2 + 1) / 8 + 1) n)

end PushDelivery.Der
