namespace PushDelivery.Text.Base64

def isSpace (b : UInt8) : Bool :=
  b.toNat == 0x20 || (9 ≤ b.toNat && b.toNat ≤ 13)

def isPad (b : UInt8) : Bool :=
  b.toNat == '='.toNat

def value? (b : UInt8) : Option Nat :=
  let n := b.toNat
  if 'A'.toNat ≤ n ∧ n ≤ 'Z'.toNat then some (n - 'A'.toNat)
  else if 'a'.toNat ≤ n ∧ n ≤ 'z'.toNat then some (n - 'a'.toNat + 26)
  else if '0'.toNat ≤ n ∧ n ≤ '9'.toNat then some (n - '0'.toNat + 52)
  else if n = '+'.toNat then some 62
  else if n = '/'.toNat then some 63
  else none

/-- The bytes that six-bit values make up. -/
def join? : List Nat → Option (List UInt8)
  | [] => some []
  | [_] => none
  | [x, y] => some [UInt8.ofNat (x * 4 + y / 16)]
  | [x, y, z] => some [UInt8.ofNat (x * 4 + y / 16), UInt8.ofNat (y % 16 * 16 + z / 4)]
  | x :: y :: z :: w :: rest => (join? rest).map fun bytes =>
    UInt8.ofNat (x * 4 + y / 16) :: UInt8.ofNat (y % 16 * 16 + z / 4) ::
      UInt8.ofNat (z % 4 * 64 + w) :: bytes

/-- Whether padding is left out or fills the last group of four. -/
def isPadded (digits pads : Nat) : Bool :=
  pads == 0 || pads == (4 - digits % 4) % 4

def decode? (text : List UInt8) : Option (List UInt8) :=
  let text := text.filter fun b => !isSpace b
  let digits := text.takeWhile fun b => !isPad b
  let pads := text.dropWhile fun b => !isPad b
  if pads.all isPad && isPadded digits.length pads.length then
    (digits.mapM value?).bind join?
  else none

end PushDelivery.Text.Base64
