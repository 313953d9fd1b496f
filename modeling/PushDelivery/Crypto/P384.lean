import PushDelivery.Crypto.BigEndian
import PushDelivery.Crypto.Weighted

namespace PushDelivery.P384

def fieldSize : Nat :=
  0xfffffffffffffffffffffffffffffffffffffffffffffffffffffffffffffffeffffffff0000000000000000ffffffff

def order : Nat :=
  0xffffffffffffffffffffffffffffffffffffffffffffffffc7634d81f4372ddf581a0db248b0a77aecec196accc52973

instance : @NeZero Nat Zero.ofOfNat0 fieldSize := ⟨Nat.succ_ne_zero _⟩

def generatorX : Nat :=
  0xaa87ca22be8b05378eb1c71ef320ad746e1d3b628ba79b9859f741e082542a385502f25dbf55296c3a545e3872760ab7

def generatorY : Nat :=
  0x3617de4a96262c6f5d9e98bf9292dc29f8f41dbd289a147ce9da3113b5f0b8c00a60b1ce1d7e819d7a431d7c90ea0e5f

def generator : Weighted fieldSize :=
  ⟨Fin.ofNat fieldSize generatorX, Fin.ofNat fieldSize generatorY, 1⟩

def width : Nat := 48

def number? (bound : Nat) (bytes : List UInt8) : Option (Fin bound) :=
  let n := BigEndian.toNat bytes
  if h : n < bound then if bytes.length = width then some ⟨n, h⟩ else none else none

/-- Whether a point, written as the byte 4 and its two coordinates, is the public half of a secret
number, which is not zero. -/
def isPair (secret point : List UInt8) : Bool :=
  match number? order secret, point with
  | some d, 4 :: rest =>
    match number? fieldSize (rest.take width), number? fieldSize (rest.drop width) with
    | some x, some y => (generator.times 384 d.val).isPoint x y
    | _, _ => false
  | _, _ => false

end PushDelivery.P384
