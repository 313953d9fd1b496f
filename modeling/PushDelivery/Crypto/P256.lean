import PushDelivery.Crypto.BigEndian
import PushDelivery.Crypto.Weighted

namespace PushDelivery.P256

def fieldSize : Nat := 0xffffffff00000001000000000000000000000000ffffffffffffffffffffffff

def order : Nat := 0xffffffff00000000ffffffffffffffffbce6faada7179e84f3b9cac2fc632551

instance : @NeZero Nat Zero.ofOfNat0 fieldSize := ⟨Nat.succ_ne_zero _⟩

instance : @NeZero Nat Zero.ofOfNat0 order := ⟨Nat.succ_ne_zero _⟩

abbrev Field := Fin fieldSize

abbrev Scalar := Fin order

def coefficient : Field :=
  Fin.ofNat fieldSize 0x5ac635d8aa3a93e7b3ebbd55769886bc651d06b0cc53b0f63bce3c3e27d2604b

structure Point where
  x : Field
  y : Field
deriving DecidableEq, Repr

def generator : Point where
  x := Fin.ofNat fieldSize 0x6b17d1f2e12c4247f8bce6e563a440f277037d812deb33a0f4a13945d898c296
  y := Fin.ofNat fieldSize 0x4fe342e2fe1a7f9b8ee7eb4a7c0f9e162bce33576b315ececbb6406837bf51f5

def onCurve (p : Point) : Bool :=
  p.y * p.y == p.x * p.x * p.x - 3 * p.x + coefficient

/-- The inverse modulo the size of the field, which is a prime. -/
def Field.inverse (a : Field) : Field :=
  Modular.power 256 1 a (fieldSize - 2)

def Scalar.inverse (a : Scalar) : Scalar :=
  Modular.power 256 1 a (order - 2)

def Point.toWeighted (p : Point) : Weighted fieldSize := ⟨p.x, p.y, 1⟩

def ofWeighted? (p : Weighted fieldSize) : Option Point :=
  if p.isInfinity then none
  else
    let w := Field.inverse p.z
    some ⟨p.x * (w * w), p.y * (w * w * w)⟩

def Point.times (k : Scalar) (p : Point) : Weighted fieldSize :=
  p.toWeighted.times 256 k.val

def coordinate? (bytes : List UInt8) : Option Field :=
  let n := BigEndian.toNat bytes
  if h : n < fieldSize then some ⟨n, h⟩ else none

/-- A point written as the byte 4 and its two coordinates; it has to lie on the curve. -/
def ofBytes? : List UInt8 → Option Point
  | 4 :: rest => do
    let p : Point := ⟨← coordinate? (rest.take 32), ← coordinate? (rest.drop 32)⟩
    if rest.length = 64 ∧ onCurve p then some p else none
  | _ => none

def toBytes (p : Point) : List UInt8 :=
  4 :: BigEndian.ofNat 32 p.x.val ++ BigEndian.ofNat 32 p.y.val

/-- The public point of a private scalar; zero has none. -/
def publicPoint? (d : Scalar) : Option Point :=
  ofWeighted? (generator.times d)

structure Signature where
  r : Scalar
  s : Scalar
deriving DecidableEq, Repr

def scalar? (bytes : List UInt8) : Option Scalar :=
  let n := BigEndian.toNat bytes
  if h : n < order then if bytes.length = 32 ∧ 0 < n then some ⟨n, h⟩ else none else none

namespace Signature

/-- The two numbers of a signature, 32 bytes each. -/
def ofBytes? (bytes : List UInt8) : Option Signature := do
  return ⟨← scalar? (bytes.take 32), ← scalar? (bytes.drop 32)⟩

def toBytes (sig : Signature) : List UInt8 :=
  BigEndian.ofNat 32 sig.r.val ++ BigEndian.ofNat 32 sig.s.val

end Signature

/-- Signs a digest with a secret number that is used only once. For a few of these there is no
signature. -/
def sign? (d digest secret : Scalar) : Option Signature := do
  let p ← publicPoint? secret
  let r := Fin.ofNat order p.x.val
  let s := secret.inverse * (digest + r * d)
  if r = 0 ∨ s = 0 then none else some ⟨r, s⟩

def verify (key : Point) (digest : Scalar) (sig : Signature) : Bool :=
  let w := sig.s.inverse
  match ofWeighted? ((generator.times (digest * w)).add (key.times (sig.r * w))) with
  | none => false
  | some p => Fin.ofNat order p.x.val == sig.r

end PushDelivery.P256
