import PushDelivery.Crypto.Modular
import PushDelivery.Crypto.Sha2

namespace PushDelivery.Ed25519

def fieldSize : Nat := 0x7fffffffffffffffffffffffffffffffffffffffffffffffffffffffffffffed

instance : @NeZero Nat Zero.ofOfNat0 fieldSize := ⟨Nat.succ_ne_zero _⟩

abbrev Field := Fin fieldSize

def coefficient : Field :=
  Fin.ofNat fieldSize 0x52036cee2b6ffe738cc740797779e89800700a4d4141d8ab75eb4dca135978a3

/-- The point `(x / z, y / z)`, with `x * y = z * t`. -/
structure Extended where
  x : Field
  y : Field
  z : Field
  t : Field

namespace Extended

def ofCoordinates (x y : Field) : Extended := ⟨x, y, 1, x * y⟩

def add (p q : Extended) : Extended :=
  let a := (p.y - p.x) * (q.y - q.x)
  let b := (p.y + p.x) * (q.y + q.x)
  let c := 2 * coefficient * p.t * q.t
  let d := 2 * p.z * q.z
  let e := b - a
  let f := d - c
  let g := d + c
  let h := b + a
  ⟨e * f, g * h, f * g, e * h⟩

/-- The sum of `k` copies of a point, where `k` has at most 255 binary digits. -/
def times (k : Nat) (p : Extended) : Extended :=
  (Modular.digits 255 k).foldl (fun acc bit => if bit then add (add acc acc) p else add acc acc)
    (ofCoordinates 0 1)

/-- The second coordinate, the lowest byte first; its highest bit says whether the first coordinate
is odd. -/
def toBytes (p : Extended) : List UInt8 :=
  let w := Modular.power 255 1 p.z (fieldSize - 2)
  let sign := (p.x * w).val % 2
  (BigEndian.ofNat 32 ((p.y * w).val + sign * (fieldSize + 19))).reverse

end Extended

def generator : Extended :=
  .ofCoordinates
    (Fin.ofNat fieldSize 0x216936d3cd6e53fec0a4e231fdd6dc5c692cc7609525a7b2c9562d608f25d51a)
    (Fin.ofNat fieldSize 0x6666666666666666666666666666666666666666666666666666666666666658)

/-- The secret number that a seed stands for: half of its digest with the highest bit cleared, the
second highest one set and the lowest three cleared. -/
def secret (seed : List UInt8) : Nat :=
  let half := BigEndian.toNat ((Sha2.sha512.digest seed).take 32).reverse
  let top := 0x4000000000000000000000000000000000000000000000000000000000000000
  top + half % top / 8 * 8

def publicKey (seed : List UInt8) : List UInt8 :=
  (generator.times (secret seed)).toBytes

end PushDelivery.Ed25519
