import PushDelivery.Crypto.Der

namespace PushDelivery

/-- What is wrapped with an algorithm, and the elements behind it. Attributes are passed over. -/
structure WrappedKey where
  version : List UInt8
  algorithm : List UInt8
  inner : List UInt8
  rest : List UInt8
deriving DecidableEq, Repr

namespace WrappedKey

def read? (bytes : List UInt8) : Option WrappedKey := do
  let bytes ← Der.only? Der.sequenceTag bytes
  let (version, bytes) ← Der.expect? Der.integerTag bytes
  let (algorithm, bytes) ← Der.expect? Der.sequenceTag bytes
  let (inner, bytes) ← Der.expect? Der.octetStringTag bytes
  let (_, bytes) ← Der.optional? (Der.contextTag 0) bytes
  return ⟨version, algorithm, inner, bytes⟩

/-- A key of the first version, behind which nothing stands. -/
def unwrap? (algorithm bytes : List UInt8) : Option (List UInt8) := do
  let k ← read? bytes
  if k.version = [0] ∧ k.algorithm = algorithm ∧ k.rest = [] then some k.inner else none

end WrappedKey

namespace EllipticKey

def generalName : List UInt8 := [0x06, 0x07, 0x2A, 0x86, 0x48, 0xCE, 0x3D, 0x02, 0x01]

def algorithm (curve : List UInt8) : List UInt8 :=
  generalName ++ curve

/-- The private and the public half, as the innermost element holds them. The curve may be left
out. -/
def halves? (curve bytes : List UInt8) : Option (List UInt8 × List UInt8) := do
  let bytes ← Der.only? Der.sequenceTag bytes
  let (version, bytes) ← Der.expect? Der.integerTag bytes
  let (secret, bytes) ← Der.expect? Der.octetStringTag bytes
  let (named, bytes) ← Der.optional? (Der.contextTag 0) bytes
  let given ← (Der.only? (Der.contextTag 1) bytes).bind (Der.only? Der.bitStringTag)
  match version, given with
  | [1], 0 :: point => if named.isNone ∨ named = some curve then some (secret, point) else none
  | _, _ => none

end EllipticKey

end PushDelivery
