import PushDelivery.Credential.Key
import PushDelivery.Credential.WrappedKey
import PushDelivery.Crypto.Ed25519
import PushDelivery.Crypto.P384
import PushDelivery.Crypto.Rsa

namespace PushDelivery

namespace PrivateKey

/-- A public key as certificates hold it: the algorithm, and the key as bits. -/
def publicKeyInfo (algorithm key : List UInt8) : List UInt8 :=
  Der.wrap Der.sequenceTag algorithm ++ Der.wrap Der.bitStringTag (0 :: key)

end PrivateKey

namespace RsaKey

def algorithm : List UInt8 :=
  [0x06, 0x09, 0x2A, 0x86, 0x48, 0x86, 0xF7, 0x0D, 0x01, 0x01, 0x01, 0x05, 0x00]

/-- A version number, which is zero, and the eight parts of the key. -/
def ofElement? (bytes : List UInt8) : Option RsaKey := do
  let parts ← (Der.only? Der.sequenceTag bytes).bind (Der.each? Der.integerTag)
  match ← parts.mapM Der.natural? with
  | [0, n, e, d, p, q, dp, dq, inverse] =>
    let k : RsaKey := ⟨n, e, d, p, q, dp, dq, inverse⟩
    if k.isConsistent then some k else none
  | _ => none

def publicInfo (k : RsaKey) : List UInt8 :=
  PrivateKey.publicKeyInfo algorithm (Der.wrap Der.sequenceTag
    (Der.wrapNatural k.modulus ++ Der.wrapNatural k.publicExponent))

end RsaKey

namespace P256

def publicInfo? (bytes : List UInt8) : Option (List UInt8) :=
  (KeyPair.ofElement? bytes).map fun k =>
    PrivateKey.publicKeyInfo KeyPair.algorithm (toBytes k.point)

end P256

namespace P384

def curveName : List UInt8 := [0x06, 0x05, 0x2B, 0x81, 0x04, 0x00, 0x22]

def algorithm : List UInt8 := EllipticKey.algorithm curveName

def publicInfo? (bytes : List UInt8) : Option (List UInt8) := do
  let (secret, point) ← EllipticKey.halves? curveName bytes
  if isPair secret point then some (PrivateKey.publicKeyInfo algorithm point) else none

end P384

namespace Ed25519

def algorithm : List UInt8 := [0x06, 0x03, 0x2B, 0x65, 0x70]

/-- The public half that stands behind the private one in the second version; its tag has been
written in two ways. -/
def givenPublicKey? (bytes : List UInt8) : Option (List UInt8) :=
  let given :=
    if bytes.head? = some (Der.contextTag 1) then
      (Der.only? (Der.contextTag 1) bytes).bind (Der.only? Der.bitStringTag)
    else Der.only? 0x81 bytes
  match given with
  | some (0 :: key) => some key
  | _ => none

/-- The key is a seed, from which the public half is computed. -/
def publicInfo? (k : WrappedKey) : Option (List UInt8) := do
  let seed ← Der.only? Der.octetStringTag k.inner
  if k.algorithm = algorithm ∧ seed.length = 32 then
    let key := publicKey seed
    if (k.version = [0] ∧ k.rest = []) ∨ (k.version = [1] ∧ givenPublicKey? k.rest = some key) then
      some (PrivateKey.publicKeyInfo algorithm key)
    else none
  else none

end Ed25519

namespace PrivateKey

def publicInfoOfWrapped? (der : List UInt8) : Option (List UInt8) :=
  (((WrappedKey.unwrap? RsaKey.algorithm der).bind RsaKey.ofElement?).map RsaKey.publicInfo)
    <|> (WrappedKey.unwrap? KeyPair.algorithm der).bind P256.publicInfo?
    <|> (WrappedKey.unwrap? P384.algorithm der).bind P384.publicInfo?
    <|> (WrappedKey.read? der).bind Ed25519.publicInfo?

/-- The public half of the key in a block, if it is a key of a kind that is known. -/
def publicInfo? (b : Pem.Block) : Option (List UInt8) :=
  if b.label = Pem.label "PRIVATE KEY" then publicInfoOfWrapped? b.content
  else if b.label = Pem.label "RSA PRIVATE KEY" then
    (RsaKey.ofElement? b.content).map RsaKey.publicInfo
  else if b.label = Pem.label "EC PRIVATE KEY" then
    P256.publicInfo? b.content <|> P384.publicInfo? b.content
  else none

end PrivateKey

end PushDelivery
