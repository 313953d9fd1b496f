import PushDelivery.Credential.Certificate
import PushDelivery.Credential.WrappedKey
import PushDelivery.Crypto.P256
import PushDelivery.Crypto.Sha2
import PushDelivery.Text.Quoted

namespace PushDelivery

open Text

/-- The number that is signed for a message. -/
def messageDigest (message : List UInt8) : P256.Scalar :=
  Fin.ofNat P256.order (BigEndian.toNat (Sha2.sha256.digest message))

structure VerificationKey where
  /-- A point in uncompressed form. Other bytes verify nothing. -/
  publicKey : List UInt8
  teamId : String
  keyId : String
deriving DecidableEq, Repr

namespace VerificationKey

def verify (k : VerificationKey) (message signature : List UInt8) : Bool :=
  match P256.ofBytes? k.publicKey, P256.Signature.ofBytes? signature with
  | some p, some sig => P256.verify p (messageDigest message) sig
  | _, _ => false

def describe (k : VerificationKey) : String :=
  "VerificationKey \x7b team_id: " ++ Quoted.quote k.teamId ++ ", key_id: " ++
    Quoted.quote k.keyId ++ ", public_key: " ++ Decimal.ofNat k.publicKey.length ++ " bytes \x7d"

end VerificationKey

/-- A secret number and the point that belongs to it. -/
structure KeyPair where
  scalar : P256.Scalar
  point : P256.Point
  isPair : P256.publicPoint? scalar = some point

namespace KeyPair

def curveName : List UInt8 := [0x06, 0x08, 0x2A, 0x86, 0x48, 0xCE, 0x3D, 0x03, 0x01, 0x07]

def algorithm : List UInt8 := EllipticKey.algorithm curveName

/-- A key whose public half is given and is the right one. -/
def ofElement? (bytes : List UInt8) : Option KeyPair := do
  let (secret, point) ← EllipticKey.halves? curveName bytes
  let scalar ← P256.scalar? secret
  let given ← P256.ofBytes? point
  if h : P256.publicPoint? scalar = some given then some ⟨scalar, given, h⟩ else none

def ofDer? (der : List UInt8) : Option KeyPair :=
  (WrappedKey.unwrap? algorithm der).bind ofElement?

end KeyPair

/-- The private key of a team, and the id by which the gateway knows it. -/
structure SigningKey extends KeyPair where
  teamId : String
  keyId : String

namespace SigningKey

def ofDer (der : List UInt8) (teamId keyId : String) : Except CredentialError SigningKey :=
  match KeyPair.ofDer? der with
  | some pair => .ok { pair with teamId := teamId, keyId := keyId }
  | none => .error .rejected

def ofPem (pem : List UInt8) (teamId keyId : String) : Except CredentialError SigningKey := do
  let block ← blockOfPem pem ["PRIVATE KEY"] "PKCS#8 private key"
  ofDer block.content teamId keyId

def verificationKey (k : SigningKey) : VerificationKey :=
  ⟨P256.toBytes k.point, k.teamId, k.keyId⟩

/-- Signs a message with a secret number, which is to be used once. -/
def sign? (k : SigningKey) (message : List UInt8) (secret : P256.Scalar) : Option (List UInt8) :=
  (P256.sign? k.scalar (messageDigest message) secret).map P256.Signature.toBytes

def describe (k : SigningKey) : String :=
  "SigningKey \x7b team_id: " ++ Quoted.quote k.teamId ++ ", key_id: " ++ Quoted.quote k.keyId ++
    ", .. \x7d"

end SigningKey

end PushDelivery
