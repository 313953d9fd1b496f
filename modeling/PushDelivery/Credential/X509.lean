import PushDelivery.Credential.Certificate
import PushDelivery.Credential.PrivateKey
import PushDelivery.Crypto.Der

namespace PushDelivery

structure X509.Extension where
  name : List UInt8
  critical : Bool
  value : List UInt8
deriving DecidableEq, Repr

structure X509 where
  /-- The public key with its algorithm. -/
  publicKeyInfo : List UInt8
  extensions : List X509.Extension
deriving DecidableEq, Repr

namespace X509

def readExtension? (bytes : List UInt8) : Option Extension := do
  let (name, bytes) ← Der.expect? Der.objectNameTag bytes
  let (critical, bytes) ← Der.optional? Der.booleanTag bytes
  let value ← Der.only? Der.octetStringTag bytes
  match critical with
  | none | some [0x00] => some ⟨name, false, value⟩
  | some [0xFF] => some ⟨name, true, value⟩
  | some _ => none

def standardName (n : UInt8) : List UInt8 := [0x55, 0x1D, n]

/-- The usage of the key, whose value is no sequence. -/
def keyUsage : List UInt8 := standardName 15

/-- The extensions that are understood: key usage, alternative names, constraints, name constraints,
where revocations are published, and extended key usage. -/
def understood : List (List UInt8) :=
  keyUsage :: ([17, 19, 30, 31, 37].map standardName)

def Extension.isUnderstood (e : Extension) : Bool :=
  understood.contains e.name

/-- Whether an extension has the form it should have, as far as it is understood. -/
def Extension.isInOrder (e : Extension) : Bool :=
  !e.isUnderstood || e.name == keyUsage || (Der.only? Der.sequenceTag e.value).isSome

def areDistinct (es : List Extension) : Bool :=
  understood.all fun name => es.countP (fun e => e.name == name) ≤ 1

def readExtensions? (bytes : List UInt8) : Option (List Extension) := do
  let list ← (Der.only? (Der.contextTag 3) bytes).bind (Der.only? Der.sequenceTag)
  (← Der.each? Der.sequenceTag list).mapM readExtension?

def checkExtensions? (bytes : List UInt8) : Option (List Extension) :=
  if bytes = [] then some []
  else (readExtensions? bytes).filter fun es => es.all Extension.isInOrder && areDistinct es

def signed? (der : List UInt8) : Option (List UInt8 × List UInt8) := do
  let bytes ← Der.only? Der.sequenceTag der
  let (body, bytes) ← Der.expect? Der.sequenceTag bytes
  let (algorithm, bytes) ← Der.expect? Der.sequenceTag bytes
  match ← Der.only? Der.bitStringTag bytes with
  | 0 :: _ => some (body, algorithm)
  | _ => none

/-- What every version has from the serial number on: the algorithm, the key with its algorithm,
and the rest. -/
def readCore? (bytes : List UInt8) : Option (List UInt8 × List UInt8 × List UInt8) := do
  let (_, bytes) ← Der.expect? Der.integerTag bytes
  let (algorithm, bytes) ← Der.expect? Der.sequenceTag bytes
  let (_issuer, bytes) ← Der.expect? Der.sequenceTag bytes
  let (_validity, bytes) ← Der.expect? Der.sequenceTag bytes
  let (_subject, bytes) ← Der.expect? Der.sequenceTag bytes
  let (key, bytes) ← Der.expect? Der.sequenceTag bytes
  return (algorithm, key, bytes)

def ofDer? (der : List UInt8) : Option X509 := do
  let (body, algorithm) ← signed? der
  let (version, bytes) ← Der.expect? (Der.contextTag 0) body
  let number ← Der.only? Der.integerTag version
  let (named, key, rest) ← readCore? bytes
  let extensions ← checkExtensions? rest
  if number = [2] ∧ named = algorithm then some ⟨key, extensions⟩ else none

def isUnderstood (c : X509) : Bool :=
  c.extensions.all fun e => e.isUnderstood || !e.critical

/-- A certificate of the first version, which has neither a version number nor extensions. -/
def isFirstVersion (der : List UInt8) : Bool :=
  match (signed? der).bind fun (body, _) => readCore? body with
  | some (_, _, rest) => rest.isEmpty
  | none => false

/-- Whether a certificate can serve as an authority. What it says in extensions that are not
understood is of no concern then. -/
def isAuthority (der : List UInt8) : Bool :=
  (ofDer? der).isSome || isFirstVersion der

end X509

namespace Identity

/-- Whether the first certificate is the one of the private key and is understood. -/
def isConsistent (c : Identity) : Bool :=
  match c.chain.head?.bind X509.ofDer?, PrivateKey.publicInfo? c.key with
  | some certificate, some info =>
    certificate.isUnderstood && certificate.publicKeyInfo == info
  | _, _ => false

end Identity

end PushDelivery
