import PushDelivery.Credential.Error
import PushDelivery.Credential.Pem
import PushDelivery.Text.Decimal

namespace PushDelivery

open Text

/-- All certificates of a document; there has to be one, and no fault anywhere. -/
def certificatesOfPem (pem : List UInt8) : Except CredentialError (List (List UInt8)) :=
  let doc := Pem.read pem
  let found := doc.contents "CERTIFICATE"
  if doc.broken then .error .pem
  else if found.isEmpty then .error (.missing "certificate")
  else .ok found

/-- The first block with one of some labels. A fault only counts when it comes before it. -/
def blockOfPem (pem : List UInt8) (names : List String) (what : String) :
    Except CredentialError Pem.Block :=
  let doc := Pem.read pem
  match doc.first? names with
  | some b => .ok b
  | none => if doc.broken then .error .pem else .error (.missing what)

def privateKeyOfPem (pem : List UInt8) : Except CredentialError Pem.Block :=
  blockOfPem pem ["RSA PRIVATE KEY", "PRIVATE KEY", "EC PRIVATE KEY"] "private key"

/-- A chain of certificates with the private key of the first one. -/
structure Identity where
  chain : List (List UInt8)
  key : Pem.Block
deriving DecidableEq, Repr

namespace Identity

def ofPem (certificatePem keyPem : List UInt8) : Except CredentialError Identity := do
  let chain ← certificatesOfPem certificatePem
  let key ← privateKeyOfPem keyPem
  return ⟨chain, key⟩

/-- A text for logs, which shows nothing of the key. -/
def describe (c : Identity) : String :=
  "ClientCertificate \x7b chain_length: " ++ Decimal.ofNat c.chain.length ++ ", .. \x7d"

end Identity

end PushDelivery
