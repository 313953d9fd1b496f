import PushDelivery.Credential.X509

namespace PushDelivery

inductive ServerTlsError where
  | certificatePem
  | keyPem
  | missingKey
  | authorityPem
  | unusableAuthority
  | noAuthority
  /-- The first certificate is not the one of the key. -/
  | mismatch
deriving DecidableEq, Repr

namespace ServerTlsError

def message : ServerTlsError → String
  | certificatePem => "Invalid server certificate PEM"
  | keyPem => "Invalid server private key PEM"
  | missingKey => "No private key found in PEM"
  | authorityPem => "Invalid client CA PEM"
  | unusableAuthority => "Unusable client CA certificate"
  | noAuthority => "Failed to build client certificate verifier"
  | mismatch => "Server certificate and key do not match"

end ServerTlsError

structure ServerTls where
  identity : Identity
  /-- The authorities of clients; none if any client is let in. -/
  authorities : Option (List (List UInt8))
  /-- The one protocol that is spoken. -/
  protocol : String := "h2"
deriving DecidableEq, Repr

namespace ServerTls

/-- Certificates are read as they come, so that one that cannot be used is noticed before a later
fault of the text. -/
def readAuthorities (pem : List UInt8) : Except ServerTlsError (List (List UInt8)) :=
  let doc := Pem.read pem
  let found := doc.contents "CERTIFICATE"
  if !found.all X509.isAuthority then .error .unusableAuthority
  else if doc.broken then .error .authorityPem
  else if found.isEmpty then .error .noAuthority
  else .ok found

def readKey (pem : List UInt8) : Except ServerTlsError Pem.Block :=
  match privateKeyOfPem pem with
  | .ok key => .ok key
  | .error .pem => .error .keyPem
  | .error _ => .error .missingKey

def ofPem (certificatePem keyPem : List UInt8) (authoritiesPem : Option (List UInt8)) :
    Except ServerTlsError ServerTls := do
  let doc := Pem.read certificatePem
  if doc.broken then .error .certificatePem
  else
    let key ← readKey keyPem
    let authorities ← authoritiesPem.mapM readAuthorities
    let identity : Identity := ⟨doc.contents "CERTIFICATE", key⟩
    if identity.isConsistent then .ok { identity := identity, authorities := authorities }
    else .error .mismatch

end ServerTls

end PushDelivery
