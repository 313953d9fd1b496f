import PushDelivery.Client.Config
import PushDelivery.Client.ServerName
import PushDelivery.Credential.X509

namespace PushDelivery

structure Dialer where
  description : String
  timeout : Duration
deriving DecidableEq, Repr

namespace Dialer

/-- Whether the authorities, the client's certificate and the name of the gateway can be used. -/
def isProtected (c : ClientConfig) : Bool :=
  (c.security.trusted?.getD []).all X509.isAuthority &&
    c.auth.certificate?.all Identity.isConsistent && ServerName.isValid c.host

/-- Without protection there is nothing to check. -/
def ofConfig (c : ClientConfig) : Except ConfigError Dialer :=
  if c.security.isPlaintext || isProtected c then .ok ⟨c.gateway, c.connectTimeout⟩
  else .error .tls

end Dialer

namespace ClientConfig

/-- The dialer of a client that is about to start, which needs something that runs it. -/
def prepare (c : ClientConfig) (hasRuntime : Bool) : Except ConfigError Dialer := do
  c.validate
  if hasRuntime then Dialer.ofConfig c else .error .missingRuntime

end ClientConfig

end PushDelivery
