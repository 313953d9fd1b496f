import PushDelivery.Client.Config
import PushDelivery.Settings.Basic
import PushDelivery.Settings.Directory
import PushDelivery.Text.Utf8

namespace PushDelivery

open Text

inductive SettingsError where
  /-- The settings themselves cannot be read. -/
  | unreadable (path : String) (e : FileError)
  /-- The settings are not in order. -/
  | malformed
  | unreadableAuthorities (path : String) (e : FileError)
  /-- A key or a certificate cannot be loaded; before it, what it was needed for. -/
  | credential (purpose : String) (e : CredentialError)
  | config (e : ConfigError)
deriving DecidableEq, Repr

namespace SettingsError

/-- A cause that has a cause of its own names it once more. -/
def causes : CredentialError → List String
  | .io path cause => (CredentialError.io path cause).message?.toList ++ [cause]
  | e => e.message?.toList

/-- What is said about an error, from what was attempted down to the first cause. -/
def chain : SettingsError → List String
  | unreadable path e => ["Failed to read settings from " ++ path, e.message]
  | malformed => []
  | unreadableAuthorities path e => ["Failed to read trusted CAs from " ++ path, e.message]
  | credential purpose e => if e.message?.isSome then purpose :: causes e else []
  | config e => e.message?.toList

def message? (e : SettingsError) : Option String :=
  if e.chain = [] then none else some (": ".intercalate e.chain)

end SettingsError

namespace AuthSource

def readFile (d : Directory) (path : String) : Except CredentialError (List UInt8) :=
  (d.read path).mapError fun e => .io path e.message

/-- Both files are read before either is looked at. -/
def loadCertificate (d : Directory) (certificatePath keyPath : String) :
    Except CredentialError Identity := do
  let certificatePem ← readFile d certificatePath
  let keyPem ← readFile d keyPath
  Identity.ofPem certificatePem keyPem

def loadKey (d : Directory) (keyPath teamId keyId : String) :
    Except CredentialError SigningKey := do
  SigningKey.ofPem (← readFile d keyPath) teamId keyId

def load (d : Directory) : AuthSource → Except SettingsError Auth
  | none => .ok .none
  | certificate certificatePath keyPath =>
    ((loadCertificate d certificatePath keyPath).map Auth.certificate).mapError
      (.credential ("Failed to load client certificate " ++ certificatePath))
  | token keyPath teamId keyId =>
    ((loadKey d keyPath teamId keyId).map Auth.token).mapError
      (.credential ("Failed to load signing key " ++ keyPath))

end AuthSource

namespace Settings

/-- Settings without protection do not look at the authorities. -/
def loadSecurity (d : Directory) (s : Settings) : Except SettingsError Security :=
  if s.plaintext then .ok .plaintext
  else
    match s.trustedPath with
    | none => .ok .webRoots
    | some path => do
      let pem ← (d.read path).mapError (.unreadableAuthorities path)
      ((certificatesOfPem pem).map Security.trusted).mapError
        (.credential ("Invalid trusted CAs in " ++ path))

def millis (n : UInt64) : Duration :=
  .ofMillis n.toNat

/-- The configuration that the settings stand for. -/
def assemble (s : Settings) (auth : Auth) (security : Security) : ClientConfig where
  host := s.host
  port := s.port.toNat
  auth := auth
  security := security
  connections := s.connections.toNat
  connectTimeout := millis s.connectTimeout
  acquireTimeout := millis s.acquireTimeout
  pingInterval := millis s.pingInterval
  gracePeriod := millis s.gracePeriod
  tokenLifetime := millis s.tokenLifetime
  backoffInitial := millis s.backoffInitial
  backoffMax := millis s.backoffMax
  retryExpiredTokens := s.retryExpiredTokens

def toConfig (d : Directory) (s : Settings) : Except SettingsError ClientConfig := do
  let auth ← s.auth.load d
  let security ← s.loadSecurity d
  let config := s.assemble auth security
  config.validate.mapError .config
  return config

def ofFile (d : Directory) (path : String) : Except SettingsError Settings := do
  let bytes ← (d.read path).mapError (.unreadable path)
  match Utf8.decode? bytes with
  | none => .error (.unreadable path .notText)
  | some cs =>
    match ofText? (String.ofList cs) with
    | some s => .ok s
    | none => .error .malformed

end Settings

end PushDelivery
