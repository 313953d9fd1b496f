import PushDelivery.Client.Backoff
import PushDelivery.Credential.Key
import PushDelivery.Text.Blank
import PushDelivery.Time.Duration

namespace PushDelivery

open Text

/-- How a client proves who it is. -/
inductive Auth where
  | none
  | certificate (c : Identity)
  | token (k : SigningKey)

namespace Auth

def name : Auth → String
  | none => "none"
  | certificate _ => "certificate"
  | token _ => "token"

def signingKey? : Auth → Option SigningKey
  | token k => some k
  | _ => Option.none

def certificate? : Auth → Option Identity
  | certificate c => some c
  | _ => Option.none

def describe : Auth → String
  | token k => "Token(" ++ k.describe ++ ")"
  | other => other.name

end Auth

inductive Security where
  /-- TLS, with the certificate authorities of the web. -/
  | webRoots
  /-- TLS, with these certificates as the only authorities. -/
  | trusted (certificates : List (List UInt8))
  | plaintext

namespace Security

def isPlaintext : Security → Bool
  | plaintext => true
  | _ => false

def trusted? : Security → Option (List (List UInt8))
  | trusted certificates => some certificates
  | _ => none

def describeCertificate (der : List UInt8) : String :=
  "CertificateDer(" ++ (if der.isEmpty then "" else "0x" ++ String.ofList (Hex.encode der)) ++ ")"

def describe : Security → String
  | webRoots => "WebPki"
  | trusted certificates =>
    "TrustedCertificates([" ++ ", ".intercalate (certificates.map describeCertificate) ++ "])"
  | plaintext => "Plaintext"

end Security

inductive ConfigError where
  | emptyHost
  | noConnections
  | zeroDuration (name : String)
  | invalidBackoff
  | certificateWithoutTls
  /-- The certificates, the key or the host name cannot be used. -/
  | tls
  | missingRuntime
deriving DecidableEq, Repr

namespace ConfigError

def message? : ConfigError → Option String
  | emptyHost => some "Gateway host must not be empty"
  | noConnections => some "At least one concurrent connection is required"
  | zeroDuration name => some (name ++ " must be greater than zero")
  | invalidBackoff => some "Backoff maximum must not be smaller than its initial delay"
  | certificateWithoutTls => some "Client certificate authentication requires TLS"
  | missingRuntime => some "Client must be created from within a Tokio runtime"
  | tls => none

end ConfigError

structure ClientConfig where
  host : String
  port : Nat
  auth : Auth
  security : Security
  /-- How many connections the pool keeps open. -/
  connections : Nat
  connectTimeout : Duration
  /-- How long a notification may wait for a connection that takes it. -/
  acquireTimeout : Duration
  /-- The idle time after which a connection is pinged. -/
  pingInterval : Duration
  /-- How long what has been sent may take to be answered once a connection closes. -/
  gracePeriod : Duration
  tokenLifetime : Duration
  backoffInitial : Duration
  backoffMax : Duration
  /-- Whether a notification is sent once more after its token was found expired. -/
  retryExpiredTokens : Bool

namespace ClientConfig

/-- The port that an address need not name. -/
def standardPort : Nat := 443

/-- What a client does that is told nothing but the host and how to prove who it is. -/
def standard (host : String) (auth : Auth) : ClientConfig where
  host := host
  port := standardPort
  auth := auth
  security := .webRoots
  connections := 1
  connectTimeout := .ofSeconds 10
  acquireTimeout := .ofSeconds 10
  pingInterval := .ofSeconds 60
  gracePeriod := .ofSeconds 1
  tokenLifetime := .ofSeconds 3000
  backoffInitial := .ofMillis 100
  backoffMax := .ofMillis 51200
  retryExpiredTokens := true

/-- The spans that must not be zero. -/
def spans (c : ClientConfig) : List (String × Duration) :=
  [("connect_timeout", c.connectTimeout), ("acquire_timeout", c.acquireTimeout),
    ("idle_ping_interval", c.pingInterval), ("token_expiration", c.tokenLifetime),
    ("backoff.initial", c.backoffInitial)]

/-- Refuses values that can never work. -/
def validate (c : ClientConfig) : Except ConfigError Unit :=
  if trim c.host.toList = [] then .error .emptyHost
  else if c.connections = 0 then .error .noConnections
  else
    match c.spans.find? fun s => s.2 == .zero with
    | some (name, _) => .error (.zeroDuration name)
    | none =>
      if c.backoffMax.nanos < c.backoffInitial.nanos then .error .invalidBackoff
      else if c.auth.certificate?.isSome ∧ c.security.isPlaintext then
        .error .certificateWithoutTls
      else .ok ()

/-- The gateway as requests name it. -/
def authority (c : ClientConfig) : String :=
  if c.port = standardPort then c.host else c.host ++ ":" ++ Decimal.ofNat c.port

def scheme (c : ClientConfig) : String :=
  if c.security.isPlaintext then "http" else "https"

def backoff (c : ClientConfig) : Backoff :=
  .start c.backoffInitial c.backoffMax

def gateway (c : ClientConfig) : String :=
  c.scheme ++ "://" ++ c.host ++ ":" ++ Decimal.ofNat c.port

/-- A text for logs, which shows no key. -/
def describe (c : ClientConfig) : String :=
  "ClientConfig \x7b host: " ++ Quoted.quote c.host ++ ", port: " ++ Decimal.ofNat c.port ++
    ", auth: " ++ c.auth.describe ++ ", tls: " ++ c.security.describe ++
    ", concurrent_connections: " ++ Decimal.ofNat c.connections ++
    ", connect_timeout: " ++ c.connectTimeout.toText ++
    ", acquire_timeout: " ++ c.acquireTimeout.toText ++
    ", idle_ping_interval: " ++ c.pingInterval.toText ++
    ", graceful_shutdown_timeout: " ++ c.gracePeriod.toText ++
    ", token_expiration: " ++ c.tokenLifetime.toText ++
    ", backoff: BackoffConfig \x7b initial: " ++ c.backoffInitial.toText ++
    ", max: " ++ c.backoffMax.toText ++ " \x7d, retry_expired_tokens: " ++
    (if c.retryExpiredTokens then "true" else "false") ++ ", proxy: None, .. \x7d"

end ClientConfig

end PushDelivery
