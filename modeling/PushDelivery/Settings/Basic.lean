import PushDelivery.Json.Parser
import PushDelivery.Json.Printer
import PushDelivery.Json.Record

namespace PushDelivery

inductive AuthSource where
  | none
  | certificate (certificatePath keyPath : String)
  | token (keyPath teamId keyId : String)
deriving DecidableEq, Repr

namespace AuthSource

/-- The field that says of which kind the others are. -/
def tagName : String := "type"

def certificateFields : List String := ["certificate_path", "private_key_path"]

def tokenFields : List String := ["key_path", "team_id", "key_id"]

def members (names values : List String) : List (JsonText × Json) :=
  List.zip (names.map JsonText.ofString) (values.map Json.ofString)

def toJson : AuthSource → Json
  | none => .object (members [tagName] ["none"])
  | certificate certificatePath keyPath =>
    .object (members (tagName :: certificateFields) ["certificate", certificatePath, keyPath])
  | token keyPath teamId keyId =>
    .object (members (tagName :: tokenFields) ["token", keyPath, teamId, keyId])

/-- The texts of fields of which none may be missing. -/
def texts? (names : List String) (rest : Json) : Option (List String) := do
  match ← rest.fields? names with
  | .named values => values.mapM fun v => v.bind Json.string?
  | .listed values => values.mapM Json.string?

/-- The fields besides the tag. Where there is nothing to say, an object may still have members. -/
def ofTagged? (tag : String) (rest : Json) : Option AuthSource :=
  if tag = "none" then
    match rest with
    | .object _ | .array [] => some none
    | _ => Option.none
  else if tag = "certificate" then
    match texts? certificateFields rest with
    | some [certificatePath, keyPath] => some (certificate certificatePath keyPath)
    | _ => Option.none
  else if tag = "token" then
    match texts? tokenFields rest with
    | some [keyPath, teamId, keyId] => some (token keyPath teamId keyId)
    | _ => Option.none
  else Option.none

/-- How deep the document may be nested, which stands inside another one. -/
def maxDepth : Nat := Json.maxDepth - 1

/-- The document is kept until its tag is known, so all of it has to be sound. In an array the tag
comes first. -/
def ofJson? (j : Json) : Option AuthSource :=
  if j.soundWithin maxDepth then
    match j with
    | .object members => do
      let tag ← (← Json.only? tagName members).bind Json.string?
      ofTagged? tag (.object (members.filter fun m => m.1 != JsonText.ofString tagName))
    | .array (first :: rest) => do ofTagged? (← first.string?) (.array rest)
    | _ => Option.none
  else Option.none

end AuthSource

structure Settings where
  host : String := "api.push.apple.com"
  port : UInt16 := 443
  auth : AuthSource := .none
  /-- No protection at all, for a gateway nearby. -/
  plaintext : Bool := false
  /-- The certificates of the only authorities that count. -/
  trustedPath : Option String := none
  connections : UInt64 := 1
  connectTimeout : UInt64 := 10000
  acquireTimeout : UInt64 := 10000
  pingInterval : UInt64 := 60000
  gracePeriod : UInt64 := 1000
  tokenLifetime : UInt64 := 3000000
  backoffInitial : UInt64 := 100
  backoffMax : UInt64 := 51200
  retryExpiredTokens : Bool := true
deriving DecidableEq, Repr

namespace Settings

/-- The settings of an empty record. -/
def standard : Settings := {}

def fieldNames : List String :=
  ["host", "port", "auth", "plaintext", "trusted_ca_path", "concurrent_connections",
    "connect_timeout_ms", "acquire_timeout_ms", "idle_ping_interval_ms",
    "graceful_shutdown_timeout_ms", "token_expiration_ms", "backoff_initial_ms",
    "backoff_max_ms", "retry_expired_tokens"]

def ofWord (n : UInt64) : Json :=
  .ofInt n.toNat

def values (s : Settings) : List (Option Json) :=
  [some (.ofString s.host), some (.ofInt s.port.toNat), some s.auth.toJson,
    some (.bool s.plaintext), s.trustedPath.map Json.ofString, some (ofWord s.connections),
    some (ofWord s.connectTimeout), some (ofWord s.acquireTimeout), some (ofWord s.pingInterval),
    some (ofWord s.gracePeriod), some (ofWord s.tokenLifetime), some (ofWord s.backoffInitial),
    some (ofWord s.backoffMax), some (.bool s.retryExpiredTokens)]

/-- All fields in order, except for one without a value. -/
def toJson (s : Settings) : Json :=
  .object ((List.zip fieldNames s.values).filterMap fun (name, value) =>
    value.map fun v => (JsonText.ofString name, v))

def readPort? (j : Json) : Option UInt16 :=
  (j.nat? 65535).map UInt16.ofNat

def readWord? (j : Json) : Option UInt64 :=
  (j.nat? (Numeral.wordLimit - 1)).map UInt64.ofNat

/-- The value of a field, the standard one where it is left out. -/
def fieldOr? {α : Type} (standard : α) (read : Json → Option α) : Option Json → Option α
  | none => some standard
  | some j => read j

def ofValues? : List (Option Json) → Option Settings
  | [host, port, auth, plaintext, trustedPath, connections, connectTimeout, acquireTimeout,
      pingInterval, gracePeriod, tokenLifetime, backoffInitial, backoffMax, retry] => do
    return {
      host := ← fieldOr? standard.host Json.string? host
      port := ← fieldOr? standard.port readPort? port
      auth := ← fieldOr? standard.auth AuthSource.ofJson? auth
      plaintext := ← fieldOr? standard.plaintext Json.bool? plaintext
      trustedPath := ← Json.optionalField? Json.string? trustedPath
      connections := ← fieldOr? standard.connections readWord? connections
      connectTimeout := ← fieldOr? standard.connectTimeout readWord? connectTimeout
      acquireTimeout := ← fieldOr? standard.acquireTimeout readWord? acquireTimeout
      pingInterval := ← fieldOr? standard.pingInterval readWord? pingInterval
      gracePeriod := ← fieldOr? standard.gracePeriod readWord? gracePeriod
      tokenLifetime := ← fieldOr? standard.tokenLifetime readWord? tokenLifetime
      backoffInitial := ← fieldOr? standard.backoffInitial readWord? backoffInitial
      backoffMax := ← fieldOr? standard.backoffMax readWord? backoffMax
      retryExpiredTokens := ← fieldOr? standard.retryExpiredTokens Json.bool? retry }
  | _ => none

/-- An array may leave out fields at its end. -/
def valuesOf? : Json.Fields → Option (List (Option Json))
  | .named values => some values
  | .listed values =>
    if values.length ≤ fieldNames.length then
      some (values.map some ++ List.replicate (fieldNames.length - values.length) none)
    else none

def ofJson? (j : Json) : Option Settings :=
  ((j.fields? fieldNames).bind valuesOf?).bind ofValues?

def ofText? (text : String) : Option Settings :=
  (Json.ofString? text).bind ofJson?

def toText (s : Settings) : String :=
  s.toJson.toText

end Settings

end PushDelivery
