import PushDelivery.Gateway.Registry
import PushDelivery.Http.Headers
import PushDelivery.Notification
import PushDelivery.Token
import PushDelivery.Protocol
import PushDelivery.Rejection

namespace PushDelivery

open Text

structure GatewayRequest where
  method : String
  /-- The path without a query. -/
  path : String
  headers : Headers
  payload : List UInt8
deriving DecidableEq, Repr

inductive Ruling where
  | accepted
  /-- The time is the one since which the device takes nothing. -/
  | rejected (reason : Rejection) (since : Option Instant)
  | failed (message : String)
deriving DecidableEq, Repr

namespace Ruling

def message? : Ruling → Option String
  | accepted => none
  | rejected reason _ => some ("Rejected: " ++ reason.text)
  | failed message => some ("Handler failed: " ++ message)

end Ruling

structure Refusal where
  reason : Rejection
  since : Option Instant := none
deriving DecidableEq, Repr

namespace Refusal

def ruling (r : Refusal) : Ruling :=
  .rejected r.reason r.since

end Refusal

/-- The outcome of a check, which may give something for the checks after it. -/
abbrev Checked (α : Type) := Except Refusal α

namespace Checked

def require (holds : Bool) (reason : Rejection) : Checked Unit :=
  if holds then .ok () else .error ⟨reason, none⟩

def found {α : Type} (value : Option α) (reason : Rejection) : Checked α :=
  match value with
  | some a => .ok a
  | none => .error ⟨reason, none⟩

def ruling : Checked Unit → Ruling
  | .ok () => .accepted
  | .error r => r.ruling

end Checked

namespace GatewayRequest

/-- A header that is there and can be read. -/
def header? (name : String) (r : GatewayRequest) : Option String :=
  r.headers.get? name

/-- A number up to 255, with or without a plus sign. -/
def readOctet? (cs : List Char) : Option Nat :=
  let digits := if cs.head? = some '+' then cs.drop 1 else cs
  if digits ≠ [] ∧ digits.all Char.isDigit ∧ Decimal.ofDigits digits ≤ 255 then
    some (Decimal.ofDigits digits)
  else none

def readPriority? (value : String) : Option Priority :=
  (readOctet? value.toList).bind Priority.ofCode?

def hasFairId (r : GatewayRequest) : Bool :=
  (r.header? Protocol.apnsIdHeader).all fun v => (Uuid.ofText? v).isSome

def hasFairCollapseId (r : GatewayRequest) : Bool :=
  (r.header? Protocol.collapseIdHeader).all fun v => v.utf8ByteSize ≤ Protocol.maxCollapseIdLength

def hasFairPriority (r : GatewayRequest) : Bool :=
  (r.header? Protocol.priorityHeader).all fun v => (readPriority? v).isSome

def device? (r : GatewayRequest) : Option String :=
  let start := Protocol.devicePathStart.toList
  let path := r.path.toList
  if start.isPrefixOf path then some (String.ofList (path.drop start.length)) else none

def isDeviceName (s : String) : Bool :=
  s.length == 64 && s.toList.all Hex.isDigit

/-- The word before a token, in whatever case. -/
def bearer : List Char := "bearer".toList

def afterBearer? (value : List Char) : Option (List Char) :=
  if (value.take bearer.length).map Char.toLower = bearer then some (value.drop bearer.length)
  else none

/-- The text of the token in a request, which is not blank. -/
def tokenText? (r : GatewayRequest) : Option (List Char) :=
  (((r.header? Protocol.authorizationHeader).map String.toList).bind afterBearer?).map trim
    |>.filter (· ≠ [])

def checkHeaders (r : GatewayRequest) : Checked String := do
  Checked.require r.hasFairId .badMessageId
  Checked.require (r.method == "POST") .methodNotAllowed
  let topic ← Checked.found (r.header? Protocol.topicHeader) .missingTopic
  Checked.require r.hasFairCollapseId .badCollapseId
  Checked.require r.hasFairPriority .badPriority
  return topic

def checkPayload (r : GatewayRequest) : Checked Unit := do
  Checked.require (r.payload ≠ []) .payloadEmpty
  Checked.require (r.payload.length ≤ Protocol.maxPayloadSize) .payloadTooLarge

end GatewayRequest

namespace Registry

def checkDevice (g : Registry) (topic : String) (r : GatewayRequest) : Checked Unit := do
  let device ← Checked.found r.device? .badPath
  Checked.require (device ≠ "") .missingDeviceToken
  Checked.require (GatewayRequest.isDeviceName device) .badDeviceToken
  match g.expiredSince? device with
  | some since => .error ⟨.unregistered, some since⟩
  | none => Checked.require (g.isRegistered topic device) .deviceTokenNotForTopic

end Registry

namespace Authentication

/-- The token of a request, if it comes from the holder of a known key. -/
def checkToken (grants : List Grant) (r : GatewayRequest) : Checked Token := do
  let text ← Checked.found r.tokenText? .missingProviderToken
  let token ← Checked.found (Token.parse text).toOption .invalidProviderToken
  let key ← Checked.found (key? grants token.header.keyId) .invalidProviderToken
  Checked.require (token.verify key) .invalidProviderToken
  return token

end Authentication

/-- What a gateway remembers of a connection: it belongs to the team of the first token that was
found genuine, and after an expired token nothing more is taken on it. -/
structure Gatekeeper where
  /-- The team that the connection belongs to. -/
  team : Option String := none
  /-- An expired token has been seen. -/
  wedged : Bool := false
deriving DecidableEq, Repr

namespace Gatekeeper

def tokenLifetime : Nat := 3600

/-- Whether a token is too old. No answer when the end of its life is past the last instant. -/
def isExpired? (now : Instant) (t : Token) : Option Bool :=
  (t.issuedAt.addSeconds? tokenLifetime).map fun last => last.lt now

/-- The first team that is seen keeps the connection. -/
def pin (h : Gatekeeper) (team : String) : Gatekeeper :=
  { h with team := some (h.team.getD team) }

/-- Judges the age of a genuine token and what it is used for. -/
def checkUse (grants : List Grant) (topic : String) (r : GatewayRequest) (t : Token)
    (expired : Bool) : Checked Unit := do
  Checked.require (!expired) .expiredProviderToken
  Checked.require ((Authentication.topicsOf grants t.header.keyId).contains topic)
    .invalidProviderToken
  r.checkPayload

def checkSender (h : Gatekeeper) (g : Registry) (now : Instant) (topic : String)
    (r : GatewayRequest) : Option (Checked Unit × Gatekeeper) :=
  match g.authentication with
  | .certificate base =>
    some (do
      Checked.require ((Authentication.certificateTopics base).contains topic) .badTopic
      r.checkPayload, h)
  | .token grants =>
    match Authentication.checkToken grants r with
    | .error e => some (.error e, h)
    | .ok t =>
      let h := h.pin t.claims.teamId
      if h.team = some t.claims.teamId then
        (isExpired? now t).map fun expired => (checkUse grants topic r t expired, h)
      else some (.error ⟨.invalidProviderToken, none⟩, h)

def check (h : Gatekeeper) (g : Registry) (now : Instant) (r : GatewayRequest) :
    Option (Checked Unit × Gatekeeper) :=
  match (do
    let topic ← r.checkHeaders
    g.checkDevice topic r
    return topic : Checked String) with
  | .error e => some (.error e, h)
  | .ok topic => h.checkSender g now topic r

/-- Judges a request. There is no ruling when the token's age cannot be told. -/
def receive (h : Gatekeeper) (g : Registry) (now : Instant) (r : GatewayRequest) :
    Option (Ruling × Gatekeeper) :=
  if h.wedged then some (.rejected .expiredProviderToken none, h)
  else
    (h.check g now r).map fun (checked, h) =>
      (checked.ruling,
        { h with wedged := match checked with
          | .error e => e.reason == .expiredProviderToken
          | .ok () => false })

end Gatekeeper

end PushDelivery
