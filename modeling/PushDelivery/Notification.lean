import PushDelivery.Json.Printer
import PushDelivery.Json.Record
import PushDelivery.Text.Hex
import PushDelivery.Time.DateText
import PushDelivery.Uuid

namespace PushDelivery

open Text

inductive Priority where
  | immediate
  | conservePower
deriving DecidableEq, Repr

namespace Priority

def code : Priority → Nat
  | immediate => 10
  | conservePower => 5

def ofCode? (code : Nat) : Option Priority :=
  if code = 10 then some immediate else if code = 5 then some conservePower else none

/-- The priority of a notification that asks for none. -/
def standard : Priority := immediate

def name : Priority → String
  | immediate => "immediate"
  | conservePower => "conserve_power"

def ofName? (s : String) : Option Priority :=
  [immediate, conservePower].find? fun p => p.name == s

end Priority

inductive PushType where
  | alert
  | background
  | location
  | voip
  | complication
  | fileProvider
  | mdm
  | liveActivity
  | pushToTalk
deriving DecidableEq, Repr

namespace PushType

def all : List PushType :=
  [alert, background, location, voip, complication, fileProvider, mdm, liveActivity, pushToTalk]

def name : PushType → String
  | alert => "alert"
  | background => "background"
  | location => "location"
  | voip => "voip"
  | complication => "complication"
  | fileProvider => "fileprovider"
  | mdm => "mdm"
  | liveActivity => "liveactivity"
  | pushToTalk => "pushtotalk"

def ofName? (s : String) : Option PushType :=
  all.find? fun t => t.name == s

def unknownMessage (s : String) : String :=
  "Unknown push type: " ++ s

end PushType

structure Notification where
  /-- The device, in hexadecimal digits. -/
  token : String
  topic : String
  payload : String
  /-- When the gateway should stop trying. -/
  expiration : Option Instant := none
  priority : Priority := .standard
  pushType : Option PushType := none
  /-- An undelivered notification with the same id is replaced. -/
  collapseId : Option String := none
  apnsId : Option Uuid := none
deriving DecidableEq, Repr

/-- A device token as people write it, reduced to its digits. -/
def sanitizeDeviceToken (s : String) : String :=
  String.ofList (s.toList.filter Hex.isDigit)

namespace Notification

def fieldNames : List String :=
  ["token", "topic", "payload", "expiration", "priority", "push_type", "collapse_id", "apns_id"]

def orNull {α : Type} (write : α → String) : Option α → Json
  | none => .null
  | some a => .ofString (write a)

def toJson (n : Notification) : Json :=
  .object (List.zip (fieldNames.map JsonText.ofString)
    [.ofString n.token, .ofString n.topic, .ofString n.payload,
      orNull (fun t => String.ofList (DateText.render t)) n.expiration,
      .ofString n.priority.name, orNull PushType.name n.pushType, orNull id n.collapseId,
      orNull Uuid.toText n.apnsId])

def readInstant? (j : Json) : Option Instant :=
  j.string?.bind fun s => DateText.read? s.toList

def readPriority? (j : Json) : Option Priority :=
  j.choice?.bind Priority.ofName?

def readPushType? (j : Json) : Option PushType :=
  j.choice?.bind PushType.ofName?

def readUuid? (j : Json) : Option Uuid :=
  j.string?.bind Uuid.ofText?

def ofFields? : Json.Fields → Option Notification
  | .named [some token, some topic, some payload, expiration, some priority, pushType, collapseId,
      apnsId] => do
    return {
      token := ← token.string?
      topic := ← topic.string?
      payload := ← payload.string?
      expiration := ← Json.optionalField? readInstant? expiration
      priority := ← readPriority? priority
      pushType := ← Json.optionalField? readPushType? pushType
      collapseId := ← Json.optionalField? Json.string? collapseId
      apnsId := ← Json.optionalField? readUuid? apnsId }
  | .listed [token, topic, payload, expiration, priority, pushType, collapseId, apnsId] => do
    return {
      token := ← token.string?
      topic := ← topic.string?
      payload := ← payload.string?
      expiration := ← Json.optional? readInstant? expiration
      priority := ← readPriority? priority
      pushType := ← Json.optional? readPushType? pushType
      collapseId := ← Json.optional? Json.string? collapseId
      apnsId := ← Json.optional? readUuid? apnsId }
  | _ => none

def ofJson? (j : Json) : Option Notification :=
  (j.fields? fieldNames).bind ofFields?

end Notification

end PushDelivery
