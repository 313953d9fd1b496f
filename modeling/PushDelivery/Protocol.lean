import PushDelivery.Text.Decimal
import PushDelivery.Time.Instant

namespace PushDelivery.Protocol

open Text

def expirationHeader : String := "apns-expiration"
def topicHeader : String := "apns-topic"
def priorityHeader : String := "apns-priority"
def pushTypeHeader : String := "apns-push-type"
def collapseIdHeader : String := "apns-collapse-id"
def apnsIdHeader : String := "apns-id"
def uniqueIdHeader : String := "apns-unique-id"
def authorizationHeader : String := "authorization"
def contentTypeHeader : String := "content-type"

/-- The device token follows it. -/
def devicePathStart : String := "/3/device/"

/-- The largest payload a gateway takes, in bytes. -/
def maxPayloadSize : Nat := 4096

/-- The longest collapse id a gateway takes, in bytes. -/
def maxCollapseIdLength : Nat := 64

def devicePath (token : String) : String :=
  devicePathStart ++ token

/-- Whole seconds since 1970. An instant before that, or none, is zero: deliver now or never. -/
def expirationSeconds (expiration : Option Instant) : Nat :=
  match expiration with
  | none => 0
  | some t => t.seconds.toNat

def expirationValue (expiration : Option Instant) : String :=
  Decimal.ofNat (expirationSeconds expiration)

end PushDelivery.Protocol
