import PushDelivery.Json.Parser
import PushDelivery.Json.Printer
import PushDelivery.Json.Record
import PushDelivery.Rejection
import PushDelivery.Time.Instant

namespace PushDelivery

open Text

structure RefusalBody where
  reason : Option String
  timestamp : Option Instant
deriving DecidableEq, Repr

namespace RefusalBody

/-- Timestamps below this count seconds, from it on milliseconds. -/
def secondsLimit : Int := 100000000000

def instantOfEpoch? (n : Int) : Option Instant :=
  if n < 0 then none
  else if n < secondsLimit then Instant.ofSeconds? n
  else Instant.ofMillis? n

/-- The signed 64-bit integer a number stands for: itself, or what is left of it without its
fraction, held within the range. -/
def truncated? (n : Numeral) : Option Int :=
  match n.integer? with
  | some i => some (min i (Numeral.signedLimit - 1))
  | none => n.toFloat?.map fun x => x.toInt64.toInt

/-- Takes what can be read: a body that is no document says nothing, and a field of another kind
counts as absent. -/
def decode (body : List UInt8) : RefusalBody :=
  match (Json.ofBytes? body).filter Json.isSound with
  | none => ⟨none, none⟩
  | some j =>
    { reason := (j.get? "reason").bind Json.string?
      timestamp := (j.get? "timestamp").bind fun t =>
        match t with
        | .number n => (truncated? n).bind instantOfEpoch?
        | _ => none }

def toJson (reason : Rejection) (timestamp : Option Instant) : Json :=
  .object ((JsonText.ofString "reason", .ofString reason.text) ::
    match timestamp with
    | none => []
    | some t => [(JsonText.ofString "timestamp", .ofInt t.millis)])

def encode (reason : Rejection) (timestamp : Option Instant) : List UInt8 :=
  Utf8.encode (toJson reason timestamp).render

end RefusalBody

end PushDelivery
