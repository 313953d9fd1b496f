import PushDelivery.Notification
import PushDelivery.Rejection
import PushDelivery.Text.Decimal

namespace PushDelivery

open Text

/-- Why a notification has no decision of the gateway. -/
inductive SendError where
  | clientClosed
  | writeFailed (cause : String)
  /-- The stream ended first. Whether the gateway saw the notification is unknown. -/
  | streamClosed
  /-- The gateway has promised that it did not act on the notification. -/
  | notProcessed
  | internalServerError (status : Nat) (reason : Option String)
  | acquireTimeout
  | connectionFailed (cause : String)
deriving DecidableEq, Repr

namespace SendError

def message : SendError → String
  | clientClosed => "Client has been closed"
  | writeFailed cause => "Failed to write notification: " ++ cause
  | streamClosed => "Stream closed before a reply was received"
  | notProcessed => "Gateway did not process the notification"
  | internalServerError status _ =>
    "Gateway reported an internal error (status " ++ Decimal.ofNat status ++ ")"
  | acquireTimeout => "Timed out waiting for a writable connection"
  | connectionFailed cause => "Could not connect to gateway: " ++ cause

/-- Whether sending the notification again later may succeed. -/
def isRetryable : SendError → Bool
  | clientClosed => false
  | _ => true

end SendError

inductive Decision where
  /-- The unique id finds the delivery in the gateway's log. -/
  | accepted (uniqueId : Option Uuid)
  /-- The timestamp says since when the device token has been invalid. -/
  | rejected (reason : Option Rejection) (timestamp : Option Instant)
deriving DecidableEq, Repr

structure Response where
  notification : Notification
  status : Nat
  apnsId : Option Uuid
  decision : Decision
deriving DecidableEq, Repr

namespace Response

def isAccepted (r : Response) : Bool :=
  match r.decision with
  | .accepted _ => true
  | .rejected _ _ => false

def uniqueId (r : Response) : Option Uuid :=
  match r.decision with
  | .accepted u => u
  | .rejected _ _ => none

def reason (r : Response) : Option Rejection :=
  match r.decision with
  | .accepted _ => none
  | .rejected reason _ => reason

def timestamp (r : Response) : Option Instant :=
  match r.decision with
  | .accepted _ => none
  | .rejected _ t => t

end Response

inductive Outcome where
  | answered (response : Response)
  | failed (error : SendError)
deriving DecidableEq, Repr

end PushDelivery
