import PushDelivery.Http.Headers
import PushDelivery.Http.RefusalBody
import PushDelivery.Protocol
import PushDelivery.Uuid

namespace PushDelivery

structure Reply where
  status : Nat
  headers : Headers
  body : List UInt8
deriving DecidableEq, Repr

inductive Verdict where
  | accepted (status : Nat) (apnsId uniqueId : Option Uuid)
  | rejected (status : Nat) (apnsId : Option Uuid) (reason : Option Rejection)
      (timestamp : Option Instant)
  /-- A server error without a reason of its own: the gateway may be in a bad state. -/
  | internalError (status : Nat) (reason : Option String)
deriving DecidableEq, Repr

namespace Reply

def isSuccess (status : Nat) : Bool :=
  200 ≤ status && status < 300

def isServerError (status : Nat) : Bool :=
  500 ≤ status && status < 600

/-- Whether a server error with this reason tells nothing about the notification. -/
def saysNothing : Option Rejection → Bool
  | none | some .internalServerError | some (.other _) => true
  | _ => false

def uuid? (name : String) (h : Headers) : Option Uuid :=
  (h.get? name).bind Uuid.ofText?

def verdict (r : Reply) : Verdict :=
  let apnsId := uuid? Protocol.apnsIdHeader r.headers
  if isSuccess r.status then
    .accepted r.status apnsId (uuid? Protocol.uniqueIdHeader r.headers)
  else
    let body := RefusalBody.decode r.body
    let reason := body.reason.map Rejection.ofText
    if isServerError r.status && saysNothing reason then .internalError r.status body.reason
    else .rejected r.status apnsId reason body.timestamp

end Reply

end PushDelivery
