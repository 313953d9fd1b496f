import PushDelivery.Metrics

namespace PushDelivery

/-- A notification on its way, passed from hand to hand until it is resolved. Letting go of one
unresolved resolves it as well. -/
structure Dispatch where
  id : Nat
  notification : Notification
  sentReported : Bool := false
  /-- It has been sent again after its token was found expired. -/
  expiredRetried : Bool := false
  /-- It has been written again after its stream was refused. -/
  refusedRetried : Bool := false
deriving DecidableEq, Repr

inductive Report where
  /-- The notification was written for the first time. -/
  | sent (id : Nat)
  | resolved (id : Nat) (outcome : Outcome)
deriving DecidableEq, Repr

namespace Report

def metric : Report → MetricEvent
  | sent id => .sent id
  | resolved id outcome => .ofOutcome id outcome

/-- The notification that the report resolves, and how. -/
def resolution? : Report → Option (Nat × Outcome)
  | sent _ => none
  | resolved id outcome => some (id, outcome)

end Report

namespace Dispatch

/-- Records a write. Only the first one is reported. -/
def markSent (p : Dispatch) : Dispatch × List Report :=
  if p.sentReported then (p, []) else ({ p with sentReported := true }, [.sent p.id])

/-- Claims the one resend after an expired token. -/
def claimExpired? (p : Dispatch) : Option Dispatch :=
  if p.expiredRetried then none else some { p with expiredRetried := true }

def claimRefused? (p : Dispatch) : Option Dispatch :=
  if p.refusedRetried then none else some { p with refusedRetried := true }

def answer (p : Dispatch) (status : Nat) (apnsId : Option Uuid) (d : Decision) : Report :=
  .resolved p.id (.answered ⟨p.notification, status, apnsId, d⟩)

def fail (p : Dispatch) (e : SendError) : Report :=
  .resolved p.id (.failed e)

/-- Lets go of a notification that nobody has resolved. -/
def drop (p : Dispatch) : Report :=
  p.fail .streamClosed

end Dispatch

end PushDelivery
