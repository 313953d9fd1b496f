import PushDelivery.Outcome

namespace PushDelivery

inductive MetricEvent where
  | writeFailure (id : Nat)
  | sent (id : Nat)
  | accepted (id : Nat)
  | rejected (id : Nat)
  | connectionAdded
  | connectionRemoved
  | connectionCreationFailed
deriving DecidableEq, Repr

namespace MetricEvent

/-- The event that tells how a notification ended. -/
def ofOutcome (id : Nat) : Outcome → MetricEvent
  | .answered r => if r.isAccepted then accepted id else rejected id
  | .failed _ => writeFailure id

end MetricEvent

structure Totals where
  writeFailures : Nat := 0
  sent : Nat := 0
  accepted : Nat := 0
  rejected : Nat := 0
  connectionsAdded : Nat := 0
  connectionsRemoved : Nat := 0
  connectionCreationFailures : Nat := 0
deriving DecidableEq, Repr

namespace Totals

def count (t : Totals) : MetricEvent → Totals
  | .writeFailure _ => { t with writeFailures := t.writeFailures + 1 }
  | .sent _ => { t with sent := t.sent + 1 }
  | .accepted _ => { t with accepted := t.accepted + 1 }
  | .rejected _ => { t with rejected := t.rejected + 1 }
  | .connectionAdded => { t with connectionsAdded := t.connectionsAdded + 1 }
  | .connectionRemoved => { t with connectionsRemoved := t.connectionsRemoved + 1 }
  | .connectionCreationFailed =>
    { t with connectionCreationFailures := t.connectionCreationFailures + 1 }

def ofEvents (events : List MetricEvent) : Totals :=
  events.foldl count {}

def completed (t : Totals) : Nat :=
  t.accepted + t.rejected + t.writeFailures

end Totals

end PushDelivery
