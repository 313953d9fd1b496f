import PushDelivery.Gateway.Server
import PushDelivery.Simulation.Run
import PushDelivery.Text.Utf8

namespace PushDelivery

open Text

namespace GatewayScript

def attentive (reception : Reception) (limit : Option Nat) : GatewayScript where
  delay := .zero
  reception := reception
  limit := limit
  silent := false
  auto := none

end GatewayScript

namespace Gateway

def freshId (n : Nat) : Uuid :=
  ⟨BitVec.ofNat 128 n⟩

/-- Rules on a request and replies to it. The number is one that no other request is given. -/
def serve (g : Gateway) (now : Instant) (number conn : Nat) (r : GatewayRequest) :
    Option (Reply × GatewayEvent × Gateway) :=
  (g.receive conn now r).map fun (ruling, g) =>
    (reply r (freshId (2 * number)) (freshId (2 * number + 1)) ruling, .ofRuling r ruling, g)

def serveAll (now : Instant) : Gateway → List (Nat × GatewayRequest) →
    Option (List (Reply × GatewayEvent))
  | _, [] => some []
  | g, (conn, r) :: rest => do
    let (reply, event, g) ← g.serve now rest.length conn r
    return (reply, event) :: (← serveAll now g rest)

end Gateway

structure Delivery where
  simulation : Simulation
  gateway : Gateway
  events : List GatewayEvent := []
  /-- The requests that have not been answered. -/
  requests : List SeenRequest := []
  outcomes : List (Nat × Outcome) := []

structure DeliveryReport where
  outcomes : List Outcome
  /-- What becomes of a notification that is sent to a closed client. -/
  afterClose : Option Outcome
  events : List GatewayEvent
  totals : Totals
  closed : Bool
deriving DecidableEq, Repr

namespace Delivery

/-- Nobody here is in a hurry: a notification waits for a connection as long as it takes. -/
def patient (c : ClientConfig) : ClientConfig :=
  { c with acquireTimeout := .longest }

def start (c : ClientConfig) (s : GatewayScript) (policy : GatewayPolicy) : Delivery where
  simulation := (Simulation.start (patient c) [s]).turnPage
  gateway := { policy := policy }

def take (d : Delivery) (t : SimulationStep) : Delivery :=
  let (record, simulation) := d.simulation.step t
  { d with
    simulation := simulation
    requests := d.requests ++ record.requests
    outcomes := d.outcomes ++ record.done }

def answer (now : Instant) (d : Delivery) (seen : SeenRequest) : Option Delivery := do
  let r := GatewayRequest.ofRequest seen.arrival.request
    (Utf8.encode seen.arrival.payload.toList)
  let (reply, event, gateway) ← d.gateway.serve now d.events.length seen.conn r
  return { d with gateway := gateway, events := d.events ++ [event] }.take
    (.respond seen.conn seen.arrival.stream (.reply reply))

/-- Answers requests, or else lets time pass, until something is reached. -/
def settle (now : Instant) (isReached : Delivery → Bool) : (fuel : Nat) → Delivery →
    Option Delivery
  | 0, d => some d
  | fuel + 1, d =>
    if isReached d then some d
    else
      match d.requests with
      | seen :: rest =>
        ({ d with requests := rest }.answer now seen).bind (settle now isReached fuel)
      | [] =>
        match d.simulation.nextTime with
        | none => some d
        | some t => settle now isReached fuel (d.take (.advance ⟨t - d.simulation.world.time⟩))

def outcome? (d : Delivery) (id : Nat) : Option Outcome :=
  (d.outcomes.find? fun o => o.1 == id).map Prod.snd

def send (now : Instant) (d : Delivery) (n : Notification) : Option Delivery :=
  let d := d.take (.send n 1)
  d.settle now (fun d => !d.simulation.unresolved.contains d.simulation.sent) Simulation.turns

def isClosed (d : Delivery) : Bool :=
  0 < d.simulation.record.closesFinished

def close (now : Instant) (d : Delivery) : Option Delivery :=
  (d.take .close).settle now isClosed Simulation.turns

/-- The whole of it. There is no report when the gateway cannot rule on a request. -/
def run (now : Instant) (c : ClientConfig) (s : GatewayScript) (policy : GatewayPolicy)
    (ns : List Notification) (last : Notification) : Option DeliveryReport := do
  let sent ← ns.foldlM (send now) (start c s policy)
  let closed ← sent.close now
  let after ← closed.send now last
  return {
    outcomes := (List.range ns.length).filterMap fun i => after.outcome? (i + 1)
    afterClose := after.outcome? (ns.length + 1)
    events := after.events
    totals := after.simulation.totals
    closed := closed.isClosed }

end Delivery

end PushDelivery
