import PushDelivery.Simulation.Signal

namespace PushDelivery

inductive Reception where
  | accept
  | refuse (cause : String)
  /-- The attempt never ends by itself. -/
  | hang
deriving DecidableEq, Repr

structure GatewayScript where
  delay : Duration
  reception : Reception
  limit : Option Nat
  silent : Bool
  auto : Option GatewayAnswer
deriving DecidableEq, Repr

inductive SimulationStep where
  | send (n : Notification) (count : Nat)
  | respond (conn stream : Nat) (a : GatewayAnswer)
  | respondAll (a : GatewayAnswer)
  | auto (conn : Nat) (a : Option GatewayAnswer)
  | goAway (conn : Nat) (g : GoAway)
  | protocolError (conn : Nat)
  | dropConnection (conn : Nat)
  | advance (d : Duration)
  | close
  | dropClient
  /-- Nobody waits any more for an outcome. -/
  | dropFuture (id : Nat)

inductive StepResult where
  | nothing
  | flag (b : Bool)
  | count (n : Nat)
deriving DecidableEq, Repr

structure SeenRequest where
  conn : Nat
  arrival : Arrival
  /-- The place of its authorization value among all that were seen. -/
  token : Option Nat
deriving DecidableEq, Repr

structure StepRecord where
  time : Moment
  result : StepResult := .nothing
  attempts : List Nat := []
  requests : List SeenRequest := []
  done : List (Nat × Outcome) := []
  closed : List Nat := []
  /-- How many closings of the client have finished since the beginning. -/
  closesFinished : Nat := 0
  /-- The totals, when they have changed. -/
  totals : Option Totals := none
deriving DecidableEq, Repr

end PushDelivery
