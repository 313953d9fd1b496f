import PushDelivery.Client.World
import PushDelivery.Simulation.Link
import PushDelivery.Simulation.Script

namespace PushDelivery

inductive Task where
  | pool
  /-- An attempt to connect, and then the connection. -/
  | connection (id : Nat)
  /-- The client's end of a transport. -/
  | link (id : Nat)
  /-- What pings the gateway when a connection is idle. -/
  | pinger (id : Nat)
  | gateway (id : Nat)
  /-- What a gateway does about a request. -/
  | request (id stream : Nat)
deriving DecidableEq, Repr

structure Attempt where
  id : Nat
  started : Moment
deriving DecidableEq, Repr

structure Simulation where
  config : ClientConfig
  scripts : List GatewayScript
  world : World
  links : List Link := []
  attempts : List Attempt := []
  /-- The tasks that are to have a turn, the next one first. -/
  queue : List Task := []
  /-- The task whose turn it is, and whether it is to have another one. -/
  running : Option Task := none
  again : Bool := false
  /-- The tasks that wait for a moment, in the order in which they began to wait. -/
  sleeping : List Task := []
  /-- The answers to all requests that were set by steps, by the number of the attempt. -/
  autos : List (Nat × Option GatewayAnswer) := []
  /-- How many notifications have been sent. -/
  sent : Nat := 0
  /-- The notifications whose outcome is waited for. -/
  unresolved : List Nat := []
  /-- The authorization values in the order in which they were first seen. -/
  tokens : List String := []
  moves : Nat := 0
  callers : Nat := 0
  totals : Totals := {}
  /-- The totals as they were last noted down. -/
  notedTotals : Totals := {}
  record : StepRecord

namespace Simulation

def connOf (id : Nat) : Nat := id - 1

def idOf (conn : Nat) : Nat := conn + 1

/-- The calendar stands still while a simulation runs. -/
def date : Instant := ⟨1700000000, 0⟩

/-- The script of a connection; the last one serves for all that follow. -/
def script? (id : Nat) (s : Simulation) : Option GatewayScript :=
  s.scripts[min (connOf id) (s.scripts.length - 1)]?

def link? (id : Nat) (s : Simulation) : Option Link :=
  s.links.find? fun l => l.id == id

def setLink (l : Link) (s : Simulation) : Simulation :=
  { s with links := s.links.map fun k => if k.id == l.id then l else k }

def updateLink (id : Nat) (f : Link → Link) (s : Simulation) : Simulation :=
  { s with links := s.links.map fun l => if l.id == id then f l else l }

def note (f : StepRecord → StepRecord) (s : Simulation) : Simulation :=
  { s with record := f s.record }

def tally (e : MetricEvent) (s : Simulation) : Simulation :=
  { s with totals := s.totals.count e }

/-- A task is to have a turn, unless it is to have one already. The task whose turn it is comes back
after its turn. -/
def wake (t : Task) (s : Simulation) : Simulation :=
  if s.running = some t then { s with again := true }
  else if s.queue.contains t then s
  else { s with queue := s.queue ++ [t] }

def wakeAll (ts : List Task) (s : Simulation) : Simulation :=
  ts.foldl (fun s t => s.wake t) s

def settle (id : Nat) (o : Outcome) (s : Simulation) : Simulation :=
  if s.unresolved.contains id then
    { s with unresolved := s.unresolved.filter (· != id) }.note fun r =>
      { r with done := r.done ++ [(id, o)] }
  else s

def dropLink (id : Nat) (s : Simulation) : Simulation :=
  (s.updateLink id fun l => { l with dropped := true }).wake (.link id)

def observe (s : Simulation) : Happening → Simulation
  | .submitted _ => s
  | .refused => s.settle s.sent (.failed .clientClosed)
  | .report r =>
    match r.resolution? with
    | none => s.tally r.metric
    | some (id, o) => (s.tally r.metric).settle id o
  | .count e => s.tally e
  | .told _ => s.wake .pool
  | .handedOff id _ =>
    if (s.link? id).any Link.listens then
      (s.updateLink id fun l => { l with listens := false }).wake (.connection id)
    else s
  | .attempt id =>
    let attempt : Attempt := ⟨id, s.world.time⟩
    ({ s with attempts := s.attempts ++ [attempt] }.note fun r =>
      { r with attempts := r.attempts ++ [connOf id] }).wake (.connection id)
  | .aborted id => { s with attempts := s.attempts.filter fun a => a.id != id }.dropLink id
  | .opened id stream p r =>
    (s.updateLink id (Link.write ⟨stream, r, p.notification.payload⟩)).wake (.link id)
  | .ended id => s.dropLink id
  | .answered _ => s.note fun r => { r with closesFinished := r.closesFinished + 1 }

/-- All connections that take work hear that the client closes. -/
def announce (s : Simulation) : Simulation :=
  s.wakeAll ((s.world.connections.filter Connection.accepting).map fun c => .connection c.id)

def move (m : Move) (s : Simulation) : Simulation :=
  match s.world.step? date (Fin.ofNat P256.order (s.moves + 1)) m with
  | none => s
  | some (w, hs) =>
    let isNew := w.announced != s.world.announced
    let s := hs.foldl observe { s with world := w, moves := s.moves + 1 }
    if isNew then s.announce else s

end Simulation

end PushDelivery
