import PushDelivery.Simulation.Turn

namespace PushDelivery.Simulation

def sendTimes (n : Notification) : (count : Nat) → Simulation → Simulation
  | 0, s => s
  | count + 1, s =>
    let s := { s with sent := s.sent + 1, unresolved := s.unresolved ++ [s.sent + 1] }
    sendTimes n count (s.move (.send n))

def signal (conn : Nat) (signal : Signal) (s : Simulation) : StepResult × Simulation :=
  match s.link? (idOf conn) with
  | none => (.nothing, s)
  | some l =>
    if l.closed then (.flag false, s)
    else (.flag true,
      (s.setLink { l with incoming := l.incoming ++ [signal] }).wake (.link l.id))

def respond (conn stream : Nat) (a : GatewayAnswer) (s : Simulation) : Bool × Simulation :=
  match s.link? (idOf conn) with
  | none => (false, s)
  | some l =>
    let (was, l) := l.answer stream a
    (was, if was then (s.setLink l).wake (.link l.id) else s)

def dropConnection (conn : Nat) (s : Simulation) : Simulation :=
  match s.link? (idOf conn) with
  | none => s
  | some l =>
    if l.closed then s
    else
      let l := { l with
        closed := true, waiting := [], outgoing := [], incoming := l.incoming ++ [.hangUp] }
      ((s.setLink l).wake (.link l.id)).note fun r => { r with closed := r.closed ++ [conn] }

def waiting (s : Simulation) : List (Nat × Nat) :=
  s.links.flatMap fun l => (l.waiting.mergeSort fun a b => a ≤ b).map fun n => (connOf l.id, n)

/-- Sets the answer to all requests of a connection, which may not be there yet. -/
def setAuto (conn : Nat) (a : Option GatewayAnswer) (s : Simulation) : Simulation :=
  { s with autos := (conn, a) :: s.autos.filter fun e => e.1 != conn }.updateLink (idOf conn)
    fun l => { l with auto := a }

def act (s : Simulation) : SimulationStep → StepResult × Simulation
  | .send n count => (.nothing, sendTimes n count s)
  | .respond conn stream a =>
    let (was, s) := s.respond conn stream a
    (.flag was, s)
  | .respondAll a =>
    let all := s.waiting
    (.count all.length, all.foldl (fun s (conn, stream) => (s.respond conn stream a).2) s)
  | .auto conn a => (.nothing, s.setAuto conn a)
  | .goAway conn g => s.signal conn (.goAway g)
  | .protocolError conn => s.signal conn .fault
  | .dropConnection conn => (.nothing, s.dropConnection conn)
  | .advance d => (.nothing, s.advance d)
  | .close =>
    (.nothing, { s with callers := s.callers + 1 }.move (.close (s.callers + 1)))
  | .dropClient => (.nothing, s.move .leave)
  | .dropFuture id =>
    (.flag (s.unresolved.contains id),
      { s with unresolved := s.unresolved.filter (· != id) })

def finishRecord (s : Simulation) (result : StepResult) : StepRecord :=
  { s.record with
    time := s.world.time
    result := result
    requests := s.record.requests.mergeSort fun a b =>
      a.conn < b.conn || (a.conn == b.conn && a.arrival.stream ≤ b.arrival.stream)
    done := s.record.done.mergeSort fun a b => a.1 ≤ b.1
    closed := s.record.closed.mergeSort fun a b => a ≤ b
    totals := if s.totals = s.notedTotals then none else some s.totals }

def turnPage (s : Simulation) : Simulation :=
  { s with
    notedTotals := s.totals
    record := { time := s.world.time, closesFinished := s.record.closesFinished } }

def step (s : Simulation) (t : SimulationStep) : StepRecord × Simulation :=
  let (result, s) := s.act t
  let s := settleNow turns s
  (s.finishRecord result, s.turnPage)

def steps : List SimulationStep → Simulation → List StepRecord × Simulation
  | [], s => ([], s)
  | t :: rest, s =>
    let (r, s) := s.step t
    let (rs, s) := steps rest s
    (r :: rs, s)

def start (config : ClientConfig) (scripts : List GatewayScript) : Simulation :=
  let (w, hs) := World.start config
  let s : Simulation := { config, scripts, world := w, record := { time := 0 } }
  settleNow turns (hs.foldl observe s)

/-- The records of the beginning and of every step, and the notifications that are left over. -/
def run (config : ClientConfig) (scripts : List GatewayScript) (script : List SimulationStep) :
    List StepRecord × List Nat :=
  let s := start config scripts
  let first := s.finishRecord .nothing
  let (rs, s) := steps script s.turnPage
  (first :: rs, s.unresolved)

end PushDelivery.Simulation
