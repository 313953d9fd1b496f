import PushDelivery.Client.Connection

namespace PushDelivery

/-- A client with everything it runs: the handle that sends and closes, the pool, the connections,
the attempts to connect, and the channel in which the messages to the pool queue up. -/
structure World where
  settings : ConnectionSettings
  time : Moment := 0
  /-- Whether the client still takes notifications. -/
  isOpen : Bool := true
  /-- How many sends have found the client open and have yet to submit their notification. -/
  passing : Nat := 0
  ids : IdSupply := {}
  pool : Pool
  channel : List PoolMessage := []
  /-- The attempts to connect that are under way. -/
  attempts : List Nat := []
  connections : List Connection := []
  /-- The deadline that all connections have been told. -/
  announced : Option Moment := none

/-- Whose step is next, with what the step is told from outside. Moves come one at a time, in any
order. -/
inductive Move where
  /-- Time passes. -/
  | wait (d : Duration)
  /-- A notification is sent, with nothing in between. -/
  | send (n : Notification)
  /-- A send finds the client open, and others may move before it goes on. -/
  | pass
  /-- A send that has found the client open goes on, whether or not it still is. -/
  | submit (n : Notification)
  /-- Someone closes the client and waits for the end. -/
  | close (caller : Nat)
  /-- The last owner lets go of the client. -/
  | leave
  /-- The pool deals with the message that has queued up first. -/
  | pool
  | timer (t : Pool.PoolTimer)
  | connected (id : Nat)
  | attemptFailed (id : Nat) (cause : String)
  | connection (id : Nat) (input : ConnectionInput)

inductive Happening where
  | submitted (p : Dispatch)
  /-- A notification came after the client was closed. -/
  | refused
  | report (r : Report)
  | count (e : MetricEvent)
  | told (m : PoolMessage)
  | handedOff (connection : Nat) (p : Dispatch)
  | attempt (id : Nat)
  | aborted (id : Nat)
  | opened (connection stream : Nat) (p : Dispatch) (r : Request)
  | ended (connection : Nat)
  | answered (caller : Nat)
deriving DecidableEq, Repr

namespace World

abbrev Effect := World × List Happening

def andThen (e : Effect) (f : World → Effect) : Effect :=
  let (w, hs) := f e.1
  (w, e.2 ++ hs)

def each {α : Type} (f : World → α → Effect) (w : World) (as : List α) : Effect :=
  as.foldl (fun e a => andThen e fun w => f w a) (w, [])

def find? (id : Nat) (w : World) : Option Connection :=
  w.connections.find? fun c => c.id == id

def set (c : Connection) (w : World) : World :=
  { w with connections := w.connections.map fun d => if d.id == c.id then c else d }

def remove (id : Nat) (w : World) : World :=
  { w with connections := w.connections.filter fun c => c.id != id }

/-- Queues a message for the pool. After the pool's end a notification handed back is let go. -/
def tell (w : World) (m : PoolMessage) : Effect :=
  if w.pool.ended then
    match m with
    | .resubmit p => (w, [.report p.drop])
    | _ => (w, [])
  else ({ w with channel := w.channel ++ [m] }, [.told m])

/-- Gives a notification its number and the pool the notification. After the pool's end it fails. -/
def submit (w : World) (n : Notification) : Effect :=
  let (id, ids) := w.ids.take
  let p : Dispatch := ⟨id, n, false, false, false⟩
  let w := { w with ids := ids }
  if w.pool.ended then (w, [.submitted p, .report (p.fail .clientClosed)])
  else andThen (w, [.submitted p]) fun w => w.tell (.submit p)

def abort (w : World) (id : Nat) : Effect :=
  let reports := ((w.find? id).map Connection.abort).getD []
  ({ w.remove id with attempts := w.attempts.filter (· != id) },
    .aborted id :: reports.map .report)

def perform (w : World) : PoolAction → Effect
  | .report r => (w, [.report r])
  | .count e => (w, [.count e])
  | .handOff id p =>
    (((w.find? id).map fun c => w.set (c.takeCommand p)).getD w, [.handedOff id p])
  | .attempt id => ({ w with attempts := w.attempts ++ [id] }, [.attempt id])
  | .abort id => w.abort id
  | .announce deadline => ({ w with announced := some deadline }, [])
  | .answer caller => (w, [.answered caller])

/-- A connection takes a notification as long as its queue is open. -/
def accepts (w : World) (_tries id : Nat) : Bool :=
  (w.find? id).any Connection.commandsOpen

/-- Carries out a step of the pool, and ends the pool when it has nothing left to wait for. -/
def carryOut (w : World) (work : Pool.Work) (ends : Bool) : Effect :=
  if ends || work.pool.isFinished then
    let last := Pool.finish w.channel work
    each perform { w with pool := last.pool, channel := [] } last.actions
  else each perform { w with pool := work.pool } work.actions

def act (id : Nat) (w : World) : ConnectionAction → Effect
  | .tell m => w.tell m
  | .report r => (w, [.report r])
  | .opened stream p r => (w, [.opened id stream p r])

/-- Puts a connection back after a step, unless it has come to its end. -/
def settle (w : World) (o : Connection.Effect) : Effect :=
  let id := o.1.id
  if o.1.phase = .closed then
    andThen (each (act id) (w.remove id) o.2) fun w => (w, [.ended id])
  else each (act id) (w.set o.1) o.2

/-- Whether a step of a connection is in keeping with the rest of the world. -/
def allows (w : World) : ConnectionInput → Bool
  | .shutdown deadline => w.announced == some deadline
  | .abandoned => w.pool.ended
  | _ => true

/-- One move. The calendar and the secret are what the moving part is given to know. No result
means that the move cannot be made now. -/
def step? (w : World) (date : Instant) (secret : P256.Scalar) : Move → Option Effect
  | .wait d => some ({ w with time := Moment.after w.time d }, [])
  | .send n => some (if w.isOpen then w.submit n else (w, [.refused]))
  | .pass => if w.isOpen then some ({ w with passing := w.passing + 1 }, []) else none
  | .submit n =>
    if 0 < w.passing then some ({ w with passing := w.passing - 1 }.submit n) else none
  | .close caller =>
    let w := { w with isOpen := false }
    some (if w.pool.ended then (w, [.answered caller]) else w.tell (.shutdown (some caller)))
  | .leave =>
    some (if w.isOpen then { w with isOpen := false }.tell (.shutdown none) else (w, []))
  | .pool =>
    match w.channel with
    | [] => none
    | m :: rest =>
      if w.pool.ended then none
      else some ({ w with channel := rest }.carryOut (w.pool.onMessage w.accepts w.time m) false)
  | .timer t =>
    if !w.pool.ended && (w.pool.deadline? t).any fun d => d ≤ w.time then
      some (w.carryOut (w.pool.onTimer w.time t) (t == .force))
    else none
  | .connected id =>
    if w.attempts.contains id then
      let w := { w with attempts := w.attempts.filter (· != id) }
      let c := Connection.start w.settings id w.time
      some (
        if w.pool.ended then (w, [])
        else
          let w := { w with connections := w.connections ++ [c] }
          andThen (w.tell (.established id)) fun w =>
            match w.announced with
            | none => (w, [])
            | some deadline => w.settle (c.drainUntil deadline))
    else none
  | .attemptFailed id cause =>
    if w.attempts.contains id then
      some ({ w with attempts := w.attempts.filter (· != id) }.tell (.attemptFailed id cause))
    else none
  | .connection id input => do
    let c ← w.find? id
    if c.awaits w.time input && w.allows input then
      some (w.settle (c.step w.settings ⟨w.time, date, secret⟩ input))
    else none

/-- A client that has just been created; the pool opens its connections at once. -/
def start (config : ClientConfig) : Effect :=
  let w : World := { settings := .ofConfig config, pool := .ofConfig config }
  w.carryOut (Pool.fill { pool := w.pool }) false

end World

end PushDelivery
