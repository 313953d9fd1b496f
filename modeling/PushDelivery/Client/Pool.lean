import PushDelivery.Client.Backoff
import PushDelivery.Client.Config
import PushDelivery.Client.Dispatch
import PushDelivery.Client.Present
import PushDelivery.IdSupply

namespace PushDelivery

inductive PoolMessage where
  | submit (p : Dispatch)
  /-- A notification that a connection hands back unwritten. -/
  | resubmit (p : Dispatch)
  | established (id : Nat)
  | attemptFailed (id : Nat) (cause : String)
  | writabilityChanged (id : Nat) (writable : Bool)
  /-- The connection has stopped taking work. -/
  | draining (id : Nat)
  | closed (id : Nat)
  /-- The client closes; the caller, if there is one, wants to know when it is done. -/
  | shutdown (caller : Option Nat)
deriving DecidableEq, Repr

inductive PoolAction where
  | report (r : Report)
  | count (e : MetricEvent)
  /-- Passes a notification to a connection, which has taken it. -/
  | handOff (connection : Nat) (p : Dispatch)
  | attempt (id : Nat)
  /-- Stops an attempt or a connection without letting it finish. -/
  | abort (id : Nat)
  /-- Tells all connections to be closed by a deadline. -/
  | announce (deadline : Moment)
  | answer (caller : Nat)
deriving DecidableEq, Repr

inductive PooledPhase where
  | connected
  | draining
deriving DecidableEq, Repr

structure PooledConnection where
  id : Nat
  phase : PooledPhase := .connected
  writable : Bool := true
deriving DecidableEq, Repr

namespace PooledConnection

def isConnected (c : PooledConnection) : Bool :=
  c.phase == .connected

def takesWork (c : PooledConnection) : Bool :=
  c.writable && c.isConnected

end PooledConnection

structure Waiter where
  dispatch : Dispatch
  deadline : Moment
deriving DecidableEq, Repr

structure Closing where
  deadline : Moment
  callers : List Nat
deriving DecidableEq, Repr

/-- Every notification comes to the pool first. It hands them, in turn, to the connections that take
work, and lets them wait while there is none. -/
structure Pool where
  /-- How many connections are wanted. -/
  target : Nat
  acquireTimeout : Duration
  gracePeriod : Duration
  connections : List PooledConnection := []
  /-- The connected ones in the order in which they take their turns. -/
  rotation : List Nat := []
  cursor : Nat := 0
  connecting : List Nat := []
  /-- Attempts and connections that are running. -/
  tasks : List Nat := []
  waiters : List Waiter := []
  backoff : Backoff
  reconnectAt : Option Moment := none
  closing : Option Closing := none
  ids : IdSupply := {}
  ended : Bool := false
deriving Repr

namespace Pool

def ofConfig (c : ClientConfig) : Pool where
  target := c.connections
  acquireTimeout := c.acquireTimeout
  gracePeriod := c.gracePeriod
  backoff := c.backoff

def find? (id : Nat) (p : Pool) : Option PooledConnection :=
  p.connections.find? fun c => c.id == id

def update (id : Nat) (f : PooledConnection → PooledConnection) (p : Pool) : Pool :=
  { p with connections := p.connections.map fun c => if c.id == id then f c else c }

def setWritable (id : Nat) (writable : Bool) (p : Pool) : Pool :=
  p.update id fun c => { c with writable := writable }

def takesWork (id : Nat) (p : Pool) : Bool :=
  (p.find? id).any PooledConnection.takesWork

def connectedCount (p : Pool) : Nat :=
  p.connections.countP PooledConnection.isConnected

/-- The connections that are open for work or on their way. -/
def activeCount (p : Pool) : Nat :=
  p.connectedCount + p.connecting.length

/-- Looks at so many places of the rotation, starting at the cursor, for a connection that takes
work. The cursor stops behind it. -/
def scan : (places : Nat) → Pool → Option Nat × Pool
  | 0, p => (none, p)
  | places + 1, p =>
    match p.rotation[p.cursor % p.rotation.length]? with
    | none => (none, p)
    | some id =>
      let q := { p with cursor := (p.cursor + 1) % p.rotation.length }
      if p.takesWork id then (some id, q) else scan places q

/-- The connection whose turn it is among those that take work. -/
def nextWritable (p : Pool) : Option Nat × Pool :=
  p.scan p.rotation.length

/-- How a step learns whether a connection still has an open queue. The first number counts the
hand-offs tried so far in the step. -/
abbrev Acceptance := Nat → Nat → Bool

/-- A step in progress: the pool, what has been done so far, and how many hand-offs were tried. -/
structure Work where
  pool : Pool
  actions : List PoolAction := []
  tries : Nat := 0

namespace Work

def act (w : Work) (as : List PoolAction) : Work :=
  { w with actions := w.actions ++ as }

def setPool (w : Work) (p : Pool) : Work :=
  { w with pool := p }

end Work

/-- Offers a notification to one connection after another until one takes it or none is left; a
connection that refuses is not asked again. Says whether the notification was taken. -/
def offerWithin (accepts : Acceptance) (n : Dispatch) : (fuel : Nat) → Work → Bool × Work
  | 0, w => (false, w)
  | fuel + 1, w =>
    match w.pool.nextWritable with
    | (none, q) => (false, w.setPool q)
    | (some id, q) =>
      let v := { w.setPool q with tries := w.tries + 1 }
      if accepts w.tries id then (true, v.act [.handOff id n])
      else offerWithin accepts n fuel (v.setPool (q.setWritable id false))

/-- One try more than there are connections, the last of which finds none. -/
def offer (accepts : Acceptance) (n : Dispatch) (w : Work) : Bool × Work :=
  offerWithin accepts n (w.pool.connections.length + 1) w

/-- Hands waiters over, the first one first, while there are connections that take work. -/
def flushWithin (accepts : Acceptance) : (waiters : List Waiter) → Work → Work
  | [], w => w.setPool { w.pool with waiters := [] }
  | x :: rest, w =>
    match offer accepts x.dispatch w with
    | (true, v) => flushWithin accepts rest v
    | (false, v) => v.setPool { v.pool with waiters := x :: rest }

def flush (accepts : Acceptance) (w : Work) : Work :=
  flushWithin accepts w.pool.waiters w

def fail (e : SendError) (ps : List Dispatch) : List PoolAction :=
  ps.map fun p => .report (p.fail e)

/-- Hands a notification over at once when nothing waits before it, or lets it wait. -/
def route (accepts : Acceptance) (time : Moment) (n : Dispatch) (p : Pool) : Work :=
  if p.closing.isSome then { pool := p, actions := fail .clientClosed [n] }
  else
    let queue := fun (w : Work) =>
      let waiter : Waiter := ⟨n, Moment.after time p.acquireTimeout⟩
      flush accepts (w.setPool { w.pool with waiters := w.pool.waiters ++ [waiter] })
    if p.waiters.isEmpty then
      match offer accepts n { pool := p } with
      | (true, w) => w
      | (false, w) => queue w
    else queue { pool := p }

def scheduleReconnect (time : Moment) (delay : Duration) (p : Pool) : Pool :=
  if p.closing.isSome ∨ p.target ≤ p.activeCount then p
  else
    let planned := Moment.after time delay
    { p with reconnectAt := some ((p.reconnectAt.map (min planned)).getD planned) }

def startAttempt (w : Work) : Work :=
  let (id, ids) := w.pool.ids.take
  (w.setPool { w.pool with
    ids := ids, connecting := w.pool.connecting ++ [id], tasks := w.pool.tasks ++ [id] }).act
    [.attempt id]

def fillWithin : (lacking : Nat) → Work → Work
  | 0, w => w
  | lacking + 1, w => fillWithin lacking (startAttempt w)

def fill (w : Work) : Work :=
  if w.pool.closing.isSome then w else fillWithin (w.pool.target - w.pool.activeCount) w

def onEstablished (accepts : Acceptance) (id : Nat) (p : Pool) : Work :=
  let p := { p with connecting := p.connecting.filter (· != id) }
  if p.closing.isSome then { pool := p }
  else
    flush accepts {
      pool := { p with
        backoff := p.backoff.reset
        connections := p.connections.filter (fun c => c.id != id) ++ [{ id := id }]
        rotation := p.rotation ++ [id] }
      actions := [.count .connectionAdded] }

/-- When no connection is left and none is on its way, nobody has anything to wait for. -/
def onAttemptFailed (time : Moment) (id : Nat) (cause : String) (p : Pool) : Work :=
  let p := { p with
    connecting := p.connecting.filter (· != id), tasks := p.tasks.filter (· != id) }
  let w : Work := { pool := p, actions := [.count .connectionCreationFailed] }
  if p.closing.isSome then w
  else
    let (delay, backoff) := p.backoff.next
    let p := { p with backoff := backoff }
    if p.connectedCount = 0 ∧ p.connecting = [] then
      (w.act (fail (.connectionFailed cause) (p.waiters.map Waiter.dispatch))).setPool
        ({ p with waiters := [] }.scheduleReconnect time delay)
    else w.setPool (p.scheduleReconnect time delay)

def onDraining (time : Moment) (id : Nat) (p : Pool) : Pool :=
  let p := p.update id fun c => { c with phase := .draining, writable := false }
  { p with rotation := p.rotation.filter (· != id) }.scheduleReconnect time p.backoff.current

def onClosed (time : Moment) (id : Nat) (p : Pool) : Work :=
  let gone : List PoolAction := if (p.find? id).isSome then [.count .connectionRemoved] else []
  let p := { p with
    tasks := p.tasks.filter (· != id)
    rotation := p.rotation.filter (· != id)
    connections := p.connections.filter fun c => c.id != id }
  { pool := p.scheduleReconnect time p.backoff.current, actions := gone }

/-- Stops everything but the connections, which get the grace period to finish. Whoever asks again
waits for the same end. -/
def onShutdown (time : Moment) (caller : Option Nat) (p : Pool) : Work :=
  match p.closing with
  | some c =>
    { pool := { p with closing := some { c with callers := c.callers ++ caller.toList } } }
  | none =>
    let deadline := Moment.after time p.gracePeriod
    { pool := { p with
        reconnectAt := none
        waiters := []
        connecting := []
        tasks := p.tasks.filter fun id => !p.connecting.contains id
        closing := some ⟨deadline, caller.toList⟩ }
      actions := fail .clientClosed (p.waiters.map Waiter.dispatch) ++
        p.connecting.map .abort ++ [.announce deadline] }

def onMessage (accepts : Acceptance) (time : Moment) (p : Pool) : PoolMessage → Work
  | .submit n | .resubmit n => p.route accepts time n
  | .established id => p.onEstablished accepts id
  | .attemptFailed id cause => p.onAttemptFailed time id cause
  | .writabilityChanged id writable =>
    let w : Work := { pool := p.setWritable id writable }
    if writable then flush accepts w else w
  | .draining id => { pool := p.onDraining time id }
  | .closed id => p.onClosed time id
  | .shutdown caller => p.onShutdown time caller

inductive PoolTimer where
  | reconnect
  /-- The first waiter has waited long enough. -/
  | expire
  /-- The connections have not closed in time. -/
  | force
deriving DecidableEq, Repr

/-- How long the connections may take beyond the grace period to say that they have closed. -/
def forceGrace : Duration := .ofMillis 250

def deadline? (p : Pool) : PoolTimer → Option Moment
  | .reconnect => p.reconnectAt
  | .expire => p.waiters.head?.map Waiter.deadline
  | .force => p.closing.map fun c => Moment.after c.deadline forceGrace

def isExpired (time : Moment) (w : Waiter) : Bool :=
  w.deadline ≤ time

/-- Fails the waiters at the front whose time is over. -/
def expire (time : Moment) (p : Pool) : Work :=
  { pool := { p with waiters := p.waiters.dropWhile (isExpired time) }
    actions := fail .acquireTimeout ((p.waiters.takeWhile (isExpired time)).map Waiter.dispatch) }

def forceClose (p : Pool) : Work :=
  { pool := { p with tasks := [], connections := [], rotation := [] }
    actions := p.tasks.map .abort ++ p.connections.map fun _ => .count .connectionRemoved }

def onTimer (time : Moment) (p : Pool) : PoolTimer → Work
  | .reconnect => fill { pool := { p with reconnectAt := none } }
  | .expire => p.expire time
  | .force => p.forceClose

def isFinished (p : Pool) : Bool :=
  p.closing.isSome && p.connections.isEmpty && p.connecting.isEmpty

/-- Messages that come too late: notifications are failed and the rest is forgotten. -/
def discard : PoolMessage → List PoolAction
  | .submit n | .resubmit n => fail .clientClosed [n]
  | _ => []

/-- The end of the pool: fails what is still queued and answers all callers. -/
def finish (queued : List PoolMessage) (w : Work) : Work :=
  let callers := (w.pool.closing.map Closing.callers).getD []
  (w.act (queued.flatMap discard ++ fail .clientClosed (w.pool.waiters.map Waiter.dispatch) ++
    callers.map .answer)).setPool { w.pool with waiters := [], ended := true }

end Pool

end PushDelivery
