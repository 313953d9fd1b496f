import PushDelivery.Simulation.State

namespace PushDelivery.Simulation

def turns : Nat := 1000000

def isDue (s : Simulation) (t : Option Moment) : Bool :=
  t.any fun t => t ≤ s.world.time

def attemptTime (s : Simulation) (a : Attempt) : Option Moment :=
  let limit := Moment.after a.started s.config.connectTimeout
  match s.script? a.id with
  | none => some limit
  | some g =>
    if g.reception = .hang then some limit else some (min limit (Moment.after a.started g.delay))

def pingTime (s : Simulation) (id : Nat) : Option Moment :=
  match s.world.find? id, s.link? id with
  | some c, some l => l.pingTime c.lastActivity s.config.pingInterval
  | _, _ => none

def poolTimers : List Pool.PoolTimer := [.reconnect, .expire, .force]

def poolTime (s : Simulation) (t : Pool.PoolTimer) : Option Moment :=
  if s.world.pool.ended then none else s.world.pool.deadline? t

def tokenTime (c : Connection) : Option Moment :=
  c.token.bind TokenKeeper.expiresAt?

def drainTime (c : Connection) : Option Moment :=
  match c.phase with
  | .draining deadline => some deadline
  | _ => none

def earlier? (a b : Option Moment) : Option Moment :=
  match a, b with
  | some a, some b => some (min a b)
  | some a, none => some a
  | none, b => b

def taskTime (s : Simulation) : Task → Option Moment
  | .pool => (poolTimers.filterMap s.poolTime).min?
  | .connection id =>
    match s.attempts.find? fun a => a.id == id with
    | some a => s.attemptTime a
    | none => (s.world.find? id).bind fun c => earlier? (tokenTime c) (drainTime c)
  | .pinger id => s.pingTime id
  | .link _ | .gateway _ | .request _ _ => none

/-- With how much a task deals in one turn before it lets the others have theirs. -/
def patience : Nat := 128

def runPool : (left : Nat) → Simulation → Simulation
  | 0, s => s.wake .pool
  | left + 1, s =>
    if !s.world.channel.isEmpty then runPool left (s.move .pool)
    else
      match poolTimers.find? fun t => s.isDue (s.poolTime t) with
      | some t => runPool left (s.move (.timer t))
      | none => s

/-- What a connection is told next besides how its streams end, if there is anything to tell. -/
def nextInput? (w : World) (l : Link) (c : Connection) : Option ConnectionInput :=
  if c.mayWrite ∧ ¬c.commands.isEmpty then some (.command l.writeAnswer)
  else if l.ended ∧ c.watchesTransport then some .transportEnded
  else if l.pingFailed ∧ c.watchesPing then some .pingFailed
  else if c.accepting ∧ w.announced.isSome then w.announced.map .shutdown
  else if (tokenTime c).any fun t => t ≤ w.time then some .tokenExpired
  else if c.awaits w.time .drainDeadline then some .drainDeadline
  else none

def askRoom (id : Nat) (s : Simulation) : Simulation :=
  match s.world.find? id, s.link? id with
  | some c, some l =>
    if c.accepting ∧ ¬c.ready then s.move (.connection id (.readiness l.readiness)) else s
  | _, _ => s

/-- How many notifications of the pool are left for this turn after an input. -/
def leftAfter (left : Nat) : ConnectionInput → Nat
  | .command _ => left - 1
  | _ => left

def runConnection (id : Nat) : (fuel left : Nat) → Simulation → Simulation
  | 0, _, s => s
  | fuel + 1, left, s =>
    if (s.world.find? id).any Connection.isDone then s.move (.connection id .finish)
    else
      let s := s.askRoom id
      match s.world.find? id, s.link? id with
      | some c, some l =>
        if c.mayRetry then
          runConnection id fuel left (s.move (.connection id (.retry l.writeAnswer)))
        else if left = 0 then s.wake (.connection id)
        else
          let (found, again, l) := l.look c.inFlight.length
          let s := s.setLink l
          let s := if again then s.wake (.connection id) else s
          let input? := match found with
            | some (stream, r) => some (.result stream r)
            | none => nextInput? s.world l c
          match input? with
          | some input =>
            runConnection id fuel (leftAfter left input) (s.move (.connection id input))
          | none => s.updateLink id fun l => { l with listens := l.listens || c.mayWrite }
      | _, _ => s

def connect (id : Nat) (g : GatewayScript) (s : Simulation) : Simulation :=
  let auto := ((s.autos.find? fun a => a.1 == connOf id).map Prod.snd).getD g.auto
  let l : Link := {
    id := id, limit := if g.silent then some Link.usualLimit else g.limit, silent := g.silent
    auto := auto, lastPong := s.world.time }
  { s with links := s.links ++ [l] }.wakeAll [.gateway id, .link id, .pinger id]

/-- Ends an attempt: the gateway decides, unless the time to connect is over before. -/
def endAttempt (s : Simulation) (a : Attempt) : Simulation :=
  let s := { s with attempts := s.attempts.filter fun b => b.id != a.id }
  let timeout := Move.attemptFailed a.id ("Timed out after " ++ s.config.connectTimeout.toText)
  match s.script? a.id with
  | none => s.move timeout
  | some g =>
    if g.reception = .hang ∨ s.config.connectTimeout.nanos < g.delay.nanos then s.move timeout
    else
      match g.reception with
      | .refuse cause => s.move (.attemptFailed a.id ("I/O error: " ++ cause))
      | _ => runConnection a.id turns patience ((s.connect a.id g).move (.connected a.id))

def authorizationOf (a : Arrival) : Option String :=
  a.request.headers.first? Protocol.authorizationHeader

def see (id : Nat) (s : Simulation) (a : Arrival) : Simulation :=
  match authorizationOf a with
  | none => s.note fun r => { r with requests := r.requests ++ [⟨connOf id, a, none⟩] }
  | some value =>
    let place := s.tokens.findIdx (· == value)
    let s := if place = s.tokens.length then { s with tokens := s.tokens ++ [value] } else s
    s.note fun r => { r with requests := r.requests ++ [⟨connOf id, a, some place⟩] }

/-- The client's end of a transport has a turn, once. After the end of the transport it has none. -/
def runLink (id : Nat) (s : Simulation) : Simulation :=
  match s.link? id with
  | none => s
  | some l =>
    if l.ended then s
    else
      let next := l.turn
      let s := s.setLink next
      let s := if l.hasNewsSince next then s.wake (.connection id) else s
      if l.hasSentSince next then s.wake (.gateway id) else s

def runGateway (id : Nat) (s : Simulation) : Simulation :=
  match s.link? id with
  | none => s
  | some l =>
    let next := l.gatewayTurn
    let s := (s.setLink next).wakeAll (l.outgoing.map fun a => .request id a.stream)
    if next.closed && !l.closed then s.note fun r => { r with closed := r.closed ++ [connOf id] }
    else s

def runRequest (id : Nat) (s : Simulation) : Simulation :=
  match s.link? id with
  | none => s
  | some l =>
    match l.seeNext with
    | (none, _) => s
    | (some a, next) =>
      let s := (s.setLink next).see id a
      if next.auto.isSome then s.wake (.link id) else s

/-- The connection hears of a ping only when it has been given up. -/
def runPinger (id : Nat) (s : Simulation) : Simulation :=
  if s.isDue (s.pingTime id) then
    let s := s.updateLink id (Link.ping s.world.time s.config.pingInterval)
    if (s.link? id).any Link.pingFailed then s.wake (.connection id) else s
  else s

def runTask (t : Task) (s : Simulation) : Simulation :=
  match t with
  | .pool => runPool patience s
  | .connection id =>
    match s.attempts.find? fun a => a.id == id with
    | some a => if s.isDue (s.attemptTime a) then s.endAttempt a else s
    | none => runConnection id turns patience s
  | .link id => runLink id s
  | .pinger id => runPinger id s
  | .gateway id => runGateway id s
  | .request id _ => runRequest id s

/-- What a turn leaves behind: the task may wait for a moment, or come back. -/
def endTurn (t : Task) (s : Simulation) : Simulation :=
  let again := s.again
  let sleeping := s.sleeping.filter (· != t)
  let s := { s with
    running := none, again := false
    sleeping := if (s.taskTime t).isSome then sleeping ++ [t] else sleeping }
  if again then s.wake t else s

def turn (s : Simulation) : Simulation :=
  match s.queue with
  | [] => s
  | t :: rest => (runTask t { s with queue := rest, running := some t }).endTurn t

def runInstant : (fuel : Nat) → Simulation → Simulation
  | 0, s => s
  | fuel + 1, s => if s.queue.isEmpty then s else runInstant fuel s.turn

def forgetGone (s : Simulation) : Simulation :=
  { s with sleeping := s.sleeping.filter fun t => (s.taskTime t).isSome }

/-- The tasks whose time has come, in the order in which they began to wait. -/
def dueTasks (s : Simulation) : List Task :=
  s.sleeping.filter fun t => s.isDue (s.taskTime t)

def nextTime (s : Simulation) : Option Moment :=
  (s.sleeping.filterMap s.taskTime).min?

def settleNow : (fuel : Nat) → Simulation → Simulation
  | 0, s => s
  | fuel + 1, s =>
    let s := (runInstant turns s).forgetGone
    match s.dueTasks with
    | [] => s
    | due => settleNow fuel (s.wakeAll due)

/-- Time passes to a moment, and whatever is due happens when it is. -/
def runUntil (target : Moment) : (fuel : Nat) → Simulation → Simulation
  | 0, s => s
  | fuel + 1, s =>
    let s := settleNow turns s
    match s.nextTime with
    | none => s.move (.wait ⟨target - s.world.time⟩)
    | some t =>
      if t ≤ target then
        runUntil target fuel (s.move (.wait ⟨t - s.world.time⟩))
      else s.move (.wait ⟨target - s.world.time⟩)

def advance (d : Duration) (s : Simulation) : Simulation :=
  settleNow turns (runUntil (Moment.after s.world.time d) (d.nanos + 2) s)

end PushDelivery.Simulation
