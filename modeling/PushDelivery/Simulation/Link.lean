import PushDelivery.Simulation.Signal

namespace PushDelivery

structure Link where
  id : Nat
  /-- How many streams may be open at most. -/
  limit : Option Nat
  /-- The gateway never answers anything. -/
  silent : Bool
  /-- The gateway's answer to every request, if there is one. -/
  auto : Option GatewayAnswer
  nextStream : Nat := 1
  queued : List Arrival := []
  active : List Nat := []
  /-- The stream that has to open before another one is taken. -/
  gate : Option Nat := none
  goAway : Option GoAway := none
  /-- Why nothing can be written any more. -/
  failure : Option String := none
  /-- The transport has come to its end, which the connection can notice. -/
  ended : Bool := false
  /-- The connection has given up the transport. -/
  dropped : Bool := false
  /-- The ends of streams that the connection has not looked at. -/
  results : List (Nat × StreamResult) := []
  /-- The streams that the connection is to look at, because they are new or have ended. -/
  news : List Nat := []
  /-- The connection waits for notifications from the pool. -/
  listens : Bool := false
  /-- What the gateway has sent and the client's end has not read. -/
  incoming : List Signal := []
  /-- The requests that have gone out and that the gateway has not seen. -/
  outgoing : List Arrival := []
  /-- The requests that have come to the gateway and that it has not looked at. -/
  unseen : List Arrival := []
  /-- The streams whose requests the gateway has seen and not answered. -/
  waiting : List Nat := []
  /-- The gateway knows that the connection is closed. -/
  closed : Bool := false
  lastPong : Moment
  /-- When an unanswered ping counts as lost. -/
  pingDeadline : Option Moment := none
  pingFailed : Bool := false

namespace Link

/-- How many streams may be open as long as the gateway has not said anything about it. -/
def usualLimit : Nat := 100

def isQueued (stream : Nat) (l : Link) : Bool :=
  l.queued.any fun a => a.stream == stream

def isGated (l : Link) : Bool :=
  l.gate.any fun stream => l.isQueued stream

def readiness (l : Link) : Readiness :=
  if l.failure.isSome || l.goAway.isSome then .failed
  else if l.isGated then .pending
  else .ready

def writeAnswer (l : Link) : WriteAnswer :=
  match l.failure, l.goAway with
  | some cause, _ => .refused cause
  | none, some g => .refused ("connection error received: " ++ GoAway.reason g.code)
  | none, none => .opened l.nextStream

/-- Queues a stream. When the gateway has no room beyond it, it has to open before the next. -/
def write (a : Arrival) (l : Link) : Link :=
  { l with
    queued := l.queued ++ [a]
    news := l.news ++ [a.stream]
    nextStream := l.nextStream + 2
    gate := if l.limit.any fun n => n ≤ l.active.length + 1 then some a.stream else none }

def tellEnd (stream : Nat) (r : StreamResult) (l : Link) : Link :=
  { l with
    results := l.results ++ [(stream, r)]
    news := if l.news.contains stream then l.news else l.news ++ [stream] }

def tellEnds (r : StreamResult) (streams : List Nat) (l : Link) : Link :=
  streams.foldl (fun l stream => l.tellEnd stream r) l

def unfinished (l : Link) : List Nat :=
  l.active ++ l.queued.map Arrival.stream

def fail (cause : String) (l : Link) : Link :=
  { l.tellEnds .lost l.unfinished with
    active := [], queued := []
    failure := some (l.failure.getD cause), ended := true }

def protocolError : String := "connection error detected: unspecific protocol error detected"

/-- The gateway takes no streams above the last one. It may lower the last one, but not raise it. -/
def receiveGoAway (g : GoAway) (l : Link) : Link :=
  if l.goAway.any fun old => old.lastStream < g.lastStream then l.fail protocolError
  else
    { l.tellEnds .goneAway (l.unfinished.filter fun stream => g.lastStream < stream) with
      goAway := some g
      active := l.active.filter fun stream => stream ≤ g.lastStream
      queued := l.queued.filter fun a => a.stream ≤ g.lastStream }

def receive (l : Link) (signal : Signal) : Link :=
  if l.ended then l
  else
    match signal with
    | .answer stream a =>
      if l.active.contains stream then
        match a.result? with
        | none => l.fail protocolError
        | some r => { l with active := l.active.filter (· != stream) }.tellEnd stream r
      else l
    | .goAway g => l.receiveGoAway g
    | .fault => l.fail protocolError
    | .hangUp => l.fail "connection closed because of a broken pipe"

def room (l : Link) : Nat :=
  match l.limit with
  | none => l.queued.length
  | some n => n - l.active.length

def openQueued (l : Link) : Link :=
  let opening := l.queued.take l.room
  { l with
    queued := l.queued.drop l.room
    active := l.active ++ opening.map Arrival.stream
    outgoing := l.outgoing ++ opening }

/-- Ends the transport after a goodbye when no stream is open. -/
def endIdle (l : Link) : Link :=
  match l.goAway with
  | some g =>
    if l.active.isEmpty && !l.ended then
      l.fail ("connection error received: " ++ GoAway.reason g.code)
    else l
  | none => l

def turn (l : Link) : Link :=
  if l.dropped then { l.fail "connection closed because of a broken pipe" with incoming := [] }
  else ({ l.incoming.foldl receive l with incoming := [] }).openQueued.endIdle

def hasNewsSince (before after : Link) : Bool :=
  before.results.length < after.results.length || (before.isGated && !after.isGated) ||
    (!before.ended && after.ended)

def hasSentSince (before after : Link) : Bool :=
  before.outgoing.length < after.outgoing.length || after.ended

def answer (stream : Nat) (a : GatewayAnswer) (l : Link) : Bool × Link :=
  if l.waiting.contains stream then
    (true, { l with
      waiting := l.waiting.filter (· != stream), incoming := l.incoming ++ [.answer stream a] })
  else (false, l)

/-- A turn of the gateway: it takes the requests that have come, or notices that the connection is
closed. -/
def gatewayTurn (l : Link) : Link :=
  { l with
    unseen := if l.silent || l.closed then l.unseen else l.unseen ++ l.outgoing
    outgoing := []
    closed := l.closed || l.ended
    waiting := if l.ended then [] else l.waiting }

/-- The gateway looks at the first request that has come, and answers it if it answers all. -/
def seeNext (l : Link) : Option Arrival × Link :=
  match l.unseen with
  | [] => (none, l)
  | a :: rest =>
    let l := { l with
      unseen := rest, waiting := if l.closed then l.waiting else l.waiting ++ [a.stream] }
    (some a, match l.auto with
      | some answer => (l.answer a.stream answer).2
      | none => l)

/-- What the connection finds when it looks at its streams one after the other: the first that has
ended, if there is one. When none has and it has looked at all that it waits for, so many, it looks
once more later, which the second part says. -/
def lookWithin (results : List (Nat × StreamResult)) (inFlight : Nat) :
    (looked : Nat) → (news : List Nat) → Option (Nat × StreamResult) × Bool × List Nat
  | _, [] => (none, false, [])
  | looked, stream :: rest =>
    match results.find? fun r => r.1 == stream with
    | some r => (some r, false, rest)
    | none =>
      if looked + 1 = inFlight then (none, true, rest)
      else lookWithin results inFlight (looked + 1) rest

def look (inFlight : Nat) (l : Link) : Option (Nat × StreamResult) × Bool × Link :=
  if inFlight = 0 then (none, false, l)
  else
    let (found, again, news) := lookWithin l.results inFlight 0 l.news
    (found, again, { l with
      news := news
      results := match found with
        | some (stream, _) => l.results.filter fun r => r.1 != stream
        | none => l.results })

/-- When the connection is to be pinged, or a ping is to be given up. -/
def pingTime (lastActivity : Moment) (interval : Duration) (l : Link) : Option Moment :=
  if l.pingFailed then none
  else some (l.pingDeadline.getD (Moment.after (max lastActivity l.lastPong) interval))

/-- Pings the gateway, or gives up on an earlier ping. -/
def ping (time : Moment) (interval : Duration) (l : Link) : Link :=
  if l.pingDeadline.isSome || l.ended then { l with pingFailed := true, pingDeadline := none }
  else if l.silent then { l with pingDeadline := some (Moment.after time interval) }
  else { l with lastPong := time }

end Link

end PushDelivery
