import PushDelivery.Client.OpenStreams
import PushDelivery.Client.Pool
import PushDelivery.Client.TokenKeeper
import PushDelivery.Http.Reply
import PushDelivery.Http.Request

namespace PushDelivery

structure ConnectionSettings where
  scheme : String
  authority : String
  signingKey : Option SigningKey
  tokenLifetime : Duration
  gracePeriod : Duration
  retryExpiredTokens : Bool

namespace ConnectionSettings

def ofConfig (c : ClientConfig) : ConnectionSettings where
  scheme := c.scheme
  authority := c.authority
  signingKey := c.auth.signingKey?
  tokenLifetime := c.tokenLifetime
  gracePeriod := c.gracePeriod
  retryExpiredTokens := c.retryExpiredTokens

end ConnectionSettings

inductive ConnectionPhase where
  | connected
  /-- No new streams; those that are open may be answered until the deadline. -/
  | draining (deadline : Moment)
  | closed
deriving DecidableEq, Repr

/-- It stops taking work for good, that is drains, when something tells it that it will not last.
What it has not written by then goes back to the pool. -/
structure Connection where
  id : Nat
  phase : ConnectionPhase := .connected
  /-- Whether it still holds the transport's end for opening streams. -/
  canSend : Bool := true
  /-- The transport has said that it takes a stream, and none has been written since. -/
  ready : Bool := false
  /-- The pool has been told that the connection takes no streams for now. -/
  blocked : Bool := false
  /-- What the pool has handed over. -/
  commands : List Dispatch := []
  commandsOpen : Bool := true
  streams : OpenStreams := {}
  /-- The streams whose answers are waited for. -/
  inFlight : List Nat := []
  /-- Refused notifications that are to be written again. -/
  retries : List Dispatch := []
  token : Option TokenKeeper
  lastActivity : Moment
  watchesTransport : Bool := true
  watchesPing : Bool := true

/-- What the transport says when it is asked for room for a stream. -/
inductive Readiness where
  | ready
  | pending
  | failed
deriving DecidableEq, Repr

/-- What the transport says to a request. -/
inductive WriteAnswer where
  | opened (stream : Nat)
  | refused (cause : String)
  /-- The stream was opened but the payload could not be sent. -/
  | payloadLost (stream : Nat) (cause : String)
deriving DecidableEq, Repr

inductive StreamResult where
  | reply (r : Reply)
  /-- The gateway has reset the stream. -/
  | reset (code : Nat)
  /-- The gateway has announced that it will not process the stream. -/
  | goneAway
  /-- The connection has failed or was closed. -/
  | lost
deriving DecidableEq, Repr

inductive ConnectionInput where
  | readiness (r : Readiness)
  /-- Write the next of the refused notifications. -/
  | retry (a : WriteAnswer)
  /-- Write the next of the pool's notifications. -/
  | command (a : WriteAnswer)
  /-- The pool has let go of the connection. -/
  | abandoned
  | result (stream : Nat) (r : StreamResult)
  | transportEnded
  | pingFailed
  /-- The client is closing. -/
  | shutdown (deadline : Moment)
  | tokenExpired
  | drainDeadline
  /-- Nothing is left to do. -/
  | finish
deriving DecidableEq, Repr

inductive ConnectionAction where
  | tell (m : PoolMessage)
  | report (r : Report)
  /-- A request has been put on a stream. -/
  | opened (stream : Nat) (p : Dispatch) (r : Request)
deriving DecidableEq, Repr

namespace Connection

abbrev Effect := Connection × List ConnectionAction

def start (s : ConnectionSettings) (id : Nat) (time : Moment) : Connection where
  id := id
  token := s.signingKey.map fun k => { key := k, lifetime := s.tokenLifetime }
  lastActivity := time

def isConnected (c : Connection) : Bool :=
  c.phase == .connected

def accepting (c : Connection) : Bool :=
  c.isConnected && c.canSend

def isDone (c : Connection) : Bool :=
  match c.phase with
  | .connected => false
  | .draining _ => c.inFlight.isEmpty
  | .closed => true

def resubmit (ps : List Dispatch) : List ConnectionAction :=
  ps.map fun p => .tell (.resubmit p)

def reports (rs : List Report) : List ConnectionAction :=
  rs.map .report

/-- Stops taking work: tells the pool and hands back what is not yet written. A connection that
drains already only moves its deadline, and never to a later time. -/
def drainUntil (deadline : Moment) (c : Connection) : Effect :=
  match c.phase with
  | .connected =>
    ({ c with
        phase := .draining deadline, canSend := false, ready := false
        commands := [], commandsOpen := false, retries := [] },
      .tell (.draining c.id) :: resubmit (c.commands ++ c.retries))
  | .draining current =>
    (if deadline < current then { c with phase := .draining deadline } else c, [])
  | .closed => (c, [])

def drain (s : ConnectionSettings) (time : Moment) (c : Connection) : Effect :=
  c.drainUntil (Moment.after time s.gracePeriod)

def andThen (o : Effect) (f : Connection → Effect) : Effect :=
  let (c, as) := f o.1
  (c, o.2 ++ as)

def onReadiness (s : ConnectionSettings) (time : Moment) (r : Readiness) (c : Connection) :
    Effect :=
  match r with
  | .ready =>
    ({ c with ready := true, blocked := false },
      if c.blocked then [.tell (.writabilityChanged c.id true)] else [])
  | .pending =>
    ({ c with blocked := true },
      if c.blocked then [] else [.tell (.writabilityChanged c.id false)])
  | .failed => c.drain s time

def authorization (now : Present) (c : Connection) :
    Except TokenError (Option (List Char) × Connection) :=
  match c.token with
  | none => .ok (none, c)
  | some keeper => do
    let (value, keeper) ← keeper.authorization now
    return (some value, { c with token := some keeper })

def request (s : ConnectionSettings) (now : Present) (p : Dispatch) (c : Connection) :
    Except String Request × Connection :=
  match c.authorization now with
  | .error e => (.error (e.message?.getD ""), c)
  | .ok (value, c) =>
    (match Request.build s.scheme s.authority p.notification (value.map String.ofList) with
      | .ok r => .ok r
      | .error e => .error ("invalid request: " ++ e.message), c)

def register (stream : Nat) (p : Dispatch) (r : Request) (time : Moment) (c : Connection) :
    Effect :=
  let (p, sent) := p.markSent
  let c := { c with lastActivity := time }
  match c.streams.register? stream p with
  | some k =>
    ({ c with streams := k, inFlight := c.inFlight ++ [stream] },
      .opened stream p r :: reports sent)
  | none =>
    (c, .opened stream p r :: reports (sent ++
      [p.fail (.writeFailed ("stream id " ++ Text.Decimal.ofNat stream ++ " already in use"))]))

/-- Writes a notification. One that cannot be written is failed and not registered; without the
transport's end it goes back. -/
def write (s : ConnectionSettings) (now : Present) (a : WriteAnswer) (p : Dispatch)
    (c : Connection) : Effect :=
  match { c with ready := false }.request s now p with
  | (.error cause, c) => (c, [.report (p.fail (.writeFailed cause))])
  | (.ok r, c) =>
    if !c.canSend then (c, resubmit [p])
    else match a with
    | .opened stream => c.register stream p r now.time
    | .refused cause => andThen (c, [.report (p.fail (.writeFailed cause))]) (drain s now.time)
    | .payloadLost stream cause => (c, [.opened stream p r, .report (p.fail (.writeFailed cause))])

def forget (stream : Nat) (c : Connection) : Connection :=
  { c with inFlight := c.inFlight.filter (· != stream) }

def resolve (stream : Nat) (how : Dispatch → Report) (c : Connection) : Effect :=
  let (rs, k) := c.streams.resolve stream how
  ({ c with streams := k }, reports rs)

def takeDispatch (stream : Nat) (c : Connection) : Option Dispatch × Connection :=
  let (p, k) := c.streams.take stream
  (p, { c with streams := k })

/-- An expired token ends the connection. Its notification is sent once more over another one, if
the settings want that. -/
def onExpiredToken (s : ConnectionSettings) (time : Moment) (stream status : Nat)
    (apnsId : Option Uuid) (timestamp : Option Instant) (c : Connection) : Effect :=
  andThen ({ c with token := c.token.map TokenKeeper.invalidate }.drain s time) fun c =>
    match c.takeDispatch stream with
    | (none, c) => (c, [])
    | (some p, c) =>
      match if s.retryExpiredTokens then p.claimExpired? else none with
      | some q => (c, resubmit [q])
      | none => (c, [.report (p.answer status apnsId
          (.rejected (some .expiredProviderToken) timestamp))])

def onReply (s : ConnectionSettings) (time : Moment) (stream : Nat) (r : Reply)
    (c : Connection) : Effect :=
  match r.verdict with
  | .accepted status apnsId uniqueId =>
    c.resolve stream fun p => p.answer status apnsId (.accepted uniqueId)
  | .rejected status apnsId (some .expiredProviderToken) timestamp =>
    c.onExpiredToken s time stream status apnsId timestamp
  | .rejected status apnsId reason timestamp =>
    let o := c.resolve stream fun p => p.answer status apnsId (.rejected reason timestamp)
    if reason.any Rejection.closesConnection then andThen o (drain s time) else o
  | .internalError status reason =>
    andThen (c.resolve stream fun p => p.fail (.internalServerError status reason)) (drain s time)

/-- The code with which a gateway refuses a stream before it has looked at it. -/
def refusedCode : Nat := 7

/-- A refused notification is written once more on this connection, as long as it takes work. -/
def onRefused (stream : Nat) (c : Connection) : Effect :=
  match c.takeDispatch stream with
  | (none, c) => (c, [])
  | (some p, c) =>
    match if c.accepting then p.claimRefused? else none with
    | some q => ({ c with retries := c.retries ++ [q] }, [])
    | none => (c, [.report (p.fail .notProcessed)])

def onResult (s : ConnectionSettings) (time : Moment) (stream : Nat) (r : StreamResult)
    (c : Connection) : Effect :=
  let c := { c.forget stream with lastActivity := time }
  match r with
  | .reply r => c.onReply s time stream r
  | .reset code =>
    if code = refusedCode then c.onRefused stream
    else c.resolve stream fun p => p.fail .streamClosed
  | .goneAway => andThen (c.resolve stream fun p => p.fail .notProcessed) (drain s time)
  | .lost => c.resolve stream fun p => p.fail .streamClosed

/-- The end: what was not answered is failed, what was not written goes back. -/
def finish (c : Connection) : Effect :=
  let (rs, k) := c.streams.drain
  ({ c with
      phase := .closed, canSend := false, ready := false, inFlight := [], streams := k
      commands := [], commandsOpen := false, retries := [] },
    reports rs ++ resubmit (c.commands ++ c.retries) ++ [.tell (.closed c.id)])

def held (c : Connection) : List Dispatch :=
  c.commands ++ c.retries ++ c.streams.slots.map Prod.snd

def abort (c : Connection) : List Report :=
  c.held.map Dispatch.drop

def takeCommand (p : Dispatch) (c : Connection) : Connection :=
  { c with commands := c.commands ++ [p] }

def mayRetry (c : Connection) : Bool :=
  c.accepting && c.ready && !c.retries.isEmpty

def mayWrite (c : Connection) : Bool :=
  c.accepting && c.ready && c.retries.isEmpty

def listens (c : Connection) : Bool :=
  !c.isDone && !c.mayRetry

/-- Whether an input can come next. Before anything else a connection that is done is finished and
refused notifications are written again, as soon as there is room. -/
def awaits (time : Moment) (c : Connection) : ConnectionInput → Bool
  | .finish => c.isDone
  | .readiness _ => c.accepting && !c.ready
  | .retry _ => c.mayRetry
  | .command _ => c.mayWrite && !c.commands.isEmpty
  | .abandoned => c.mayWrite && c.commands.isEmpty
  | .result stream _ => c.listens && c.inFlight.contains stream
  | .transportEnded => c.listens && c.watchesTransport
  | .pingFailed => c.listens && c.watchesPing
  | .shutdown _ => c.listens && c.accepting
  | .tokenExpired => c.listens && ((c.token.bind TokenKeeper.expiresAt?).any fun t => t ≤ time)
  | .drainDeadline =>
    match c.phase with
    | .draining deadline => c.listens && deadline ≤ time
    | _ => false

/-- One step, for an input that is awaited. -/
def step (s : ConnectionSettings) (now : Present) (c : Connection) : ConnectionInput → Effect
  | .readiness r => c.onReadiness s now.time r
  | .retry a =>
    match c.retries with
    | [] => (c, [])
    | p :: rest => { c with retries := rest }.write s now a p
  | .command a =>
    match c.commands with
    | [] => (c, [])
    | p :: rest => { c with commands := rest }.write s now a p
  | .abandoned => c.drain s now.time
  | .result stream r => c.onResult s now.time stream r
  | .transportEnded => { c with watchesTransport := false }.drain s now.time
  | .pingFailed => { c with watchesPing := false }.drain s now.time
  | .shutdown deadline => c.drainUntil deadline
  | .tokenExpired => ({ c with token := c.token.map TokenKeeper.invalidate }, [])
  | .drainDeadline | .finish => c.finish

end Connection

end PushDelivery
