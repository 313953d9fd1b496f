import PushDelivery.Client.OpenStreams

namespace PushDelivery.OpenStreams

structure Session where
  streams : OpenStreams := {}
  /-- The notifications that are neither in a slot nor resolved. -/
  held : List Dispatch := []
  /-- The notifications whose outcome somebody waits for. -/
  waiting : List (Nat × Notification) := []

inductive Call where
  | submit (id : Nat) (n : Notification)
  /-- A refused notification is dropped unless the caller keeps it. -/
  | register (stream id : Nat) (keep : Bool)
  | take (stream : Nat)
  | answer (stream status : Nat) (apnsId : Option Uuid) (d : Decision)
  | fail (stream : Nat) (e : SendError)
  | drain
  | markSent (id : Nat)
  | claimExpired (id : Nat)
  | claimRefused (id : Nat)
  | completeAnswered (id status : Nat) (apnsId : Option Uuid) (d : Decision)
  | completeFailed (id : Nat) (e : SendError)
  | drop (id : Nat)
  /-- Stops waiting for an outcome. -/
  | forget (id : Nat)

inductive CallAnswer where
  | nothing
  | notHeld
  | registered
  | reused (stream id : Nat)
  | flag (b : Bool)
  | taken (id : Option Nat)
  | count (n : Nat)
deriving DecidableEq, Repr

namespace Session

def find? (id : Nat) (s : Session) : Option Dispatch :=
  s.held.find? fun p => p.id == id

def without (id : Nat) (s : Session) : Session :=
  { s with held := s.held.filter fun p => p.id != id }

def hold (p : Dispatch) (s : Session) : Session :=
  { s.without p.id with held := p :: (s.without p.id).held }

def withHeld (id : Nat) (s : Session)
    (use : Dispatch → CallAnswer × List Report × Session) :
    CallAnswer × List Report × Session :=
  match s.find? id with
  | none => (.notHeld, [], s)
  | some p => use p

def complete (id : Nat) (s : Session) (how : Dispatch → Report) :
    CallAnswer × List Report × Session :=
  s.withHeld id fun p => (.nothing, [how p], s.without id)

def claim (id : Nat) (s : Session) (use? : Dispatch → Option Dispatch) :
    CallAnswer × List Report × Session :=
  s.withHeld id fun p =>
    match use? p with
    | none => (.flag false, [], s)
    | some q => (.flag true, [], s.hold q)

def call (s : Session) : Call → CallAnswer × List Report × Session
  | .submit id n =>
    (.nothing, ((s.find? id).map Dispatch.drop).toList, s.hold ⟨id, n, false, false, false⟩)
  | .register stream id keep => s.withHeld id fun p =>
    match s.streams.register? stream p with
    | some c => (.registered, [], { s.without id with streams := c })
    | none =>
      if keep then (.reused stream id, [], s) else (.reused stream id, [p.drop], s.without id)
  | .take stream =>
    let (p, c) := s.streams.take stream
    let s := { s with streams := c }
    (.taken (p.map Dispatch.id), [], (p.map s.hold).getD s)
  | .answer stream status apnsId d =>
    let (rs, c) := s.streams.answer stream status apnsId d
    (.flag (s.streams.get? stream).isSome, rs, { s with streams := c })
  | .fail stream e =>
    let (rs, c) := s.streams.fail stream e
    (.flag (s.streams.get? stream).isSome, rs, { s with streams := c })
  | .drain =>
    let (rs, c) := s.streams.drain
    (.count s.streams.size, rs, { s with streams := c })
  | .markSent id => s.withHeld id fun p =>
    let (p, rs) := p.markSent
    (.nothing, rs, s.hold p)
  | .claimExpired id => s.claim id Dispatch.claimExpired?
  | .claimRefused id => s.claim id Dispatch.claimRefused?
  | .completeAnswered id status apnsId d => s.complete id fun p => p.answer status apnsId d
  | .completeFailed id e => s.complete id fun p => p.fail e
  | .drop id => s.complete id Dispatch.drop
  | .forget id => (.flag (s.waiting.any fun w => w.1 == id), [], s)

/-- The outcomes among some reports that somebody has been waiting for. -/
def outcomes (s : Session) (reports : List Report) : List (Nat × Outcome) :=
  (reports.filterMap Report.resolution?).filter fun r => s.waiting.any fun w => w.1 == r.1

/-- Who waits after a call. A new notification is waited for, a resolved one no longer. -/
def waitingAfter (s : Session) (c : Call) (reports : List Report) : List (Nat × Notification) :=
  let rest := s.waiting.filter fun w => !((s.outcomes reports).any fun r => r.1 == w.1)
  match c with
  | .submit id n => (id, n) :: rest.filter fun w => w.1 != id
  | .forget id => rest.filter fun w => w.1 != id
  | _ => rest

def step (s : Session) (c : Call) : CallAnswer × List Report × Session :=
  let (a, rs, t) := s.call c
  (a, rs, { t with waiting := s.waitingAfter c rs })

end Session

end PushDelivery.OpenStreams
