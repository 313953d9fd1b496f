import PushDelivery.Proofs.ConnectionStep

namespace PushDelivery

namespace Connection

variable {s : ConnectionSettings} {now : Present} {c d : Connection} {i : ConnectionInput}

theorem connected_of_accepting (h : c.accepting = true) : c.phase = .connected := by
  have hconnected := (Bool.and_eq_true_iff.mp h).1
  simpa [isConnected] using hconnected

theorem canSend_of_accepting (h : c.accepting = true) : c.canSend = true :=
  (Bool.and_eq_true_iff.mp h).2

theorem accepting_of_writes {t : Moment} {a : WriteAnswer} (hi : i = .retry a ∨ i = .command a)
    (h : c.awaits t i = true) : c.accepting = true := by
  rcases hi with rfl | rfl
  · simp only [awaits, mayRetry, Bool.and_eq_true] at h
    exact h.1.1
  · simp only [awaits, mayWrite, Bool.and_eq_true] at h
    exact h.1.1.1

/-- What is done about the notification of a stream that has ended. -/
inductive Concludes (s : ConnectionSettings) (time : Moment) (stream : Nat) (c : Connection) :
    Effect → Prop
  | resolves (how : Dispatch → Report) : Concludes s time stream c (c.resolve stream how)
  | drains (how : Dispatch → Report) :
      Concludes s time stream c (andThen (c.resolve stream how) (drain s time))
  | expires (status : Nat) (apnsId : Option Uuid) (timestamp : Option Instant) :
      Concludes s time stream c (c.onExpiredToken s time stream status apnsId timestamp)
  | refuses : Concludes s time stream c (c.onRefused stream)

/-- Whatever the result of a stream, the connection does not wait for it any more. -/
theorem result_cases (time : Moment) (stream : Nat) (r : StreamResult) (c : Connection) :
    Concludes s time stream { c.forget stream with lastActivity := time }
      (c.onResult s time stream r) := by
  unfold onResult
  dsimp only
  cases r with
  | reply r =>
    dsimp only [onReply]
    split
    · exact .resolves _
    · exact .expires _ _ _
    · split
      · exact .drains _
      · exact .resolves _
    · exact .drains _
  | reset code =>
    dsimp only
    split
    · exact .refuses
    · exact .resolves _
  | goneAway => exact .drains _
  | lost => exact .resolves _

/-- What a step that is not the last can make of a connection, one change after the other. -/
inductive Becomes (s : ConnectionSettings) (now : Present) (c : Connection) (i : ConnectionInput) :
    Connection → Prop
  | nothing : Becomes s now c i c
  | notes {d e : Connection} (before : Becomes s now c i d) (streams : e.streams = d.streams)
      (flight : e.inFlight = d.inFlight) (phase : e.phase = d.phase)
      (token : e.token = d.token ∨ e.token = d.token.map TokenKeeper.invalidate) :
      Becomes s now c i e
  | asks {d : Connection} (p : Dispatch) (before : Becomes s now c i d)
      (token : d.token = c.token) (writes : ∃ a, i = .retry a ∨ i = .command a) :
      Becomes s now c i (d.request s now p).2
  | registers {d : Connection} (n : Nat) (p : Dispatch) (r : Request)
      (before : Becomes s now c i d) : Becomes s now c i (d.register n p r now.time).1
  | forgets {d : Connection} (n : Nat) (before : Becomes s now c i d) :
      Becomes s now c i (d.forget n)
  | erases {d : Connection} (n : Nat) (before : Becomes s now c i d) :
      Becomes s now c i { d with streams := d.streams.erase n }
  | drains {d : Connection} (t : Moment) (before : Becomes s now c i d) :
      Becomes s now c i (d.drainUntil t).1

theorem write_becomes (h : Becomes s now c i d) (ht : d.token = c.token) (a : WriteAnswer)
    (hi : i = .retry a ∨ i = .command a) (p : Dispatch) :
    Becomes s now c i (d.write s now a p).1 := by
  have hasks : Becomes s now c i ({ d with ready := false }.request s now p).2 :=
    .asks p (h.notes rfl rfl rfl (.inl rfl)) ht ⟨a, hi⟩
  unfold write
  split
  · rename_i cause e he
    rw [he] at hasks
    exact hasks
  · rename_i r e he
    rw [he] at hasks
    split
    · exact hasks
    · cases a with
      | opened n => exact hasks.registers n p r
      | refused cause => exact hasks.drains _
      | payloadLost n cause => exact hasks

theorem onExpiredToken_frame (time : Moment) (stream status : Nat) (apnsId : Option Uuid)
    (timestamp : Option Instant) (c : Connection) :
    (c.onExpiredToken s time stream status apnsId timestamp).1 =
      (let d := ({ c with token := c.token.map TokenKeeper.invalidate }.drain s time).1
       { d with streams := d.streams.erase stream }) := by
  unfold onExpiredToken andThen takeDispatch OpenStreams.take
  dsimp only
  split
  · rename_i he
    obtain ⟨-, rfl⟩ := Prod.mk.inj he
    rfl
  · rename_i he
    obtain ⟨-, rfl⟩ := Prod.mk.inj he
    split <;> rfl

theorem onRefused_frame (stream : Nat) (c : Connection) :
    ∃ retries, (c.onRefused stream).1 =
      { c with streams := c.streams.erase stream, retries := retries } := by
  unfold onRefused takeDispatch OpenStreams.take
  dsimp only
  split
  · rename_i he
    obtain ⟨-, rfl⟩ := Prod.mk.inj he
    exact ⟨c.retries, rfl⟩
  · rename_i he
    obtain ⟨-, rfl⟩ := Prod.mk.inj he
    split
    · exact ⟨_, rfl⟩
    · exact ⟨c.retries, rfl⟩

theorem onResult_becomes (stream : Nat) (r : StreamResult) :
    Becomes s now c i (c.onResult s now.time stream r).1 := by
  have hforgot : Becomes s now c i { c.forget stream with lastActivity := now.time } :=
    .notes (.forgets stream .nothing) rfl rfl rfl (.inl rfl)
  have herased := hforgot.erases stream
  have hresult := result_cases (s := s) now.time stream r c
  generalize c.onResult s now.time stream r = o at hresult ⊢
  cases hresult with
  | resolves how => exact herased
  | drains how => exact herased.drains _
  | expires status apnsId timestamp =>
    rw [onExpiredToken_frame]
    have hdropped : Becomes s now c i { c.forget stream with
        lastActivity := now.time, token := c.token.map TokenKeeper.invalidate } :=
      hforgot.notes rfl rfl rfl (.inr rfl)
    exact (hdropped.drains _).erases stream
  | refuses =>
    obtain ⟨retries, hr⟩ :=
      onRefused_frame stream { c.forget stream with lastActivity := now.time }
    rw [hr]
    exact herased.notes rfl rfl rfl (.inl rfl)

theorem step_becomes (now : Present) (c : Connection) (i : ConnectionInput) :
    (c.step s now i).1 = c.finish.1 ∨ Becomes s now c i (c.step s now i).1 := by
  have hnotes {d : Connection} (hs : d.streams = c.streams) (hf : d.inFlight = c.inFlight)
      (hp : d.phase = c.phase) (ht : d.token = c.token) : Becomes s now c i d :=
    .notes .nothing hs hf hp (.inl ht)
  unfold step
  cases i with
  | drainDeadline | finish => exact .inl rfl
  | readiness r =>
    right
    cases r with
    | failed => exact .drains _ .nothing
    | _ => exact hnotes rfl rfl rfl rfl
  | retry a =>
    right
    dsimp only
    split
    · exact .nothing
    · rename_i p rest _
      have h : Becomes s now c (.retry a) { c with retries := rest } := hnotes rfl rfl rfl rfl
      exact write_becomes h rfl a (.inl rfl) p
  | command a =>
    right
    dsimp only
    split
    · exact .nothing
    · rename_i p rest _
      have h : Becomes s now c (.command a) { c with commands := rest } := hnotes rfl rfl rfl rfl
      exact write_becomes h rfl a (.inr rfl) p
  | result stream r => exact .inr (onResult_becomes stream r)
  | abandoned | shutdown deadline => exact .inr (.drains _ .nothing)
  | transportEnded =>
    have h : Becomes s now c .transportEnded { c with watchesTransport := false } :=
      hnotes rfl rfl rfl rfl
    exact .inr (h.drains _)
  | pingFailed =>
    have h : Becomes s now c .pingFailed { c with watchesPing := false } := hnotes rfl rfl rfl rfl
    exact .inr (h.drains _)
  | tokenExpired => exact .inr (.notes .nothing rfl rfl rfl (.inr rfl))

/-- A phase after another, before the end: a connection may start to drain but not stop. -/
def Fades (before after : ConnectionPhase) : Prop :=
  after = before ∨ ∃ t, after = .draining t

theorem drainUntil_fades {p : ConnectionPhase} (hp : Fades p c.phase) (t : Moment) :
    Fades p (c.drainUntil t).1.phase := by
  unfold drainUntil
  split
  · exact .inr ⟨t, rfl⟩
  · split
    · exact .inr ⟨t, rfl⟩
    · exact hp
  · exact hp

theorem register_phase (stream : Nat) (p : Dispatch) (r : Request) (time : Moment)
    (c : Connection) : (c.register stream p r time).1.phase = c.phase := by
  unfold register
  dsimp only
  split <;> rfl

/-- Of all changes only a drain is one of the phase. -/
theorem Becomes.phase_of_drains {P : ConnectionPhase → Prop} (h : Becomes s now c i d)
    (start : P c.phase) (drains : ∀ (d : Connection) t, P d.phase → P (d.drainUntil t).1.phase) :
    P d.phase := by
  induction h with
  | nothing => exact start
  | notes _ _ _ hp _ ih =>
    rw [hp]
    exact ih
  | @asks d p _ _ _ ih =>
    obtain ⟨token, hf⟩ := request_frame (s := s) now p d
    rw [hf]
    exact ih
  | registers n p r _ ih =>
    rw [register_phase]
    exact ih
  | forgets _ _ ih | erases _ _ ih => exact ih
  | drains t _ ih => exact drains _ t ih

theorem Becomes.fades (h : Becomes s now c i d) : Fades c.phase d.phase :=
  h.phase_of_drains (.inl rfl) fun _ t hp => drainUntil_fades hp t

/-- A step only ever brings a connection nearer to its end, and at the end it holds nothing. -/
theorem step_fades (now : Present) (c : Connection) (i : ConnectionInput) :
    Fades c.phase (c.step s now i).1.phase ∨
      ((c.step s now i).1.phase = .closed ∧ (c.step s now i).1.holdings = 0) := by
  rcases step_becomes (s := s) now c i with h | h
  · rw [h]
    exact .inr ⟨rfl, rfl⟩
  · exact .inl h.fades

/-- Streams of a connection later: those that are open were open or are new, and numbered higher. -/
structure Rises (c d : Connection) : Prop where
  highest : c.streams.highest ≤ d.streams.highest
  flight : ∀ n ∈ d.inFlight, n ∈ c.inFlight ∨ c.streams.highest < n ∧ n ≤ d.streams.highest

theorem Rises.of_same {d : Connection} (hs : d.streams.highest = c.streams.highest)
    (hf : ∀ n ∈ d.inFlight, n ∈ c.inFlight) : c.Rises d :=
  ⟨le_of_eq hs.symm, fun n hn => .inl (hf n hn)⟩

theorem Rises.trans {e : Connection} (h : c.Rises d) (h' : d.Rises e) : c.Rises e := by
  refine ⟨Nat.le_trans h.highest h'.highest, fun n hn => ?_⟩
  have hle := h.highest
  have hle' := h'.highest
  rcases h'.flight n hn with hn | ⟨hlt, hn⟩
  · exact (h.flight n hn).imp_right fun ⟨hlt, hn⟩ => ⟨hlt, by omega⟩
  · exact .inr ⟨by omega, hn⟩

theorem register_rises (stream : Nat) (p : Dispatch) (r : Request) (time : Moment)
    (c : Connection) : c.Rises (c.register stream p r time).1 := by
  unfold register
  dsimp only
  split
  · rename_i k hk
    obtain ⟨hlt, rfl⟩ := OpenStreams.register?_eq_some hk
    refine ⟨Nat.le_of_lt hlt, fun n hn => ?_⟩
    rcases List.mem_append.mp hn with hn | hn
    · exact .inl hn
    · obtain rfl := List.mem_singleton.mp hn
      exact .inr ⟨hlt, Nat.le_refl _⟩
  · exact .of_same rfl fun _ h => h

theorem Becomes.rises (h : Becomes s now c i d) : c.Rises d := by
  induction h with
  | nothing => exact .of_same rfl fun _ h => h
  | notes _ hs hf _ _ ih =>
    exact ih.trans (.of_same (congrArg OpenStreams.highest hs) fun n hn => hf ▸ hn)
  | @asks d p _ _ _ ih =>
    obtain ⟨token, hf⟩ := request_frame (s := s) now p d
    rw [hf]
    exact ih.trans (.of_same rfl fun _ h => h)
  | registers n p r _ ih => exact ih.trans (register_rises n p r now.time _)
  | forgets n _ ih => exact ih.trans (.of_same rfl fun _ h => List.mem_of_mem_filter h)
  | erases n _ ih => exact ih.trans (.of_same rfl fun _ h => h)
  | drains t _ ih =>
    obtain ⟨hs, hf⟩ := drainUntil_streams t _
    exact ih.trans (.of_same (congrArg OpenStreams.highest hs) fun n hn => hf ▸ hn)

theorem step_rises (now : Present) (c : Connection) (i : ConnectionInput) :
    c.Rises (c.step s now i).1 := by
  rcases step_becomes (s := s) now c i with h | h
  · rw [h]
    exact .of_same rfl fun n hn => absurd hn List.not_mem_nil
  · exact h.rises

theorem onResult_streams (time : Moment) (stream : Nat) (r : StreamResult) (c : Connection) :
    (c.onResult s time stream r).1.streams = c.streams.erase stream ∧
      (c.onResult s time stream r).1.inFlight = c.inFlight.filter (· != stream) := by
  have hresult := result_cases (s := s) time stream r c
  generalize c.onResult s time stream r = o at hresult ⊢
  cases hresult with
  | resolves how => exact ⟨rfl, rfl⟩
  | drains how => exact drainUntil_streams _ _
  | expires status apnsId timestamp =>
    rw [onExpiredToken_frame]
    obtain ⟨hs, hf⟩ := drainUntil_streams (Moment.after time s.gracePeriod)
      { c.forget stream with
        lastActivity := time, token := c.token.map TokenKeeper.invalidate }
    exact ⟨congrArg (OpenStreams.erase stream) hs, hf⟩
  | refuses =>
    obtain ⟨retries, hr⟩ := onRefused_frame stream { c.forget stream with lastActivity := time }
    rw [hr]
    exact ⟨rfl, rfl⟩

end Connection

end PushDelivery
