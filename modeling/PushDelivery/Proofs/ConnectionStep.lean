import PushDelivery.Proofs.OpenStreams
import PushDelivery.Proofs.Passage

namespace PushDelivery

namespace ConnectionAction

def report? : ConnectionAction → Option Report
  | report r => some r
  | _ => none

/-- The notification that an action hands back to the pool. -/
def returned? : ConnectionAction → Option Dispatch
  | tell (.resubmit p) => some p
  | _ => none

end ConnectionAction

namespace Connection

def reported (as : List ConnectionAction) : List Report :=
  as.filterMap ConnectionAction.report?

def returned (as : List ConnectionAction) : List Dispatch :=
  as.filterMap ConnectionAction.returned?

@[simp] theorem reported_append (as bs : List ConnectionAction) :
    reported (as ++ bs) = reported as ++ reported bs :=
  List.filterMap_append

@[simp] theorem returned_append (as bs : List ConnectionAction) :
    returned (as ++ bs) = returned as ++ returned bs :=
  List.filterMap_append

@[simp] theorem reported_opened (stream : Nat) (p : Dispatch) (r : Request)
    (as : List ConnectionAction) : reported (.opened stream p r :: as) = reported as := rfl

@[simp] theorem returned_opened (stream : Nat) (p : Dispatch) (r : Request)
    (as : List ConnectionAction) : returned (.opened stream p r :: as) = returned as := rfl

@[simp] theorem reported_reports (rs : List Report) : reported (reports rs) = rs := by
  induction rs with
  | nil => rfl
  | cons r rs ih => exact congrArg (r :: ·) ih

@[simp] theorem returned_reports (rs : List Report) : returned (reports rs) = [] := by
  induction rs with
  | nil => rfl
  | cons r rs ih => exact ih

@[simp] theorem reported_resubmit (ps : List Dispatch) : reported (resubmit ps) = [] := by
  induction ps with
  | nil => rfl
  | cons p ps ih => exact ih

@[simp] theorem returned_resubmit (ps : List Dispatch) : returned (resubmit ps) = ps := by
  induction ps with
  | nil => rfl
  | cons p ps ih => exact congrArg (p :: ·) ih

/-- The open streams are those whose answers are waited for. -/
structure Orderly (c : Connection) : Prop where
  flight : c.inFlight = c.streams.slots.map Prod.fst
  streams : c.streams.Orderly

/-- What a step of a connection does to the notifications that it starts with: it holds them
afterwards, hands them back, or reports on them. -/
structure Passes (s : ConnectionSettings) (m : Move) (id : Nat) (A : Multiset Holding)
    (o : Effect) : Prop where
  same : o.1.id = id
  orderly : o.1.Orderly
  passage : Passage s m A ↑(reported o.2) (o.1.holdings + unwritten (returned o.2))
  returns : ∀ p, .tell (.submit p) ∉ o.2

variable {s : ConnectionSettings} {m : Move} {c : Connection}

theorem start_orderly (s : ConnectionSettings) (id : Nat) (time : Moment) :
    (start s id time).Orderly :=
  ⟨rfl, by simp [start], by simp [start]⟩

theorem drainUntil_id (t : Moment) (c : Connection) : (c.drainUntil t).1.id = c.id := by
  unfold drainUntil
  split
  · rfl
  · split <;> rfl
  · rfl

theorem drainUntil_streams (t : Moment) (c : Connection) :
    (c.drainUntil t).1.streams = c.streams ∧ (c.drainUntil t).1.inFlight = c.inFlight := by
  unfold drainUntil
  split
  · exact ⟨rfl, rfl⟩
  · split <;> exact ⟨rfl, rfl⟩
  · exact ⟨rfl, rfl⟩

theorem drainUntil_reported (t : Moment) (c : Connection) : reported (c.drainUntil t).2 = [] := by
  unfold drainUntil
  split
  · exact reported_resubmit _
  · rfl
  · rfl

theorem drainUntil_returns (t : Moment) (c : Connection) (p : Dispatch) :
    .tell (.submit p) ∉ (c.drainUntil t).2 := by
  unfold drainUntil
  split <;> simp [resubmit]

/-- A drain lets go of nothing: what is not kept is handed back. -/
theorem drainUntil_holdings (t : Moment) (c : Connection) :
    (c.drainUntil t).1.holdings + unwritten (returned (c.drainUntil t).2) = c.holdings := by
  unfold drainUntil
  split
  · have hr : returned (.tell (.draining c.id) :: resubmit (c.commands ++ c.retries)) =
        c.commands ++ c.retries := returned_resubmit _
    rw [hr]
    simp only [holdings, unwritten_append, unwritten_nil]
    abel
  · split <;> exact add_zero _
  · exact add_zero _

theorem Orderly.drainUntil (hc : c.Orderly) (t : Moment) : (c.drainUntil t).1.Orderly := by
  obtain ⟨hs, hf⟩ := drainUntil_streams t c
  constructor
  · rw [hs, hf]
    exact hc.flight
  · rw [hs]
    exact hc.streams

theorem Passes.of_stay {o : Effect} (hc : o.1.Orderly) (hr : reported o.2 = [])
    (hb : returned o.2 = []) (hn : ∀ p, .tell (.submit p) ∉ o.2) :
    Passes s m o.1.id o.1.holdings o where
  same := rfl
  orderly := hc
  passage := by
    rw [hr, hb, unwritten_nil, add_zero]
    exact Passage.stay o.1.holdings
  returns := hn

theorem Passes.of_one {o : Effect} {h : Holding} {rs : List Report} (hc : o.1.Orderly)
    (hop : Hop s m h ↑rs none) (hr : reported o.2 = rs) (hb : returned o.2 = [])
    (hn : ∀ p, .tell (.submit p) ∉ o.2) : Passes s m o.1.id (h ::ₘ o.1.holdings) o where
  same := rfl
  orderly := hc
  passage := by
    have hp := Passage.hop hop (Passage.stay o.1.holdings)
    rw [hr, hb]
    simpa [Holding.left] using hp
  returns := hn

theorem Passes.then_drainUntil {id : Nat} {A : Multiset Holding} {o : Effect}
    (h : Passes s m id A o) (t : Moment) :
    Passes s m id A (andThen o (Connection.drainUntil t)) where
  same := (drainUntil_id t o.1).trans h.same
  orderly := h.orderly.drainUntil t
  passage := by
    change Passage s m A ↑(reported (o.2 ++ (o.1.drainUntil t).2))
      ((o.1.drainUntil t).1.holdings + unwritten (returned (o.2 ++ (o.1.drainUntil t).2)))
    have hp := h.passage
    rw [← drainUntil_holdings t o.1, add_assoc, ← unwritten_append] at hp
    rw [reported_append, drainUntil_reported, List.append_nil, returned_append]
    convert hp using 2
    rw [unwritten_append, unwritten_append, add_comm]
  returns := by
    intro p hm
    rcases List.mem_append.mp hm with hm | hm
    · exact h.returns p hm
    · exact drainUntil_returns t o.1 p hm

/-- A step after a drain. What the drain hands back stays unwritten, whatever the step does. -/
theorem Passes.after_drainUntil {t : Moment} {o : Effect}
    (h : Passes s m c.id (c.drainUntil t).1.holdings o) :
    Passes s m c.id c.holdings (o.1, (c.drainUntil t).2 ++ o.2) where
  same := h.same
  orderly := h.orderly
  passage := by
    have hp := h.passage.add (.stay (unwritten (returned (c.drainUntil t).2)))
    rw [drainUntil_holdings, add_zero] at hp
    rw [reported_append, returned_append, unwritten_append, drainUntil_reported, List.nil_append]
    convert hp using 1
    abel
  returns := by
    intro p hm
    rcases List.mem_append.mp hm with hm | hm
    · exact drainUntil_returns t c p hm
    · exact h.returns p hm

theorem drainUntil_passes (hc : c.Orderly) (t : Moment) :
    Passes s m c.id c.holdings (c.drainUntil t) := by
  have h : Passes s m c.id c.holdings (c, []) :=
    .of_stay (o := (c, [])) hc rfl rfl (by simp)
  exact h.then_drainUntil t

theorem onReadiness_passes (hc : c.Orderly) (time : Moment) (r : Readiness) :
    Passes s m c.id c.holdings (c.onReadiness s time r) := by
  cases r with
  | ready =>
    refine .of_stay (o := c.onReadiness s time .ready) ⟨hc.flight, hc.streams⟩ ?_ ?_ ?_
    all_goals cases hb : c.blocked <;> simp [onReadiness, hb]
    all_goals rfl
  | pending =>
    refine .of_stay (o := c.onReadiness s time .pending) ⟨hc.flight, hc.streams⟩ ?_ ?_ ?_
    all_goals cases hb : c.blocked <;> simp [onReadiness, hb]
    all_goals rfl
  | failed => exact drainUntil_passes hc _

theorem authorization_frame {now : Present} {value : Option (List Char)} {d : Connection}
    (h : c.authorization now = .ok (value, d)) : ∃ token, d = { c with token := token } := by
  unfold authorization at h
  split at h
  · obtain ⟨-, rfl⟩ : none = value ∧ c = d := by simpa using h
    exact ⟨c.token, rfl⟩
  · rename_i keeper hk
    cases ha : keeper.authorization now with
    | error e => simp [ha, bind, Except.bind] at h
    | ok x =>
      obtain ⟨-, rfl⟩ : some x.1 = value ∧ { c with token := some x.2 } = d := by
        simpa [ha, bind, Except.bind, pure, Except.pure] using h
      exact ⟨some x.2, rfl⟩

theorem request_frame (now : Present) (p : Dispatch) (c : Connection) :
    ∃ token, (c.request s now p).2 = { c with token := token } := by
  unfold request
  split
  · exact ⟨c.token, rfl⟩
  · rename_i value d h
    exact authorization_frame h

/-- What a write comes to: it fails where no request can be made, it goes back where nothing is left
to write it with, and else the transport decides. The token may have changed. -/
inductive Writes (s : ConnectionSettings) (now : Present) (c : Connection) (p : Dispatch) :
    WriteAnswer → Effect → Prop
  | unmade {a : WriteAnswer} (token : Option TokenKeeper) (cause : String) :
      Writes s now c p a ({ c with ready := false, token := token },
        [.report (p.fail (.writeFailed cause))])
  | unsent {a : WriteAnswer} (token : Option TokenKeeper) (gone : c.canSend = false) :
      Writes s now c p a ({ c with ready := false, token := token }, resubmit [p])
  | opened (token : Option TokenKeeper) (stream : Nat) (r : Request) :
      Writes s now c p (.opened stream)
        ({ c with ready := false, token := token }.register stream p r now.time)
  | refused (token : Option TokenKeeper) (cause : String) :
      Writes s now c p (.refused cause) (andThen ({ c with ready := false, token := token },
        [.report (p.fail (.writeFailed cause))]) (drain s now.time))
  | payloadLost (token : Option TokenKeeper) (stream : Nat) (cause : String) (r : Request) :
      Writes s now c p (.payloadLost stream cause) ({ c with ready := false, token := token },
        [.opened stream p r, .report (p.fail (.writeFailed cause))])

theorem write_cases (now : Present) (a : WriteAnswer) (p : Dispatch) (c : Connection) :
    Writes s now c p a (c.write s now a p) := by
  obtain ⟨token, hf⟩ := request_frame (s := s) now p { c with ready := false }
  unfold write
  split
  · rename_i cause d he
    rw [he] at hf
    dsimp only at hf
    subst hf
    exact .unmade token cause
  · rename_i r d he
    rw [he] at hf
    dsimp only at hf
    subst hf
    split
    · rename_i hgone
      exact .unsent token (by simpa using hgone)
    · cases a with
      | opened stream => exact .opened token stream r
      | refused cause => exact .refused token cause
      | payloadLost stream cause => exact .payloadLost token stream cause r

theorem register_passes (hc : c.Orderly) {i : ConnectionInput} {stream : Nat}
    (hi : i.opened? = some stream) (p : Dispatch) (r : Request) (time : Moment) :
    Passes s (.connection c.id i) c.id (.unwritten p ::ₘ c.holdings)
      (c.register stream p r time) := by
  unfold register
  dsimp only
  split
  · rename_i k hk
    obtain ⟨hlt, rfl⟩ := OpenStreams.register?_eq_some hk
    refine ⟨rfl, ⟨?_, hc.streams.register hk⟩, ?_, by simp [reports]⟩
    · dsimp only
      rw [hc.flight, List.map_append]
      rfl
    · have hop : Hop s (.connection c.id i) (.unwritten p) ↑p.markSent.2
          (some (.written c.id stream p.markSent.1)) := .write c.id stream i p hi
      have hp := Passage.hop hop (Passage.stay c.holdings)
      rw [add_zero] at hp
      rw [reported_opened, reported_reports, returned_opened, returned_reports, unwritten_nil,
        add_zero]
      convert hp using 1
      simp only [holdings, OpenStreams.holdings, List.map_append, ← Multiset.coe_add,
        Holding.left]
      rw [add_comm ({_} : Multiset Holding), add_assoc (unwritten c.commands + _)]
      rfl
  · have hop : Hop s (.connection c.id i) (.unwritten p) ↑(p.markSent.2 ++
        [p.markSent.1.fail (.writeFailed
          ("stream id " ++ Text.Decimal.ofNat stream ++ " already in use"))]) none := by
      rw [← Multiset.coe_add]
      exact .misnumber c.id stream i p _ hi
    refine .of_one (o := ({ c with lastActivity := time }, _)) ⟨hc.flight, hc.streams⟩ hop ?_ ?_ ?_
    · rw [reported_opened, reported_reports]
    · rw [returned_opened, returned_reports]
    · simp [reports]

theorem write_passes (hc : c.Orderly) {i : ConnectionInput} {a : WriteAnswer}
    (hi : i = .retry a ∨ i = .command a) (now : Present) (p : Dispatch) :
    Passes s (.connection c.id i) c.id (.unwritten p ::ₘ c.holdings) (c.write s now a p) := by
  have hwrite := write_cases (s := s) now a p c
  have hd (token : Option TokenKeeper) : { c with ready := false, token := token }.Orderly :=
    ⟨hc.flight, hc.streams⟩
  have hfails (token : Option TokenKeeper) (cause : String) :
      Passes s (.connection c.id i) c.id (.unwritten p ::ₘ c.holdings)
        ({ c with ready := false, token := token }, [.report (p.fail (.writeFailed cause))]) :=
    .of_one (o := ({ c with ready := false, token := token }, _)) (hd token)
      (.fail p (.writeFailed cause) (by simp)) rfl rfl (by simp)
  generalize c.write s now a p = o at hwrite ⊢
  cases hwrite with
  | unmade token cause => exact hfails token cause
  | unsent token gone =>
    refine ⟨rfl, hd token, ?_, by simp [resubmit]⟩
    rw [reported_resubmit, returned_resubmit, unwritten_singleton, ← Multiset.singleton_add,
      add_comm]
    exact .stay (c.holdings + {.unwritten p})
  | opened token stream r =>
    have ho : i.opened? = some stream := by
      rcases hi with rfl | rfl <;> rfl
    exact register_passes (hd token) ho p r now.time
  | refused token cause => exact (hfails token cause).then_drainUntil _
  | payloadLost token stream cause r =>
    exact .of_one (o := ({ c with ready := false, token := token }, _)) (hd token)
      (.fail p (.writeFailed cause) (by simp)) rfl rfl (by simp)

/-- A connection that no longer waits for a stream which is still open. -/
structure Forgotten (stream : Nat) (c : Connection) : Prop where
  flight : c.inFlight = (c.streams.erase stream).slots.map Prod.fst
  streams : c.streams.Orderly

theorem Orderly.forget (hc : c.Orderly) (stream : Nat) (time : Moment) :
    Forgotten stream { c.forget stream with lastActivity := time } where
  flight := by
    change c.inFlight.filter _ = (c.streams.slots.filter _).map _
    rw [hc.flight, List.filter_map]
    rfl
  streams := hc.streams

theorem Forgotten.erase {stream : Nat} (hc : c.Forgotten stream) :
    { c with streams := c.streams.erase stream }.Orderly :=
  ⟨hc.flight, hc.streams.erase stream⟩

theorem Forgotten.drainUntil {stream : Nat} (hc : c.Forgotten stream) (t : Moment) :
    (c.drainUntil t).1.Forgotten stream := by
  obtain ⟨hs, hf⟩ := drainUntil_streams t c
  constructor
  · rw [hs, hf]
    exact hc.flight
  · rw [hs]
    exact hc.streams

/-- A stream that is not open has nothing to resolve. -/
theorem Forgotten.absent {stream : Nat} (hc : c.Forgotten stream)
    (hp : c.streams.get? stream = none) :
    Passes s m c.id c.holdings ({ c with streams := c.streams.erase stream }, []) := by
  have he : { c with streams := c.streams.erase stream } = c := by
    rw [OpenStreams.erase_of_absent hp]
  have ho := hc.erase
  rw [he] at ho ⊢
  exact .of_stay (o := (c, [])) ho rfl rfl (by simp)

theorem erase_holdings {stream : Nat} {p : Dispatch} (hc : c.streams.Orderly)
    (hp : c.streams.get? stream = some p) :
    c.holdings = .written c.id stream p ::ₘ
      { c with streams := c.streams.erase stream }.holdings := by
  simp only [holdings]
  rw [OpenStreams.erase_holdings hc hp, Multiset.add_cons]

/-- Whatever waits on a stream can be taken from it and reported on. -/
theorem Forgotten.one {stream : Nat} {p : Dispatch} {rs : List Report}
    (hc : c.Forgotten stream) (hp : c.streams.get? stream = some p)
    (hop : Hop s m (.written c.id stream p) ↑rs none) :
    Passes s m c.id c.holdings ({ c with streams := c.streams.erase stream }, reports rs) := by
  rw [erase_holdings hc.streams hp]
  exact .of_one (o := ({ c with streams := c.streams.erase stream }, reports rs)) hc.erase hop
    (reported_reports rs) (returned_reports rs) (by simp [reports])

/-- Whatever waits on a stream can be taken from it and handed back to the pool. -/
theorem Forgotten.back {stream : Nat} {p q : Dispatch} (hc : c.Forgotten stream)
    (hp : c.streams.get? stream = some p)
    (hop : Hop s m (.written c.id stream p) 0 (some (.unwritten q))) :
    Passes s m c.id c.holdings ({ c with streams := c.streams.erase stream }, resubmit [q]) := by
  refine ⟨rfl, hc.erase, ?_, by simp [resubmit]⟩
  have hpass := Passage.hop hop (.stay { c with streams := c.streams.erase stream }.holdings)
  rw [← erase_holdings hc.streams hp, add_zero] at hpass
  rw [reported_resubmit, returned_resubmit]
  change Passage _ _ _ 0 _
  convert hpass using 1
  rw [add_comm]
  rfl

theorem resolve_passes {stream : Nat} (hc : c.Forgotten stream) (how : Dispatch → Report)
    (hop : ∀ p, Hop s m (.written c.id stream p) {how p} none) :
    Passes s m c.id c.holdings (c.resolve stream how) := by
  unfold resolve OpenStreams.resolve
  cases hp : c.streams.get? stream with
  | none => exact hc.absent hp
  | some p => exact hc.one hp (hop p)

theorem claimExpired?_eq_some {p q : Dispatch} (h : p.claimExpired? = some q) :
    p.expiredRetried = false ∧ q = { p with expiredRetried := true } := by
  unfold Dispatch.claimExpired? at h
  split at h
  · cases h
  · rename_i hp
    exact ⟨by simpa using hp, (Option.some.inj h).symm⟩

theorem claimRefused?_eq_some {p q : Dispatch} (h : p.claimRefused? = some q) :
    p.refusedRetried = false ∧ q = { p with refusedRetried := true } := by
  unfold Dispatch.claimRefused? at h
  split at h
  · cases h
  · rename_i hp
    exact ⟨by simpa using hp, (Option.some.inj h).symm⟩

theorem onExpiredToken_passes {stream : Nat} (hc : c.Forgotten stream) (time : Moment)
    (r : Reply) (hr : r.isExpired = true) (status : Nat) (apnsId : Option Uuid)
    (timestamp : Option Instant) :
    Passes s (.connection c.id (.result stream (.reply r))) c.id c.holdings
      (c.onExpiredToken s time stream status apnsId timestamp) := by
  let b : Connection := { c with token := c.token.map TokenKeeper.invalidate }
  have hd : (b.drain s time).1.Forgotten stream :=
    Forgotten.drainUntil (c := b) ⟨hc.flight, hc.streams⟩ _
  have hi : (b.drain s time).1.id = c.id := drainUntil_id _ b
  unfold onExpiredToken
  refine Passes.after_drainUntil (c := b) ?_
  change Passes _ _ c.id (b.drain s time).1.holdings _
  generalize (b.drain s time).1 = d at hd hi ⊢
  rw [← hi]
  unfold takeDispatch OpenStreams.take
  dsimp only
  cases hp : d.streams.get? stream with
  | none => exact hd.absent hp
  | some p =>
    dsimp only
    split
    · rename_i q hq
      split at hq
      · rename_i hs
        obtain ⟨hf, rfl⟩ := claimExpired?_eq_some hq
        exact hd.back hp (.resend d.id stream r p hr hs hf)
      · cases hq
    · exact hd.one hp (.answer d.id stream r p status apnsId
        (.rejected (some .expiredProviderToken) timestamp) (by simp [Decision.isAccepted]))

theorem success_of_accepted {r : Reply} {status : Nat} {apnsId uniqueId : Option Uuid}
    (h : r.verdict = .accepted status apnsId uniqueId) : Reply.isSuccess r.status = true := by
  unfold Reply.verdict at h
  dsimp only at h
  split at h
  · rename_i hs
    exact hs
  · split at h <;> cases h

theorem expired_of_rejected {r : Reply} {status : Nat} {apnsId : Option Uuid}
    {timestamp : Option Instant}
    (h : r.verdict = .rejected status apnsId (some .expiredProviderToken) timestamp) :
    r.isExpired = true := by
  unfold Reply.verdict at h
  dsimp only at h
  split at h
  · cases h
  · rename_i hs
    split at h
    · cases h
    · injection h with _ _ hreason _
      simp [Reply.isExpired, hs, hreason]

theorem onReply_passes {stream : Nat} (hc : c.Forgotten stream) (time : Moment) (r : Reply) :
    Passes s (.connection c.id (.result stream (.reply r))) c.id c.holdings
      (c.onReply s time stream r) := by
  unfold onReply
  split
  · rename_i status apnsId uniqueId hv
    exact resolve_passes hc _ fun p => .answer c.id stream r p status apnsId _ fun _ =>
      success_of_accepted hv
  · rename_i status apnsId timestamp hv
    exact onExpiredToken_passes hc time r (expired_of_rejected hv) status apnsId timestamp
  · rename_i status apnsId reason timestamp _ hv
    have ho := resolve_passes (s := s) (m := .connection c.id (.result stream (.reply r))) hc
      (fun p => p.answer status apnsId (.rejected reason timestamp))
      fun p => .answer c.id stream r p status apnsId _ (by simp [Decision.isAccepted])
    dsimp only
    split
    · exact ho.then_drainUntil _
    · exact ho
  · rename_i status reason hv
    exact (resolve_passes hc _ fun p =>
      .failWritten c.id stream (.reply r) p (.internalServerError status reason)
        (by simp)).then_drainUntil _

/-- A refused notification is written again later, or fails as not processed. -/
theorem onRefused_passes {stream : Nat} (hc : c.Forgotten stream) :
    Passes s (.connection c.id (.result stream (.reset refusedCode))) c.id c.holdings
      (c.onRefused stream) := by
  unfold onRefused takeDispatch OpenStreams.take
  dsimp only
  cases hp : c.streams.get? stream with
  | none => exact hc.absent hp
  | some p =>
    dsimp only
    split
    · rename_i q hq
      split at hq
      · obtain ⟨hf, rfl⟩ := claimRefused?_eq_some hq
        have he := erase_holdings hc.streams hp
        refine ⟨rfl, ⟨hc.flight, hc.streams.erase stream⟩, ?_, by simp⟩
        have hpass := Passage.hop (.rewrite (s := s) c.id stream p hf)
          (.stay { c with streams := c.streams.erase stream }.holdings)
        rw [← he, add_zero] at hpass
        change Passage _ _ _ 0 _
        convert hpass using 1
        change unwritten c.commands + unwritten (c.retries ++ [_]) +
          (c.streams.erase stream).holdings c.id + 0 = _
        rw [unwritten_append, unwritten_singleton]
        simp only [holdings, Holding.left]
        abel
      · cases hq
    · exact hc.one hp (.unprocessed c.id stream _ p (.inl rfl))

theorem onResult_passes (hc : c.Orderly) (time : Moment) (stream : Nat) (r : StreamResult) :
    Passes s (.connection c.id (.result stream r)) c.id c.holdings
      (c.onResult s time stream r) := by
  have hf := hc.forget stream time
  unfold onResult
  dsimp only
  cases r with
  | reply r => exact onReply_passes hf time r
  | reset code =>
    dsimp only
    split
    · rename_i hcode
      subst hcode
      exact onRefused_passes hf
    · exact resolve_passes hf _ fun p =>
        .failWritten c.id stream (.reset code) p .streamClosed (by simp)
  | goneAway =>
    exact (resolve_passes hf _ fun p =>
      .unprocessed c.id stream .goneAway p (.inr rfl)).then_drainUntil _
  | lost =>
    exact resolve_passes hf _ fun p => .failWritten c.id stream .lost p .streamClosed (by simp)

theorem finish_passes (c : Connection) : Passes s m c.id c.holdings c.finish := by
  unfold finish OpenStreams.drain
  dsimp only
  refine ⟨rfl, ⟨rfl, by simp, by simp⟩, ?_, by simp [reports, resubmit]⟩
  have hstay := Passage.stay (s := s) (m := m) (unwritten c.commands + unwritten c.retries)
  have hlost := (Passage.drop (s := s) (m := m) (c.streams.holdings c.id)).add hstay
  have hr : returned [.tell (.closed c.id)] = [] := rfl
  have hs : reported [.tell (.closed c.id)] = [] := rfl
  simp only [reported_append, returned_append, reported_reports, returned_reports,
    reported_resubmit, returned_resubmit, hr, hs, List.append_nil, List.nil_append]
  convert hlost using 1
  · simp only [holdings]
    abel
  · simp [OpenStreams.holdings, Function.comp_def]
  · simp only [holdings, unwritten_nil, OpenStreams.holdings, unwritten_append]
    simp

/-- Every step of a connection accounts for every notification that the connection holds. -/
theorem step_passes (hc : c.Orderly) (now : Present) (i : ConnectionInput) :
    Passes s (.connection c.id i) c.id c.holdings (c.step s now i) := by
  unfold step
  cases i with
  | readiness r => exact onReadiness_passes hc now.time r
  | retry a =>
    cases hr : c.retries with
    | nil => exact .of_stay (o := (c, [])) hc rfl rfl (by simp)
    | cons p rest =>
      have hw := write_passes (s := s) (c := { c with retries := rest }) ⟨hc.flight, hc.streams⟩
        (.inl rfl) (a := a) now p
      convert hw using 1
      simp only [holdings, hr, unwritten_cons]
      rw [Multiset.add_cons, Multiset.cons_add]
  | command a =>
    cases hr : c.commands with
    | nil => exact .of_stay (o := (c, [])) hc rfl rfl (by simp)
    | cons p rest =>
      have hw := write_passes (s := s) (c := { c with commands := rest }) ⟨hc.flight, hc.streams⟩
        (.inr rfl) (a := a) now p
      convert hw using 1
      simp only [holdings, hr, unwritten_cons]
      rw [Multiset.cons_add, Multiset.cons_add]
  | abandoned => exact drainUntil_passes hc _
  | result stream r => exact onResult_passes hc now.time stream r
  | transportEnded =>
    exact drainUntil_passes (c := { c with watchesTransport := false }) ⟨hc.flight, hc.streams⟩ _
  | pingFailed =>
    exact drainUntil_passes (c := { c with watchesPing := false }) ⟨hc.flight, hc.streams⟩ _
  | shutdown deadline => exact drainUntil_passes hc _
  | tokenExpired =>
    exact .of_stay (o := ({ c with token := c.token.map TokenKeeper.invalidate }, []))
      ⟨hc.flight, hc.streams⟩ rfl rfl (by simp)
  | drainDeadline | finish => exact finish_passes c

end Connection

end PushDelivery
