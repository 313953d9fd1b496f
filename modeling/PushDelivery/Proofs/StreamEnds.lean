import PushDelivery.Proofs.ConnectionInvariant

namespace PushDelivery

namespace Rejection

theorem ofText_text : ∀ k ∈ known, ofText k.text = k := by decide

theorem ofText_eq_iff {k : Rejection} (hk : k ∈ known) (t : String) :
    ofText t = k ↔ t = k.text := by
  constructor
  · intro h
    unfold ofText at h
    cases hf : known.find? fun r => r.text == t with
    | none =>
      rw [hf, Option.getD_none] at h
      rw [← h]
      rfl
    | some k' =>
      rw [hf, Option.getD_some] at h
      have ht := List.find?_some hf
      rw [h] at ht
      exact (beq_iff_eq.mp ht).symm
  · rintro rfl
    exact ofText_text k hk

theorem closesConnection_iff (k : Rejection) :
    k.closesConnection = true ↔ k ∈ [expiredProviderToken, serviceUnavailable, shutdown] := by
  cases k <;> simp [closesConnection]

end Rejection

namespace Reply

def reasonText? (r : Reply) : Option String :=
  (RefusalBody.decode r.body).reason

def Names (r : Reply) (reasons : List Rejection) : Prop :=
  ∃ k ∈ reasons, r.reasonText? = some k.text

/-- Whether a reply refuses its notification for a reason that is about the connection, or is a
server error that gives no known reason or none but that. -/
def EndsConnection (r : Reply) : Prop :=
  ¬ (200 ≤ r.status ∧ r.status < 300) ∧
    (r.Names [.expiredProviderToken, .serviceUnavailable, .shutdown] ∨
      (500 ≤ r.status ∧ r.status < 600) ∧
        (¬ r.Names Rejection.known ∨ r.Names [.internalServerError]))

theorem names_iff {r : Reply} {reasons : List Rejection}
    (hknown : ∀ k ∈ reasons, k ∈ Rejection.known) :
    r.Names reasons ↔ ∃ k ∈ reasons, r.reasonText?.map Rejection.ofText = some k := by
  refine exists_congr fun k => and_congr_right fun hk => ?_
  rw [Option.map_eq_some_iff]
  constructor
  · intro ht
    exact ⟨k.text, ht, Rejection.ofText_text k (hknown k hk)⟩
  · rintro ⟨t, ht, hof⟩
    rw [ht, (Rejection.ofText_eq_iff (hknown k hk) t).mp hof]

theorem saysNothing_iff (reason : Option Rejection) :
    saysNothing reason = true ↔
      (¬ ∃ k ∈ Rejection.known, reason = some k) ∨ reason = some .internalServerError := by
  cases reason with
  | none => simp [saysNothing]
  | some k => cases k <;> simp [saysNothing, Rejection.known]

/-- Whether a verdict gives the connection up. -/
def givesUp : Verdict → Bool
  | .accepted .. => false
  | .rejected _ _ reason _ => reason.any Rejection.closesConnection
  | .internalError .. => true

theorem givesUp_iff (r : Reply) : givesUp r.verdict = true ↔ r.EndsConnection := by
  have hsuccess : isSuccess r.status = true ↔ 200 ≤ r.status ∧ r.status < 300 := by
    simp [isSuccess]
  have hserver : isServerError r.status = true ↔ 500 ≤ r.status ∧ r.status < 600 := by
    simp [isServerError]
  have hcloses : (r.reasonText?.map Rejection.ofText).any Rejection.closesConnection = true ↔
      r.Names [.expiredProviderToken, .serviceUnavailable, .shutdown] := by
    rw [names_iff (by decide), Option.any_eq_true]
    exact exists_congr fun k => by rw [Rejection.closesConnection_iff, and_comm]
  have hnothing : saysNothing (r.reasonText?.map Rejection.ofText) = true ↔
      ¬ r.Names Rejection.known ∨ r.Names [.internalServerError] := by
    rw [saysNothing_iff, names_iff (by simp), names_iff (by decide)]
    simp
  rw [EndsConnection, ← hsuccess, ← hserver, ← hcloses, ← hnothing]
  unfold verdict
  dsimp only
  change givesUp (if isSuccess r.status = true then _ else
    if (isServerError r.status && saysNothing (r.reasonText?.map Rejection.ofText)) = true then _
      else _) = true ↔ _
  split
  · rename_i hs
    simp [givesUp, hs]
  · rename_i hs
    split
    · rename_i hn
      rw [Bool.and_eq_true] at hn
      simp [givesUp, hs, hn]
    · rename_i hn
      rw [Bool.and_eq_true] at hn
      exact ⟨fun h => ⟨hs, .inl h⟩, fun h => h.2.resolve_right hn⟩

end Reply

/-- Whether the end of a stream is a reason to give its connection up. -/
def StreamResult.EndsConnection : StreamResult → Prop
  | .reply r => r.EndsConnection
  | .goneAway => True
  | .reset _ | .lost => False

namespace Connection

variable {s : ConnectionSettings} {now : Present} {c d e : Connection} {p : Dispatch}
  {o : Effect} {stream : Nat}

theorem drainUntil_of_connected (hc : c.phase = .connected) (t : Moment) :
    c.drainUntil t = ({ c with
      phase := .draining t, canSend := false, ready := false
      commands := [], commandsOpen := false, retries := [] },
      .tell (.draining c.id) :: resubmit (c.commands ++ c.retries)) := by
  rw [drainUntil, hc]

/-- The notification `p` of a stream is resolved or waits to be written again. What has not been
written stays in its queue or goes back to the pool, in its order. -/
def Settles (c : Connection) (p : Dispatch) (o : Effect) : Prop :=
  ∃ again, returned o.2 ++ o.1.commands ++ o.1.retries = c.commands ++ c.retries ++ again ∧
    ((again = [] ∧ ∃ outcome, reported o.2 = [.resolved p.id outcome]) ∨
      (reported o.2 = [] ∧ ∃ q, again = [q] ∧ q.id = p.id ∧ q.notification = p.notification))

/-- The connection goes on, and the pool hears nothing. -/
structure GoesOn (c : Connection) (o : Effect) : Prop where
  same : o.1.id = c.id
  phase : o.1.phase = c.phase
  canSend : o.1.canSend = c.canSend
  commandsOpen : o.1.commandsOpen = c.commandsOpen
  told : told o.2 = []

/-- The connection takes nothing any more, and the pool hears of it. -/
structure GivesUp (c : Connection) (t : Moment) (o : Effect) : Prop where
  phase : o.1.phase = .draining t
  canSend : o.1.canSend = false
  commandsOpen : o.1.commandsOpen = false
  told : .draining c.id ∈ told o.2

theorem drainUntil_unwritten (t : Moment) (c : Connection) :
    returned (c.drainUntil t).2 ++ (c.drainUntil t).1.commands ++ (c.drainUntil t).1.retries =
      c.commands ++ c.retries := by
  unfold drainUntil
  split
  · change returned (resubmit _) ++ [] ++ [] = _
    rw [returned_resubmit, List.append_nil, List.append_nil]
  · split <;> rfl
  · rfl

theorem Settles.then_drainUntil (h : c.Settles p o) (t : Moment) :
    c.Settles p (andThen o (drainUntil t)) := by
  obtain ⟨again, hqueues, hfate⟩ := h
  have hreported : reported (andThen o (drainUntil t)).2 = reported o.2 := by
    change reported (o.2 ++ (o.1.drainUntil t).2) = _
    rw [reported_append, drainUntil_reported, List.append_nil]
  refine ⟨again, ?_, by rwa [hreported]⟩
  calc returned (o.2 ++ (o.1.drainUntil t).2) ++ (o.1.drainUntil t).1.commands ++
        (o.1.drainUntil t).1.retries
      = returned o.2 ++ (returned (o.1.drainUntil t).2 ++ (o.1.drainUntil t).1.commands ++
          (o.1.drainUntil t).1.retries) := by simp only [returned_append, List.append_assoc]
    _ = returned o.2 ++ (o.1.commands ++ o.1.retries) := by rw [drainUntil_unwritten]
    _ = c.commands ++ c.retries ++ again := by rw [← List.append_assoc, hqueues]

theorem GoesOn.then_drainUntil (h : c.GoesOn o) (hc : c.phase = .connected) (t : Moment) :
    c.GivesUp t (andThen o (drainUntil t)) := by
  have hd := drainUntil_of_connected (h.phase.trans hc) t
  unfold andThen
  rw [hd]
  refine ⟨rfl, rfl, rfl, ?_⟩
  rw [told_append, h.same]
  exact List.mem_append_right _ List.mem_cons_self

theorem resolve_of_open (hp : c.streams.get? stream = some p) (how : Dispatch → Report) :
    c.resolve stream how =
      ({ c with streams := c.streams.erase stream }, [.report (how p)]) := by
  simp [resolve, OpenStreams.resolve, hp, reports]

theorem resolve_settles (hp : c.streams.get? stream = some p) (how : Dispatch → Report)
    {outcome : Outcome} (hhow : how p = .resolved p.id outcome) :
    c.Settles p (c.resolve stream how) ∧ c.GoesOn (c.resolve stream how) := by
  rw [resolve_of_open hp, hhow]
  exact ⟨⟨[], (List.append_nil _).symm, .inl ⟨rfl, outcome, rfl⟩⟩, ⟨rfl, rfl, rfl, rfl, rfl⟩⟩

theorem resolve_drains (hc : c.phase = .connected) (hp : c.streams.get? stream = some p)
    (how : Dispatch → Report) {outcome : Outcome} (hhow : how p = .resolved p.id outcome)
    (time : Moment) :
    c.Settles p (andThen (c.resolve stream how) (drain s time)) ∧
      c.GivesUp (time.after s.gracePeriod) (andThen (c.resolve stream how) (drain s time)) :=
  have ⟨hsettles, hon⟩ := resolve_settles hp how hhow
  ⟨hsettles.then_drainUntil _, hon.then_drainUntil hc _⟩

/-- What was not written goes back first, the notification of the expired token last. -/
theorem onExpiredToken_settles (hc : c.phase = .connected) (hp : c.streams.get? stream = some p)
    (time : Moment) (status : Nat) (apnsId : Option Uuid) (timestamp : Option Instant) :
    c.Settles p (c.onExpiredToken s time stream status apnsId timestamp) ∧
      c.GivesUp (time.after s.gracePeriod)
        (c.onExpiredToken s time stream status apnsId timestamp) := by
  let v : Connection := { c with token := c.token.map TokenKeeper.invalidate }
  have hd := drainUntil_of_connected (c := v) hc (time.after s.gracePeriod)
  unfold onExpiredToken drain
  rw [hd]
  simp only [andThen, takeDispatch, OpenStreams.take, v, hp]
  split
  · rename_i q hq
    have hq : q.id = p.id ∧ q.notification = p.notification := by
      split at hq
      · obtain ⟨-, rfl⟩ := claimExpired?_eq_some hq
        exact ⟨rfl, rfl⟩
      · cases hq
    refine ⟨⟨[q], ?_, .inr ⟨?_, q, rfl, hq⟩⟩, ⟨rfl, rfl, rfl, List.mem_cons_self⟩⟩
    · change returned (resubmit _ ++ resubmit _) ++ [] ++ [] = _
      rw [returned_append, returned_resubmit, returned_resubmit, List.append_nil, List.append_nil]
    · change reported (resubmit _ ++ resubmit _) = []
      rw [reported_append, reported_resubmit, reported_resubmit, List.append_nil]
  · let outcome : Outcome := .answered ⟨p.notification, status, apnsId,
      .rejected (some .expiredProviderToken) timestamp⟩
    refine ⟨⟨[], ?_, .inl ⟨rfl, outcome, ?_⟩⟩, ⟨rfl, rfl, rfl, List.mem_cons_self⟩⟩
    · change returned (resubmit _ ++ reports [_]) ++ [] ++ [] = _
      rw [returned_append, returned_resubmit, returned_reports, List.append_nil, List.append_nil]
    · change reported (resubmit _ ++ reports [_]) = _
      rw [reported_append, reported_resubmit, reported_reports]
      rfl

theorem onRefused_settles (hp : c.streams.get? stream = some p) :
    c.Settles p (c.onRefused stream) ∧ c.GoesOn (c.onRefused stream) := by
  unfold onRefused
  simp only [takeDispatch, OpenStreams.take, hp]
  split
  · rename_i q hq
    have hq : q.id = p.id ∧ q.notification = p.notification := by
      split at hq
      · obtain ⟨-, rfl⟩ := claimRefused?_eq_some hq
        exact ⟨rfl, rfl⟩
      · cases hq
    refine ⟨⟨[q], ?_, .inr ⟨rfl, q, rfl, hq⟩⟩, ⟨rfl, rfl, rfl, rfl, rfl⟩⟩
    exact (List.append_assoc ..).symm
  · exact ⟨⟨[], (List.append_nil _).symm, .inl ⟨rfl, _, rfl⟩⟩, ⟨rfl, rfl, rfl, rfl, rfl⟩⟩

theorem onReply_settles (hc : c.phase = .connected) (hp : c.streams.get? stream = some p)
    (time : Moment) (r : Reply) :
    c.Settles p (c.onReply s time stream r) ∧
      (r.EndsConnection → c.GivesUp (time.after s.gracePeriod) (c.onReply s time stream r)) ∧
      (¬ r.EndsConnection → c.GoesOn (c.onReply s time stream r)) := by
  rw [← Reply.givesUp_iff]
  unfold onReply
  split
  · rename_i status apnsId uniqueId hv
    have ⟨hsettles, hon⟩ := resolve_settles hp
      (fun p => p.answer status apnsId (.accepted uniqueId)) rfl
    exact ⟨hsettles, by simp [Reply.givesUp, hv], fun _ => hon⟩
  · rename_i status apnsId timestamp hv
    have ⟨hsettles, hgives⟩ := onExpiredToken_settles (s := s) hc hp time status apnsId timestamp
    exact ⟨hsettles, fun _ => hgives, by simp [Reply.givesUp, hv, Rejection.closesConnection]⟩
  · rename_i status apnsId reason timestamp _ hv
    dsimp only
    split
    · rename_i hcloses
      have ⟨hsettles, hgives⟩ := resolve_drains (s := s) hc hp
        (fun p => p.answer status apnsId (.rejected reason timestamp)) rfl time
      exact ⟨hsettles, fun _ => hgives, by simp [Reply.givesUp, hv, hcloses]⟩
    · rename_i hcloses
      have ⟨hsettles, hon⟩ := resolve_settles hp
        (fun p => p.answer status apnsId (.rejected reason timestamp)) rfl
      exact ⟨hsettles, by simp [Reply.givesUp, hv, hcloses], fun _ => hon⟩
  · rename_i status reason hv
    have ⟨hsettles, hgives⟩ := resolve_drains (s := s) hc hp
      (fun p => p.fail (.internalServerError status reason)) rfl time
    exact ⟨hsettles, fun _ => hgives, by simp [Reply.givesUp, hv]⟩

theorem onResult_settles (hc : c.phase = .connected) (hp : c.streams.get? stream = some p)
    (time : Moment) (r : StreamResult)
    (hd : d = { c.forget stream with lastActivity := time }) :
    d.Settles p (c.onResult s time stream r) ∧
      (r.EndsConnection → d.GivesUp (time.after s.gracePeriod) (c.onResult s time stream r)) ∧
      (¬ r.EndsConnection → d.GoesOn (c.onResult s time stream r)) := by
  have hphase : d.phase = .connected := hd ▸ hc
  have hslot : d.streams.get? stream = some p := hd ▸ hp
  unfold onResult
  rw [← hd]
  cases r with
  | reply r => exact onReply_settles hphase hslot time r
  | reset code =>
    dsimp only
    split
    · have ⟨hsettles, hon⟩ := onRefused_settles hslot
      exact ⟨hsettles, False.elim, fun _ => hon⟩
    · have ⟨hsettles, hon⟩ := resolve_settles hslot (fun p => p.fail .streamClosed) rfl
      exact ⟨hsettles, False.elim, fun _ => hon⟩
  | goneAway =>
    have ⟨hsettles, hgives⟩ := resolve_drains (s := s) hphase hslot
      (fun p => p.fail .notProcessed) rfl time
    exact ⟨hsettles, fun _ => hgives, fun h => absurd trivial h⟩
  | lost =>
    have ⟨hsettles, hon⟩ := resolve_settles hslot (fun p => p.fail .streamClosed) rfl
    exact ⟨hsettles, False.elim, fun _ => hon⟩

/-- The result of a stream leaves the slots of all other streams as they are and empties its own,
whose notification it settles and no other. The connection is given up exactly when the result is
a reason to, and otherwise it takes work as before. -/
theorem result_settles_own_stream (s : ConnectionSettings) (id : Nat) (born : Moment)
    (as : List ConnectionAction) (c : Connection) (h : Life s id born as c)
    (hc : c.phase = .connected) (now : Present) (stream : Nat) (hopen : stream ∈ c.inFlight)
    (r : StreamResult) :
    let o := c.step s now (.result stream r)
    ((∀ n, n ≠ stream → o.1.streams.get? n = c.streams.get? n) ∧
      o.1.streams.get? stream = none ∧ stream ∉ o.1.inFlight) ∧
    (∃ p, c.streams.get? stream = some p ∧ c.Settles p o) ∧
    ((∃ t, o.1.phase = .draining t) ↔ r.EndsConnection) ∧
    (o.1.accepting = true ↔ ¬ r.EndsConnection) ∧
    (¬ r.EndsConnection → o.1.commandsOpen = true ∧ told o.2 = []) := by
  intro o
  obtain ⟨hstreams, hflight⟩ := onResult_streams (s := s) now.time stream r c
  -- An answer is waited for, so a notification waits as well.
  obtain ⟨p, hp⟩ : ∃ p, c.streams.get? stream = some p := by
    refine Option.ne_none_iff_exists'.mp fun hnone => OpenStreams.get?_eq_none hnone ?_
    rw [← h.orderly.flight]
    exact hopen
  obtain ⟨hsend, hcommands⟩ := h.coherent.serves hc
  obtain ⟨hsettles, hends, hon⟩ := onResult_settles (s := s) hc hp now.time r rfl
  refine ⟨⟨?_, ?_, ?_⟩, ⟨p, hp, hsettles⟩, ?_⟩
  · intro n hn
    change (c.onResult s now.time stream r).1.streams.get? n = _
    rw [hstreams, OpenStreams.get?_erase_of_ne hn]
  · change (c.onResult s now.time stream r).1.streams.get? stream = none
    rw [hstreams, OpenStreams.get?_erase_self]
  · change stream ∉ (c.onResult s now.time stream r).1.inFlight
    simp [hflight]
  · by_cases he : r.EndsConnection
    · have hgives : GivesUp _ _ o := hends he
      have haccepting : o.1.accepting = false := by simp [accepting, hgives.canSend]
      exact ⟨iff_of_true ⟨_, hgives.phase⟩ he, by simp [haccepting, he], fun hn => absurd he hn⟩
    · have hgoes : GoesOn _ o := hon he
      have hphase : o.1.phase = .connected := hgoes.phase.trans hc
      have haccepting : o.1.accepting = true := by
        simp [accepting, isConnected, hphase, hgoes.canSend.trans hsend]
      exact ⟨iff_of_false (by simp [hphase]) he, iff_of_true haccepting he,
        fun _ => ⟨hgoes.commandsOpen.trans hcommands, hgoes.told⟩⟩

/-- The connection goes on after a plain refusal, and is given up after a server error that says
nothing. -/
theorem results_of_engaged : ∃ as c,
    Life (.ofConfig (.standard "gateway.example" .none)) 1 0 as c ∧
    c.phase = .connected ∧ 1 ∈ c.inFlight ∧
    (c.step (.ofConfig (.standard "gateway.example" .none)) ⟨0, ⟨0, 0⟩, 1⟩
      (.result 1 (.reply ⟨410, ⟨[]⟩, []⟩))).1.accepting = true ∧
    ∃ t, (c.step (.ofConfig (.standard "gateway.example" .none)) ⟨0, ⟨0, 0⟩, 1⟩
      (.result 1 (.reply ⟨503, ⟨[]⟩, []⟩))).1.phase = .draining t := by
  have hd : (engaged []).any (fun x => x.1.phase == .connected && x.1.inFlight == [1]) = true := by
    decide +kernel
  obtain ⟨⟨c, as⟩, hplay, hx⟩ := (Option.any_eq_true _ _).mp hd
  obtain ⟨hphase, hflight⟩ := Bool.and_eq_true_iff.mp hx
  have hphase : c.phase = .connected := beq_iff_eq.mp hphase
  have hflight : c.inFlight = [1] := beq_iff_eq.mp hflight
  have hopen : 1 ∈ c.inFlight := by simp [hflight]
  have hlife := life_of_engaged hplay
  have hplain : ¬ Reply.EndsConnection ⟨410, ⟨[]⟩, []⟩ := by
    rw [← Reply.givesUp_iff]
    decide +kernel
  have hsilent : Reply.EndsConnection ⟨503, ⟨[]⟩, []⟩ := by
    rw [← Reply.givesUp_iff]
    decide +kernel
  have hresult := result_settles_own_stream _ 1 0 as c hlife hphase ⟨0, ⟨0, 0⟩, 1⟩ 1 hopen
  refine ⟨as, c, hlife, hphase, hopen, ?_, ?_⟩
  · exact (hresult (.reply ⟨410, ⟨[]⟩, []⟩)).2.2.2.1.mpr hplain
  · exact (hresult (.reply ⟨503, ⟨[]⟩, []⟩)).2.2.1.mpr hsilent

end Connection

end PushDelivery
