import PushDelivery.Proofs.ConnectionLife

namespace PushDelivery

/-- The values of a request's authorization headers. -/
def Request.authorizations (r : Request) : List String :=
  (r.headers.entries.filter fun h => h.1 = Protocol.authorizationHeader).map Prod.snd

/-- The token that is minted for a request, if none is kept that could be used. -/
def TokenKeeper.mints? (now : Present) (k : TokenKeeper) : Option (List Char) :=
  if k.fresh? now.time = none then (k.mint now).toOption else none

namespace Connection

/-- The token that a connection mints in a step. -/
def mints? (now : Present) (c : Connection) : ConnectionInput → Option (List Char)
  | .retry _ | .command _ => c.token.bind (TokenKeeper.mints? now)
  | _ => none

/-- A token that the connection keeps. -/
def Keeps (c : Connection) (t : KeptToken) : Prop :=
  ∃ k, c.token = some k ∧ k.current = some t

end Connection

namespace Request

theorem orOmit_other {name : String} (h : name ≠ Protocol.authorizationHeader)
    (value : Option String) :
    (orOmit name value).filter (fun h => h.1 = Protocol.authorizationHeader) = [] := by
  cases value <;> simp [orOmit, h]

theorem authorizations_headerList (n : Notification) (value : Option String) :
    ((headerList n value).filter fun h => h.1 = Protocol.authorizationHeader).map Prod.snd =
      value.toList := by
  have htopic : Protocol.topicHeader ≠ Protocol.authorizationHeader := by decide
  have hpriority : Protocol.priorityHeader ≠ Protocol.authorizationHeader := by decide
  have hexpiration : Protocol.expirationHeader ≠ Protocol.authorizationHeader := by decide
  rw [headerList, List.filter_cons_of_neg (by simpa using htopic),
    List.filter_cons_of_neg (by simpa using hpriority),
    List.filter_cons_of_neg (by simpa using hexpiration), List.filter_append, List.filter_append,
    List.filter_append, orOmit_other (by decide), orOmit_other (by decide),
    orOmit_other (by decide)]
  cases value <;> simp [orOmit]

theorem authorizations_of_build {scheme authority : String} {n : Notification}
    {value : Option String} {r : Request} (h : build scheme authority n value = .ok r) :
    r.authorizations = value.toList := by
  rw [authorizations, (build_eq_ok h).2]
  exact authorizations_headerList n value

end Request

namespace TokenKeeper

theorem authorization_eq_ok {now : Present} {k l : TokenKeeper} {value : List Char}
    (h : k.authorization now = .ok (value, l)) :
    (∃ t, k.current = some t ∧ t.value = value ∧ l = k) ∨
      (k.mints? now = some value ∧ ∃ t, l.current = some t ∧ t.value = value) := by
  unfold authorization at h
  cases hf : k.fresh? now.time with
  | some t =>
    simp only [hf] at h
    obtain ⟨rfl, rfl⟩ := Prod.mk.inj (Except.ok.inj h)
    exact .inl ⟨t, (Option.filter_eq_some_iff.mp hf).1, rfl, rfl⟩
  | none =>
    cases hm : k.mint now with
    | error e => simp [hf, hm, bind, Except.bind] at h
    | ok v =>
      simp only [hf, hm, bind, Except.bind, pure, Except.pure] at h
      obtain ⟨rfl, rfl⟩ := Prod.mk.inj (Except.ok.inj h)
      refine .inr ⟨?_, _, rfl, rfl⟩
      rw [mints?, if_pos hf, hm]
      rfl

end TokenKeeper

namespace Connection

variable {s : ConnectionSettings} {now : Present} {c d : Connection} {i : ConnectionInput}

/-- What a step does to the token of a connection. -/
structure Renews (now : Present) (i : ConnectionInput) (c d : Connection) : Prop where
  keyed : d.token.isSome = c.token.isSome
  kept : ∀ t, d.Keeps t → c.Keeps t ∨ c.mints? now i = some t.value

theorem Renews.of_same (h : d.token = c.token) : c.Renews now i d := by
  constructor
  · rw [h]
  · rintro t ⟨k, hk, ht⟩
    exact .inl ⟨k, h ▸ hk, ht⟩

theorem drainUntil_token (t : Moment) (c : Connection) : (c.drainUntil t).1.token = c.token := by
  unfold drainUntil
  split
  · rfl
  · split <;> rfl
  · rfl

theorem register_token (stream : Nat) (p : Dispatch) (r : Request) (time : Moment)
    (c : Connection) : (c.register stream p r time).1.token = c.token := by
  unfold register
  dsimp only
  split <;> rfl

theorem authorization_spec {value : Option (List Char)} (h : c.authorization now = .ok (value, d)) :
    d.token.isSome = c.token.isSome ∧
      (∀ t, d.Keeps t → c.Keeps t ∨ c.token.bind (TokenKeeper.mints? now) = some t.value) ∧
      (c.token.isSome = true → ∃ v, value = some v ∧
        ((∃ t, c.Keeps t ∧ t.value = v) ∨ c.token.bind (TokenKeeper.mints? now) = some v)) := by
  unfold authorization at h
  cases hk : c.token with
  | none =>
    rw [hk] at h
    obtain ⟨rfl, rfl⟩ := Prod.mk.inj (Except.ok.inj h)
    refine ⟨by rw [hk], ?_, by simp⟩
    exact fun t ht => .inl ht
  | some k =>
    cases ha : k.authorization now with
    | error e => simp [hk, ha, bind, Except.bind] at h
    | ok x =>
      obtain ⟨rfl, rfl⟩ : some x.1 = value ∧ { c with token := some x.2 } = d := by
        simpa [hk, ha, bind, Except.bind, pure, Except.pure] using h
      have hspec : k.authorization now = .ok (x.1, x.2) := ha
      refine ⟨rfl, ?_, fun _ => ⟨x.1, rfl, ?_⟩⟩
      · rintro t ⟨l, hl, ht⟩
        obtain rfl := Option.some.inj hl
        rcases TokenKeeper.authorization_eq_ok hspec with
          ⟨u, -, -, hsame⟩ | ⟨hm, u, hu, hv⟩
        · exact .inl ⟨k, hk, hsame ▸ ht⟩
        · right
          obtain rfl := Option.some.inj (hu.symm.trans ht)
          rw [Option.bind_some, hv]
          exact hm
      · rcases TokenKeeper.authorization_eq_ok hspec with
          ⟨t, ht, hv, -⟩ | ⟨hm, -⟩
        · exact .inl ⟨t, ⟨k, hk, ht⟩, hv⟩
        · exact .inr hm

theorem request_spec (now : Present) (p : Dispatch) (c : Connection) :
    (c.request s now p).2.token.isSome = c.token.isSome ∧
      (∀ t, (c.request s now p).2.Keeps t →
        c.Keeps t ∨ c.token.bind (TokenKeeper.mints? now) = some t.value) ∧
      ∀ r, (c.request s now p).1 = .ok r → c.token.isSome = true →
        ∃ v, r.authorizations = [String.ofList v] ∧
          ((∃ t, c.Keeps t ∧ t.value = v) ∨ c.token.bind (TokenKeeper.mints? now) = some v) := by
  unfold request
  split
  · exact ⟨rfl, fun t ht => .inl ht, fun r hr => by cases hr⟩
  · rename_i value d ha
    obtain ⟨hsome, hkeeps, hvalue⟩ := authorization_spec ha
    refine ⟨hsome, hkeeps, fun r hr hc => ?_⟩
    obtain ⟨v, rfl, hv⟩ := hvalue hc
    dsimp only at hr
    split at hr
    · rename_i r' hb
      obtain rfl := Except.ok.inj hr
      exact ⟨v, Request.authorizations_of_build hb, hv⟩
    · cases hr

theorem Becomes.renews (h : Becomes s now c i d) : c.Renews now i d := by
  have hsame {d e : Connection} (h : c.Renews now i d) (he : e.token = d.token) :
      c.Renews now i e := by
    refine ⟨he ▸ h.keyed, fun t ht => h.kept t ?_⟩
    obtain ⟨k, hk, hcurrent⟩ := ht
    exact ⟨k, he ▸ hk, hcurrent⟩
  induction h with
  | nothing => exact .of_same rfl
  | notes _ _ _ _ ht ih =>
    rcases ht with ht | ht
    · exact hsame ih ht
    · refine ⟨by rw [ht, Option.isSome_map, ih.keyed], ?_⟩
      rintro t ⟨k, hk, hcurrent⟩
      rw [ht] at hk
      obtain ⟨l, -, rfl⟩ := Option.map_eq_some_iff.mp hk
      cases hcurrent
  | @asks d p _ ht hi ih =>
    obtain ⟨hsome, hkeeps, -⟩ := request_spec (s := s) now p d
    refine ⟨hsome.trans ih.keyed, fun t hk => ?_⟩
    have hmints : c.mints? now i = c.token.bind (TokenKeeper.mints? now) := by
      obtain ⟨a, rfl | rfl⟩ := hi <;> rfl
    rw [hmints, ← ht]
    exact (hkeeps t hk).imp_left fun ⟨k, hk, hcurrent⟩ => ⟨k, ht ▸ hk, hcurrent⟩
  | registers n p r _ ih => exact hsame ih (register_token n p r now.time _)
  | forgets _ _ ih | erases _ _ ih => exact hsame ih rfl
  | drains t _ ih => exact hsame ih (drainUntil_token t _)

/-- A token that is kept after a step was kept before, or the step has minted it. -/
theorem step_renews (now : Present) (c : Connection) (i : ConnectionInput) :
    c.Renews now i (c.step s now i).1 := by
  rcases step_becomes (s := s) now c i with h | h
  · rw [h]
    exact .of_same rfl
  · exact h.renews

theorem drainUntil_unopened (t : Moment) (c : Connection) (n : Nat) (p : Dispatch) (r : Request) :
    .opened n p r ∉ (c.drainUntil t).2 := by
  unfold drainUntil
  split <;> simp [resubmit]

theorem andThen_drain_unopened {n : Nat} {p : Dispatch} {r : Request} {o : Effect} {time : Moment}
    (h : .opened n p r ∉ o.2) : .opened n p r ∉ (andThen o (drain s time)).2 := by
  intro hm
  exact (List.mem_append.mp hm).elim h (drainUntil_unopened _ _ n p r)

theorem onResult_unopened (time : Moment) (stream : Nat) (x : StreamResult) (c : Connection)
    (n : Nat) (p : Dispatch) (r : Request) : .opened n p r ∉ (c.onResult s time stream x).2 := by
  have hresolve (how : Dispatch → Report) (c : Connection) :
      .opened n p r ∉ (c.resolve stream how).2 := by
    simp [resolve, reports]
  have hresult := result_cases (s := s) time stream x c
  generalize c.onResult s time stream x = o at hresult ⊢
  cases hresult with
  | resolves how => exact hresolve how _
  | drains how => exact andThen_drain_unopened (hresolve how _)
  | expires status apnsId timestamp =>
    intro hm
    refine (List.mem_append.mp hm).elim (drainUntil_unopened _ _ n p r) fun hm => ?_
    split at hm
    · cases hm
    · split at hm <;> simp [resubmit] at hm
  | refuses =>
    unfold onRefused
    split
    · simp
    · split <;> simp

theorem opened_of_write {n : Nat} {a : WriteAnswer} {p q : Dispatch} {r : Request}
    (h : .opened n q r ∈ (c.write s now a p).2) :
    ({ c with ready := false }.request s now p).1 = .ok r := by
  unfold write at h
  split at h
  · simp at h
  · rename_i r' d hr
    rw [hr]
    split at h
    · simp [resubmit] at h
    · cases a with
      | opened stream =>
        obtain ⟨-, -, rfl⟩ : n = stream ∧ q = p.markSent.1 ∧ r = r' := by
          unfold register at h
          dsimp only at h
          split at h <;> simpa [reports] using h
        rfl
      | refused cause => exact absurd h (andThen_drain_unopened (by simp))
      | payloadLost stream cause =>
        obtain ⟨-, -, rfl⟩ : n = stream ∧ q = p ∧ r = r' := by simpa using h
        rfl

/-- A connection writes only as long as it takes work, and with a key of its own it puts one token
on the request: one that it kept, or one that it mints for it. -/
theorem opened_of_step {n : Nat} {p : Dispatch} {r : Request}
    (h : .opened n p r ∈ (c.step s now i).2) (ha : c.awaits now.time i = true) :
    c.phase = .connected ∧ (c.token.isSome = true → ∃ v, r.authorizations = [String.ofList v] ∧
      ((∃ t, c.Keeps t ∧ t.value = v) ∨ c.mints? now i = some v)) := by
  unfold step at h
  cases i with
  | retry a =>
    refine ⟨connected_of_accepting (accepting_of_writes (.inl rfl) ha), fun hc => ?_⟩
    dsimp only at h
    split at h
    · cases h
    · rename_i q rest hq
      exact (request_spec (s := s) now q
        { c with retries := rest, ready := false }).2.2 r (opened_of_write h) hc
  | command a =>
    refine ⟨connected_of_accepting (accepting_of_writes (.inr rfl) ha), fun hc => ?_⟩
    dsimp only at h
    split at h
    · cases h
    · rename_i q rest hq
      exact (request_spec (s := s) now q
        { c with commands := rest, ready := false }).2.2 r (opened_of_write h) hc
  | readiness x =>
    cases x with
    | failed => exact absurd h (drainUntil_unopened _ _ n p r)
    | _ =>
      cases hb : c.blocked <;> simp [onReadiness, hb] at h
  | result stream x => exact absurd h (onResult_unopened _ _ _ _ n p r)
  | abandoned | shutdown deadline | transportEnded | pingFailed =>
    exact absurd h (drainUntil_unopened _ _ n p r)
  | tokenExpired => cases h
  | drainDeadline | finish => simp [Connection.finish, reports, resubmit] at h

theorem rejected_of_expired {r : Reply} (h : r.isExpired = true) :
    r.verdict = .rejected r.status (Reply.uuid? Protocol.apnsIdHeader r.headers)
      (some .expiredProviderToken) (RefusalBody.decode r.body).timestamp := by
  obtain ⟨hstatus, hreason⟩ := Bool.and_eq_true_iff.mp h
  unfold Reply.verdict
  dsimp only
  rw [if_neg (by simpa using hstatus), beq_iff_eq.mp hreason, if_neg (by simp [Reply.saysNothing])]

theorem drains_of_expired {r : Reply} (hr : r.isExpired = true) (time : Moment) (stream : Nat)
    (c : Connection) : (c.onResult s time stream (.reply r)).1.phase ≠ .connected := by
  have hdrain (t : Moment) (c : Connection) : (c.drainUntil t).1.phase ≠ .connected := by
    unfold drainUntil
    split
    · simp
    · rename_i current hp
      split <;> simp [hp]
    · rename_i hp
      simp [hp]
  unfold onResult
  dsimp only [onReply]
  rw [rejected_of_expired hr]
  dsimp only
  rw [onExpiredToken_frame]
  exact hdrain _ _

end Connection

end PushDelivery
