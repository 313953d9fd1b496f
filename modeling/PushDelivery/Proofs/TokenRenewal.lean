import Mathlib.Data.List.Induction
import PushDelivery.Proofs.Acceptance
import PushDelivery.Proofs.Components
import PushDelivery.Proofs.ShownTokens
import PushDelivery.Proofs.Tokens

namespace PushDelivery

namespace TokenKeeper

/-- What is done with a keeper, and when. -/
inductive Call where
  /-- A request needs the value. -/
  | ask (now : Present)
  | invalidate (time : Moment)

namespace Call

def time : Call → Moment
  | ask now => now.time
  | invalidate time => time

def invalidates : Call → Bool
  | ask _ => false
  | invalidate _ => true

end Call

/-- The keeper after a call. Where no token could be minted it stays as it was. -/
def perform (k : TokenKeeper) : Call → TokenKeeper
  | .ask now =>
    match k.authorization now with
    | .ok (_, l) => l
    | .error _ => k
  | .invalidate _ => k.invalidate

/-- A call that was made, and the token that was minted in it. -/
structure Entry where
  call : Call
  minted : Option (List Char)

def entry (k : TokenKeeper) (c : Call) : Entry where
  call := c
  minted :=
    match c with
    | .ask now => k.mints? now
    | .invalidate _ => none

def after (k : TokenKeeper) (cs : List Call) : TokenKeeper :=
  cs.foldl perform k

def history (k : TokenKeeper) : List Call → List Entry
  | [] => []
  | c :: cs => k.entry c :: history (k.perform c) cs

/-- The last token that was minted, and the calls that were made since. -/
structure LastMint (h : List Entry) (e : Entry) (later : List Entry) : Prop where
  made : ∃ before, h = before ++ e :: later
  mints : e.minted ≠ none
  since : ∀ x ∈ later, x.minted = none

/-- The last token that was minted, if it has not been invalidated. -/
def Standing (h : List Entry) (e : Entry) : Prop :=
  ∃ later, LastMint h e later ∧ ∀ x ∈ later, x.call.invalidates = false

/-- Whether a token is to be minted: none was before, or the last one was invalidated, or its
lifetime is over. -/
def IsDue (h : List Entry) (lifetime : Duration) (time : Moment) : Prop :=
  (∀ x ∈ h, x.minted = none) ∨ ∃ e later, LastMint h e later ∧
    ((∃ x ∈ later, x.call.invalidates = true) ∨ Moment.after e.call.time lifetime ≤ time)

variable {k l : TokenKeeper} {now : Present} {h : List Entry} {e x : Entry} {c : Call}
  {cs : List Call} {later : List Entry}

theorem fresh?_eq_some {time : Moment} {t : KeptToken} :
    k.fresh? time = some t ↔ k.current = some t ∧ time < t.expiresAt := by
  simp [fresh?, Option.filter_eq_some_iff]

theorem authorization_of_fresh {t : KeptToken} (hf : k.fresh? now.time = some t) :
    k.authorization now = .ok (t.value, k) := by
  unfold authorization
  rw [hf]

theorem authorization_of_stale (hf : k.fresh? now.time = none) :
    k.authorization now = (k.mint now).map fun value =>
      (value, { k with current := some ⟨value, Moment.after now.time k.lifetime⟩ }) := by
  unfold authorization
  rw [hf]
  cases k.mint now with
  | error cause => rfl
  | ok value => rfl

theorem mints?_eq_some {value : List Char} :
    k.mints? now = some value ↔ k.fresh? now.time = none ∧ k.mint now = .ok value := by
  unfold mints?
  split
  · rename_i hf
    cases k.mint now with
    | error cause => simp [Except.toOption]
    | ok v => simp [hf, Except.toOption]
  · rename_i hf
    simp [hf]

theorem perform_of_error {error : TokenError} (h : k.authorization now = .error error) :
    k.perform (.ask now) = k := by
  simp [perform, h]

/-- A key that signs mints a token, whatever is kept. -/
theorem exists_mint (hsign : (k.key.sign? (Text.Utf8.encode (Token.signingInput
      (Token.headerOf k.key) (Token.claimsOf k.key now.date))) now.secret).isSome = true) :
    ∃ value, k.mint now = .ok value := by
  obtain ⟨signature, hsignature⟩ := Option.isSome_iff_exists.mp hsign
  exact ⟨_, mint_of_token (Token.mint_of_sign hsignature)⟩

theorem perform_frame (k : TokenKeeper) (c : Call) :
    ∃ current, k.perform c = { k with current := current } := by
  cases c with
  | invalidate time => exact ⟨none, rfl⟩
  | ask now =>
    unfold perform
    dsimp only
    cases hf : k.fresh? now.time with
    | some t =>
      rw [authorization_of_fresh hf]
      exact ⟨k.current, rfl⟩
    | none =>
      rw [authorization_of_stale hf]
      cases k.mint now with
      | error cause => exact ⟨k.current, rfl⟩
      | ok value => exact ⟨_, rfl⟩

theorem current_perform {t : KeptToken} : (k.perform c).current = some t ↔
    ((k.entry c).minted = some t.value ∧ t.expiresAt = Moment.after c.time k.lifetime) ∨
      ((k.entry c).minted = none ∧ c.invalidates = false ∧ k.current = some t) := by
  cases c with
  | invalidate time => simp [perform, entry, invalidate, Call.invalidates]
  | ask now =>
    simp only [perform, entry, Call.time, Call.invalidates, true_and]
    cases hf : k.fresh? now.time with
    | some u =>
      have hmints : k.mints? now = none := by simp [mints?, hf]
      simp [authorization_of_fresh hf, hmints]
    | none =>
      rw [authorization_of_stale hf]
      cases hm : k.mint now with
      | error cause =>
        have hmints : k.mints? now = none := by simp [mints?, hf, hm, Except.toOption]
        simp [hmints, Except.map]
      | ok value =>
        have hmints : k.mints? now = some value := mints?_eq_some.mpr ⟨hf, hm⟩
        simp only [Except.map, hmints, Option.some.injEq, reduceCtorEq, false_and, or_false]
        constructor
        · rintro rfl
          exact ⟨rfl, rfl⟩
        · rintro ⟨rfl, hexpires⟩
          rw [← hexpires]

theorem after_snoc (k : TokenKeeper) (cs : List Call) (c : Call) :
    k.after (cs ++ [c]) = (k.after cs).perform c := by
  simp [after]

theorem history_snoc (k : TokenKeeper) (cs : List Call) (c : Call) :
    k.history (cs ++ [c]) = k.history cs ++ [(k.after cs).entry c] := by
  induction cs generalizing k with
  | nil => rfl
  | cons b cs ih =>
    rw [List.cons_append, history, ih]
    rfl

theorem call_mem_of_history (hx : x ∈ k.history cs) : x.call ∈ cs := by
  induction cs generalizing k with
  | nil => cases hx
  | cons c cs ih =>
    rcases List.mem_cons.mp hx with rfl | hx
    · exact List.mem_cons_self
    · exact List.mem_cons_of_mem c (ih hx)

@[simp] theorem after_key (k : TokenKeeper) (cs : List Call) : (k.after cs).key = k.key := by
  induction cs using List.reverseRecOn with
  | nil => rfl
  | append_singleton cs c ih =>
    obtain ⟨current, hsame⟩ := perform_frame (k.after cs) c
    rw [after_snoc, hsame, ih]

@[simp] theorem after_lifetime (k : TokenKeeper) (cs : List Call) :
    (k.after cs).lifetime = k.lifetime := by
  induction cs using List.reverseRecOn with
  | nil => rfl
  | append_singleton cs c ih =>
    obtain ⟨current, hsame⟩ := perform_frame (k.after cs) c
    rw [after_snoc, hsame, ih]

theorem LastMint.mem (hl : LastMint h e later) : e ∈ h := by
  obtain ⟨before, rfl⟩ := hl.made
  simp

theorem lastMint_snoc : LastMint (h ++ [x]) e later ↔
    (x.minted ≠ none ∧ e = x ∧ later = []) ∨
      (x.minted = none ∧ ∃ rest, later = rest ++ [x] ∧ LastMint h e rest) := by
  constructor
  · rintro ⟨⟨before, hmade⟩, hmints, hsince⟩
    rcases List.eq_nil_or_concat later with rfl | ⟨rest, y, rfl⟩
    · obtain ⟨-, hlast⟩ := List.append_inj' hmade rfl
      obtain rfl := List.singleton_inj.mp hlast
      exact .inl ⟨hmints, rfl, rfl⟩
    · rw [List.concat_eq_append] at hmade hsince ⊢
      rw [← List.cons_append, ← List.append_assoc] at hmade
      obtain ⟨rfl, hlast⟩ := List.append_inj' hmade rfl
      obtain rfl := List.singleton_inj.mp hlast
      refine .inr ⟨hsince x (by simp), rest, rfl, ⟨before, rfl⟩, hmints, ?_⟩
      exact fun z hz => hsince z (List.mem_append_left _ hz)
  · rintro (⟨hmints, rfl, rfl⟩ | ⟨hx, rest, rfl, ⟨before, rfl⟩, hmints, hsince⟩)
    · exact ⟨⟨h, rfl⟩, hmints, by simp⟩
    · refine ⟨⟨before, by simp⟩, hmints, ?_⟩
      intro z hz
      rcases List.mem_append.mp hz with hz | hz
      · exact hsince z hz
      · obtain rfl := List.mem_singleton.mp hz
        exact hx

theorem standing_snoc : Standing (h ++ [x]) e ↔
    (x.minted ≠ none ∧ e = x) ∨
      (x.minted = none ∧ x.call.invalidates = false ∧ Standing h e) := by
  unfold Standing
  simp only [lastMint_snoc]
  constructor
  · rintro ⟨later, ⟨hmints, rfl, rfl⟩ | ⟨hx, rest, rfl, hrest⟩, hlater⟩
    · exact .inl ⟨hmints, rfl⟩
    · refine .inr ⟨hx, hlater x (by simp), rest, hrest, ?_⟩
      exact fun z hz => hlater z (List.mem_append_left _ hz)
  · rintro (⟨hmints, rfl⟩ | ⟨hx, hkept, rest, hrest, hlater⟩)
    · exact ⟨[], .inl ⟨hmints, rfl, rfl⟩, by simp⟩
    · refine ⟨rest ++ [x], .inr ⟨hx, rest, rfl, hrest⟩, ?_⟩
      intro z hz
      rcases List.mem_append.mp hz with hz | hz
      · exact hlater z hz
      · obtain rfl := List.mem_singleton.mp hz
        exact hkept

theorem exists_lastMint (h : List Entry) :
    (∀ x ∈ h, x.minted = none) ∨ ∃ e later, LastMint h e later := by
  induction h using List.reverseRecOn with
  | nil => exact .inl (by simp)
  | append_singleton h x ih =>
    by_cases hx : x.minted = none
    · rcases ih with hnone | ⟨e, later, hlast⟩
      · left
        intro y hy
        rcases List.mem_append.mp hy with hy | hy
        · exact hnone y hy
        · obtain rfl := List.mem_singleton.mp hy
          exact hx
      · exact .inr ⟨e, later ++ [x], lastMint_snoc.mpr (.inr ⟨hx, later, rfl, hlast⟩)⟩
    · exact .inr ⟨x, [], lastMint_snoc.mpr (.inl ⟨hx, rfl, rfl⟩)⟩

theorem lastMint_first {value : List Char} (hk : k.current = none) (hm : k.mint now = .ok value) :
    LastMint (k.history [.ask now]) (k.entry (.ask now)) [] := by
  have hminted : (k.entry (.ask now)).minted = some value :=
    mints?_eq_some.mpr ⟨by simp [fresh?, hk], hm⟩
  exact ⟨⟨[], rfl⟩, by simp [hminted], by simp⟩

theorem LastMint.unique {d : Entry} {rest : List Entry} (hl : LastMint h e later)
    (hr : LastMint h d rest) : e = d ∧ later = rest := by
  induction h using List.reverseRecOn generalizing later rest with
  | nil =>
    have hnone := hl.mem
    cases hnone
  | append_singleton h x ih =>
    rcases lastMint_snoc.mp hl with ⟨hx, rfl, rfl⟩ | ⟨hx, later, rfl, hbefore⟩
    · rcases lastMint_snoc.mp hr with ⟨-, rfl, rfl⟩ | ⟨hnone, -⟩
      · exact ⟨rfl, rfl⟩
      · exact absurd hnone hx
    · rcases lastMint_snoc.mp hr with ⟨hmints, -⟩ | ⟨-, rest, rfl, hother⟩
      · exact absurd hx hmints
      · obtain ⟨rfl, rfl⟩ := ih hbefore hother
        exact ⟨rfl, rfl⟩

/-- No token is due exactly if the last one stands and its lifetime is not over. -/
theorem not_isDue {lifetime : Duration} {time : Moment} : ¬ IsDue h lifetime time ↔
    ∃ e, Standing h e ∧ time < Moment.after e.call.time lifetime := by
  constructor
  · intro hdue
    rcases exists_lastMint h with hnone | ⟨e, later, hlast⟩
    · exact absurd (.inl hnone) hdue
    · refine ⟨e, ⟨later, hlast, fun x hx => ?_⟩, ?_⟩
      · by_contra hinvalid
        exact hdue (.inr ⟨e, later, hlast, .inl ⟨x, hx, by simpa using hinvalid⟩⟩)
      · by_contra hlate
        exact hdue (.inr ⟨e, later, hlast, .inr (Nat.not_lt.mp hlate)⟩)
  · rintro ⟨e, ⟨later, hlast, hkept⟩, htime⟩ (hnone | ⟨d, rest, hd, hdue⟩)
    · exact hlast.mints (hnone e hlast.mem)
    · obtain ⟨rfl, rfl⟩ := hlast.unique hd
      rcases hdue with ⟨x, hx, hinvalid⟩ | hlate
      · exact Bool.noConfusion ((hkept x hx).symm.trans hinvalid)
      · exact absurd htime (Nat.not_lt.mpr hlate)

/-- What a keeper keeps is the last token that was minted, as long as it was not invalidated. -/
theorem current_after (hk : k.current = none) (cs : List Call) {t : KeptToken} :
    (k.after cs).current = some t ↔ ∃ e, Standing (k.history cs) e ∧
      e.minted = some t.value ∧ t.expiresAt = Moment.after e.call.time k.lifetime := by
  induction cs using List.reverseRecOn with
  | nil =>
    constructor
    · intro hcurrent
      cases hk.symm.trans hcurrent
    · rintro ⟨e, ⟨later, hlast, -⟩, -⟩
      cases hlast.mem
  | append_singleton cs c ih =>
    rw [after_snoc, history_snoc, current_perform, ih, after_lifetime]
    simp only [standing_snoc]
    constructor
    · rintro (⟨hminted, hexpires⟩ | ⟨hnone, hkept, e, he, hvalue⟩)
      · exact ⟨(k.after cs).entry c, .inl ⟨by simp [hminted], rfl⟩, hminted, hexpires⟩
      · exact ⟨e, .inr ⟨hnone, hkept, he⟩, hvalue⟩
    · rintro ⟨e, ⟨-, rfl⟩ | ⟨hnone, hkept, he⟩, hvalue⟩
      · exact .inl hvalue
      · exact .inr ⟨hnone, hkept, e, he, hvalue⟩

theorem fresh?_after (hk : k.current = none) (cs : List Call) (time : Moment) {t : KeptToken} :
    (k.after cs).fresh? time = some t ↔ ∃ e, Standing (k.history cs) e ∧
      time < Moment.after e.call.time k.lifetime ∧ e.minted = some t.value ∧
        t.expiresAt = Moment.after e.call.time k.lifetime := by
  rw [fresh?_eq_some, current_after hk]
  constructor
  · rintro ⟨⟨e, he, hvalue, hexpires⟩, htime⟩
    exact ⟨e, he, hexpires ▸ htime, hvalue, hexpires⟩
  · rintro ⟨e, he, htime, hvalue, hexpires⟩
    exact ⟨⟨e, he, hvalue, hexpires⟩, hexpires ▸ htime⟩

theorem expiresAt?_after (hk : k.current = none) (cs : List Call) {time : Moment} :
    (k.after cs).expiresAt? = some time ↔
      ∃ e, Standing (k.history cs) e ∧ time = Moment.after e.call.time k.lifetime := by
  rw [expiresAt?, Option.map_eq_some_iff]
  constructor
  · rintro ⟨t, ht, rfl⟩
    obtain ⟨e, he, -, hexpires⟩ := (current_after hk cs).mp ht
    exact ⟨e, he, hexpires⟩
  · rintro ⟨e, he, rfl⟩
    obtain ⟨later, hlast, -⟩ := id he
    obtain ⟨value, hvalue⟩ := Option.ne_none_iff_exists'.mp hlast.mints
    exact ⟨⟨value, _⟩, (current_after hk cs).mpr ⟨e, he, hvalue, rfl⟩, rfl⟩

theorem standing_of_value {value : List Char} (hk : k.current = none) (hl : 0 < k.lifetime.nanos)
    (ht : (cs ++ [Call.ask now]).Pairwise fun c d => c.time ≤ d.time)
    (hvalue : (k.after cs).authorization now = .ok (value, l)) :
    ∃ e, Standing (k.history cs ++ [(k.after cs).entry (.ask now)]) e ∧ e.minted = some value ∧
      e.call.time ≤ now.time ∧ now.time < Moment.after e.call.time k.lifetime := by
  have hpast : ∀ c ∈ cs, c.time ≤ now.time := fun c hc =>
    (List.pairwise_append.mp ht).2.2 c hc _ (List.mem_singleton_self _)
  cases hf : (k.after cs).fresh? now.time with
  | some t =>
    rw [authorization_of_fresh hf] at hvalue
    obtain ⟨rfl, -⟩ := Prod.mk.inj (Except.ok.inj hvalue)
    obtain ⟨e, he, htime, hminted, -⟩ := (fresh?_after hk cs now.time).mp hf
    have hnone : ((k.after cs).entry (.ask now)).minted = none := by simp [entry, mints?, hf]
    obtain ⟨later, hlast, -⟩ := id he
    exact ⟨e, standing_snoc.mpr (.inr ⟨hnone, rfl, he⟩), hminted,
      hpast _ (call_mem_of_history hlast.mem), htime⟩
  | none =>
    rw [authorization_of_stale hf] at hvalue
    cases hm : (k.after cs).mint now with
    | error cause =>
      rw [hm] at hvalue
      cases hvalue
    | ok v =>
      rw [hm] at hvalue
      obtain ⟨rfl, -⟩ := Prod.mk.inj (Except.ok.inj hvalue)
      have hminted : ((k.after cs).entry (.ask now)).minted = some v :=
        mints?_eq_some.mpr ⟨hf, hm⟩
      refine ⟨_, standing_snoc.mpr (.inl ⟨by simp [hminted], rfl⟩), hminted, le_rfl, ?_⟩
      exact Nat.lt_add_of_pos_right hl

theorem isDue_iff (hk : k.current = none) (cs : List Call) (time : Moment) :
    IsDue (k.history cs) k.lifetime time ↔ (k.after cs).fresh? time = none := by
  rw [← not_iff_not, not_isDue, ← ne_eq, Option.ne_none_iff_exists']
  constructor
  · rintro ⟨e, he, htime⟩
    obtain ⟨later, hlast, -⟩ := id he
    obtain ⟨value, hvalue⟩ := Option.ne_none_iff_exists'.mp hlast.mints
    exact ⟨⟨value, _⟩, (fresh?_after hk cs time).mpr ⟨e, he, htime, hvalue, rfl⟩⟩
  · rintro ⟨t, ht⟩
    obtain ⟨e, he, htime, -⟩ := (fresh?_after hk cs time).mp ht
    exact ⟨e, he, htime⟩

end TokenKeeper

namespace Connection

variable {s : ConnectionSettings} {now : Present} {c d : Connection} {i : ConnectionInput}

/-- To make a request is to ask for the value, whatever becomes of the request. -/
theorem request_token (s : ConnectionSettings) (now : Present) (p : Dispatch) (c : Connection) :
    (c.request s now p).2.token = c.token.map fun k => k.perform (.ask now) := by
  unfold request authorization
  cases hk : c.token with
  | none => simp [hk]
  | some k =>
    cases ha : k.authorization now with
    | error e => simp [ha, hk, TokenKeeper.perform, bind, Except.bind]
    | ok x => simp [ha, TokenKeeper.perform, bind, Except.bind, pure, Except.pure]

theorem write_token (s : ConnectionSettings) (now : Present) (a : WriteAnswer) (p : Dispatch)
    (c : Connection) :
    (c.write s now a p).1.token = c.token.map fun k => k.perform (.ask now) := by
  have hrequest := request_token s now p { c with ready := false }
  unfold write
  split
  · rename_i he
    rw [he] at hrequest
    exact hrequest
  · rename_i r d he
    rw [he] at hrequest
    split
    · exact hrequest
    · cases a with
      | opened stream => exact (register_token stream p r now.time d).trans hrequest
      | refused cause => exact (drainUntil_token _ _).trans hrequest
      | payloadLost stream cause => exact hrequest

/-- A connection uses its keeper by calls of this kind and in no other way. -/
theorem step_calls (now : Present) (c : Connection) (i : ConnectionInput) :
    ∃ cs : List TokenKeeper.Call, (∀ x ∈ cs, x.time = now.time) ∧
      (c.step s now i).1.token = c.token.map fun k => k.after cs := by
  rcases step_becomes (s := s) now c i with h | h
  · refine ⟨[], by simp, ?_⟩
    rw [h]
    simp [finish, TokenKeeper.after]
  · generalize (c.step s now i).1 = d at h ⊢
    have hmore {d e : Connection} (x : TokenKeeper.Call) (hx : x.time = now.time)
        (he : e.token = d.token.map fun k => k.perform x)
        (hd : ∃ cs : List TokenKeeper.Call, (∀ x ∈ cs, x.time = now.time) ∧
          d.token = c.token.map fun k => k.after cs) :
        ∃ cs : List TokenKeeper.Call, (∀ x ∈ cs, x.time = now.time) ∧
          e.token = c.token.map fun k => k.after cs := by
      obtain ⟨cs, hcs, hd⟩ := hd
      refine ⟨cs ++ [x], ?_, ?_⟩
      · simpa [or_imp, forall_and, hx] using hcs
      · rw [he, hd, Option.map_map]
        simp [Function.comp_def, TokenKeeper.after_snoc]
    induction h with
    | nothing => exact ⟨[], by simp, by simp [TokenKeeper.after]⟩
    | notes _ _ _ _ ht ih =>
      rcases ht with ht | ht
      · rw [ht]
        exact ih
      · exact hmore (.invalidate now.time) rfl ht ih
    | @asks d p _ _ _ ih => exact hmore (.ask now) rfl (request_token s now p d) ih
    | @registers d n p r _ ih =>
      rw [register_token n p r now.time d]
      exact ih
    | forgets _ _ ih | erases _ _ ih => exact ih
    | @drains d t _ ih =>
      rw [drainUntil_token t d]
      exact ih

end Connection

namespace History

variable {config : ClientConfig} {es : List Episode} {w : World}

theorem token_eq_after_calls (h : History config es w) : ∀ c ∈ w.connections,
    ∃ cs : List TokenKeeper.Call, (cs.Pairwise fun x y => x.time ≤ y.time) ∧
      (∀ x ∈ cs, ∃ e ∈ es, x.time = e.before.time) ∧
      c.token = config.auth.signingKey?.map fun key =>
        TokenKeeper.after { key := key, lifetime := config.tokenLifetime } cs := by
  refine h.forall_connections (P := fun es c => ∃ cs : List TokenKeeper.Call,
    (cs.Pairwise fun x y => x.time ≤ y.time) ∧ (∀ x ∈ cs, ∃ e ∈ es, x.time = e.before.time) ∧
      c.token = config.auth.signingKey?.map fun key =>
        TokenKeeper.after { key := key, lifetime := config.tokenLifetime } cs)
    fun es v e hr he ih d _ hd => ?_
  have hsettings := hr.sound.settings
  have hpast := hr.before_le
  obtain ⟨rfl, -⟩ := he
  cases hd with
  | @same c more there =>
    obtain ⟨cs, hsorted, htimes, hc⟩ := ih c there
    refine ⟨cs, hsorted, fun x hx => ?_, hc⟩
    obtain ⟨f, hf, hx⟩ := htimes x hx
    exact ⟨f, List.mem_append_left _ hf, hx⟩
  | @step c i moves there awaits =>
    obtain ⟨cs, hsorted, htimes, hc⟩ := ih c (List.mem_of_find?_eq_some there)
    obtain ⟨new, hnew, hd⟩ := Connection.step_calls (s := e.before.settings)
      ⟨e.before.time, e.date, e.secret⟩ c i
    refine ⟨cs ++ new, ?_, fun x hx => ?_, ?_⟩
    · refine List.pairwise_append.mpr ⟨hsorted, List.pairwise_of_forall_mem_list ?_, ?_⟩
      · intro x hx y hy
        rw [hnew x hx, hnew y hy]
      · intro x hx y hy
        obtain ⟨f, hf, hx⟩ := htimes x hx
        rw [hx, hnew y hy]
        exact hpast f hf
    · rcases List.mem_append.mp hx with hx | hx
      · obtain ⟨f, hf, hx⟩ := htimes x hx
        exact ⟨f, List.mem_append_left _ hf, hx⟩
      · exact ⟨e, List.mem_append_right _ (List.mem_singleton_self e), hnew x hx⟩
    · rw [hd, hc, Option.map_map]
      simp [Function.comp_def, TokenKeeper.after]
  | @start id moves attempted =>
    refine ⟨[], List.Pairwise.nil, by simp, ?_⟩
    rw [hsettings]
    rfl
  | @drained id t moves attempted =>
    refine ⟨[], List.Pairwise.nil, by simp, ?_⟩
    rw [Connection.drainUntil_token, hsettings]
    rfl

end History

namespace TokenKeeper

/-- Whatever calls have been made before. A value that is returned is the last one that was minted:
its lifetime is not over and nothing has invalidated it since. A token is minted exactly if none was
before, if the last one has been invalidated since or if its lifetime is over; then the call returns
the new one, and otherwise it returns the last one and changes nothing. The token that is kept is
to be dropped when the lifetime of the last one is over, and none is if that was invalidated. Where
no token can be minted the keeper is left as it was, also by a connection that writes. The lifetime
is any duration above zero, by a clock without a last moment. -/
theorem tokens_follow_calls (key : SigningKey) (lifetime : Duration) (hl : 0 < lifetime.nanos)
    (cs : List Call) (now : Present)
    (ht : (cs ++ [Call.ask now]).Pairwise fun c d => c.time ≤ d.time) :
    let k := after { key := key, lifetime := lifetime } cs
    let h := history { key := key, lifetime := lifetime } cs
    (∀ value l, k.authorization now = .ok (value, l) →
      ∃ e, Standing (h ++ [k.entry (.ask now)]) e ∧ e.minted = some value ∧
        e.call.time ≤ now.time ∧ now.time < Moment.after e.call.time lifetime) ∧
    (∀ value, k.mint now = .ok value →
      ((k.entry (.ask now)).minted = some value ↔ IsDue h lifetime now.time)) ∧
    (IsDue h lifetime now.time → k.authorization now = (k.mint now).map fun value =>
      (value, { k with current := some ⟨value, Moment.after now.time lifetime⟩ })) ∧
    (¬ IsDue h lifetime now.time → ∃ e value, Standing h e ∧ e.minted = some value ∧
      k.authorization now = .ok (value, k)) ∧
    (∀ t, k.expiresAt? = some t ↔
      ∃ e, Standing h e ∧ t = Moment.after e.call.time lifetime) ∧
    ∀ error, k.authorization now = .error error → k.perform (.ask now) = k ∧
      ∀ s a p (c : Connection), c.token = some k → (c.write s now a p).1.token = some k := by
  intro k h
  let new : TokenKeeper := { key := key, lifetime := lifetime }
  have hnone : new.current = none := rfl
  have hdue : IsDue h lifetime now.time ↔ k.fresh? now.time = none :=
    isDue_iff hnone cs now.time
  refine ⟨?_, ?_, ?_, ?_, fun t => expiresAt?_after hnone cs, ?_⟩
  · intro value l hvalue
    exact standing_of_value hnone hl ht hvalue
  · intro value hm
    rw [hdue]
    exact mints?_eq_some.trans ⟨fun hx => hx.1, fun hf => ⟨hf, hm⟩⟩
  · intro hnew
    have hlifetime : k.lifetime = lifetime := after_lifetime ..
    rw [authorization_of_stale (hdue.mp hnew), hlifetime]
  · intro hold
    obtain ⟨t, hf⟩ := Option.ne_none_iff_exists'.mp (mt hdue.mpr hold)
    obtain ⟨e, he, -, hminted, -⟩ := (fresh?_after hnone cs now.time).mp hf
    exact ⟨e, t.value, he, hminted, authorization_of_fresh hf⟩
  · intro error herror
    have hsame := perform_of_error herror
    refine ⟨hsame, fun s a p c hc => ?_⟩
    rw [Connection.write_token, hc, Option.map_some, hsame]

/-- A second, by a calendar that stands still. -/
def atSecond (second : Nat) : Present :=
  ⟨Moment.after 0 (.ofSeconds second), ⟨0, 0⟩, 1⟩

/-- A token that lasts a minute is to be dropped a minute after it was minted, and just then the
keeper mints another. -/
theorem tokens_of_minute :
    let key : SigningKey := ⟨⟨1, P256.generator, publicPoint?_one⟩, "T", "K"⟩
    let k := after { key := key, lifetime := .ofSeconds 60 } [.ask (atSecond 0)]
    k.expiresAt? = some (atSecond 60).time ∧
      ∃ value, (k.entry (.ask (atSecond 60))).minted = some value := by
  intro key k
  have hsigns (second : Nat) : (key.sign? (Text.Utf8.encode (Token.signingInput
      (Token.headerOf key) (Token.claimsOf key (atSecond second).date)))
      (atSecond second).secret).isSome = true :=
    SigningKey.sign?_of_signsDated SigningKey.signsDated_zero
  obtain ⟨first, hfirst⟩ :=
    exists_mint (k := { key := key, lifetime := .ofSeconds 60 }) (hsigns 0)
  have hlast := lastMint_first rfl hfirst
  obtain ⟨second, hsecond⟩ := exists_mint (k := k) (by
    rw [after_key]
    exact hsigns 60)
  obtain ⟨-, hnew, -, -, hexpires, -⟩ :=
    tokens_follow_calls key (.ofSeconds 60) (by decide) [.ask (atSecond 0)] (atSecond 60)
      (by simp [Call.time, atSecond, Moment.after, Duration.ofSeconds])
  refine ⟨(hexpires _).mpr ⟨_, ⟨[], hlast, by simp⟩, rfl⟩, second, (hnew second hsecond).mpr ?_⟩
  exact .inr ⟨_, [], hlast, .inr le_rfl⟩

end TokenKeeper

end PushDelivery
