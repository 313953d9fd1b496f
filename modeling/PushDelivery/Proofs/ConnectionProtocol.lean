import PushDelivery.Proofs.ConnectionLife

namespace PushDelivery

namespace ConnectionAction

def told? : ConnectionAction → Option PoolMessage
  | tell m => some m
  | _ => none

/-- Whether an action tells the pool nothing. -/
def isSilent : ConnectionAction → Bool
  | tell _ => false
  | _ => true

def isReport : ConnectionAction → Bool
  | report _ => true
  | _ => false

/-- Whether an action may come while a connection drains. -/
def isLate : ConnectionAction → Bool
  | report _ | tell (.resubmit _) => true
  | _ => false

theorem isSilent_of_report {a : ConnectionAction} (h : a.isReport = true) : a.isSilent = true := by
  cases a with
  | report r => rfl
  | _ => cases h

theorem isLate_of_report {a : ConnectionAction} (h : a.isReport = true) : a.isLate = true := by
  cases a with
  | report r => rfl
  | _ => cases h

end ConnectionAction

namespace Connection

def told (as : List ConnectionAction) : List PoolMessage :=
  as.filterMap ConnectionAction.told?

variable {s : ConnectionSettings} {now : Present} {c d e : Connection}
  {as bs : List ConnectionAction}

@[simp] theorem told_append (as bs : List ConnectionAction) :
    told (as ++ bs) = told as ++ told bs :=
  List.filterMap_append

@[simp] theorem told_tell (m : PoolMessage) (as : List ConnectionAction) :
    told (.tell m :: as) = m :: told as := rfl

theorem told_of_silent (h : ∀ a ∈ as, a.isSilent = true) : told as = [] := by
  apply List.filterMap_eq_nil_iff.mpr
  intro a ha
  cases a with
  | tell m => cases h _ ha
  | _ => rfl

theorem told_of_late (h : ∀ a ∈ as, a.isLate = true) :
    told as = (returned as).map .resubmit := by
  induction as with
  | nil => rfl
  | cons a as ih =>
    have hlater := ih fun b hb => h b (List.mem_cons_of_mem a hb)
    have ha := h a List.mem_cons_self
    cases a with
    | report r => exact hlater
    | opened n p r => cases ha
    | tell m =>
      cases m with
      | resubmit p => exact congrArg (PoolMessage.resubmit p :: ·) hlater
      | _ => cases ha

theorem reports_are_reports (rs : List Report) : ∀ a ∈ reports rs, a.isReport = true := by
  intro a ha
  obtain ⟨r, -, rfl⟩ := List.mem_map.mp ha
  rfl

theorem resubmit_late (ps : List Dispatch) : ∀ a ∈ resubmit ps, a.isLate = true := by
  intro a ha
  obtain ⟨p, -, rfl⟩ := List.mem_map.mp ha
  rfl

/-- What a step of a connection comes to, as far as the pool learns of it. -/
inductive Goes (c : Connection) : Effect → Prop
  | on {d : Connection} {as : List ConnectionAction} (same : d.id = c.id)
      (phase : d.phase = c.phase) (blocked : d.blocked = c.blocked)
      (reports : ∀ a ∈ as, a.isReport = true) : Goes c (d, as)
  | writes {d : Connection} {as : List ConnectionAction} (same : d.id = c.id)
      (connected : c.phase = .connected) (phase : d.phase = .connected)
      (blocked : d.blocked = c.blocked) (silent : ∀ a ∈ as, a.isSilent = true) : Goes c (d, as)
  | flips {d : Connection} (same : d.id = c.id) (connected : c.phase = .connected)
      (phase : d.phase = .connected) (blocked : d.blocked = !c.blocked) :
      Goes c (d, [.tell (.writabilityChanged c.id c.blocked)])
  | drains {d : Connection} {t : Moment} {as bs : List ConnectionAction} (same : d.id = c.id)
      (connected : c.phase = .connected) (phase : d.phase = .draining t)
      (silent : ∀ a ∈ as, a.isSilent = true) (late : ∀ b ∈ bs, b.isLate = true) :
      Goes c (d, as ++ .tell (.draining c.id) :: bs)
  | lingers {d : Connection} {t u : Moment} {as : List ConnectionAction} (same : d.id = c.id)
      (draining : c.phase = .draining t) (phase : d.phase = .draining u)
      (late : ∀ a ∈ as, a.isLate = true) : Goes c (d, as)
  | ends {d : Connection} {t : Moment} {as : List ConnectionAction} (same : d.id = c.id)
      (draining : c.phase = .draining t) (phase : d.phase = .closed)
      (late : ∀ a ∈ as, a.isLate = true) : Goes c (d, as ++ [.tell (.closed c.id)])

theorem goes_of_drain (t : Moment) (hc : c.phase ≠ .closed) (hp : e.phase = c.phase)
    (hid : e.id = c.id) (ha : ∀ a ∈ as, a.isReport = true)
    (hd : d.phase = (e.drainUntil t).1.phase) (hsame : d.id = c.id)
    (hb : ∀ b ∈ bs, b.isLate = true) : Goes c (d, as ++ ((e.drainUntil t).2 ++ bs)) := by
  unfold drainUntil at hd ⊢
  rw [hp] at hd ⊢
  cases hphase : c.phase with
  | connected =>
    rw [hphase] at hd
    dsimp only at hd ⊢
    rw [hid, List.cons_append]
    refine .drains hsame hphase hd (fun a h => ConnectionAction.isSilent_of_report (ha a h)) ?_
    intro b h
    rcases List.mem_append.mp h with h | h
    · exact resubmit_late _ b h
    · exact hb b h
  | draining current =>
    rw [hphase] at hd
    dsimp only at hd ⊢
    have hlate : ∀ a ∈ as ++ ([] ++ bs), a.isLate = true := by
      intro a h
      rcases List.mem_append.mp h with h | h
      · exact ConnectionAction.isLate_of_report (ha a h)
      · exact hb a h
    split at hd
    · exact .lingers hsame hphase hd hlate
    · exact .lingers hsame hphase (hd.trans (hp.trans hphase)) hlate
  | closed => exact absurd hphase hc

theorem drainUntil_goes (t : Moment) (hc : c.phase ≠ .closed) (hp : e.phase = c.phase)
    (hid : e.id = c.id) : Goes c (e.drainUntil t) := by
  have h : Goes c ((e.drainUntil t).1, [] ++ ((e.drainUntil t).2 ++ [])) :=
    goes_of_drain t hc hp hid (by simp) rfl ((drainUntil_id t e).trans hid) (by simp)
  simpa using h

theorem then_drainUntil_goes (t : Moment) (hc : c.phase ≠ .closed) (hp : e.phase = c.phase)
    (hid : e.id = c.id) (ha : ∀ a ∈ as, a.isReport = true) :
    Goes c (andThen (e, as) (drainUntil t)) := by
  have h : Goes c ((e.drainUntil t).1, as ++ ((e.drainUntil t).2 ++ [])) :=
    goes_of_drain t hc hp hid ha rfl ((drainUntil_id t e).trans hid) (by simp)
  rw [List.append_nil] at h
  exact h

theorem register_goes (hc : c.phase = .connected) (hp : e.phase = c.phase) (hid : e.id = c.id)
    (hb : e.blocked = c.blocked) (stream : Nat) (p : Dispatch) (r : Request) (time : Moment) :
    Goes c (e.register stream p r time) := by
  have hsilent (q : Dispatch) (rs : List Report) :
      ∀ a ∈ .opened stream q r :: reports rs, a.isSilent = true := by
    intro a ha
    rcases List.mem_cons.mp ha with rfl | ha
    · rfl
    · exact ConnectionAction.isSilent_of_report (reports_are_reports rs a ha)
  unfold register
  dsimp only
  split
  · exact .writes hid hc (hp.trans hc) hb (hsilent _ _)
  · exact .writes hid hc (hp.trans hc) hb (hsilent _ _)

theorem write_goes (ha : c.accepting = true) (hp : e.phase = c.phase)
    (hs : e.canSend = c.canSend) (hid : e.id = c.id) (hb : e.blocked = c.blocked)
    (a : WriteAnswer) (p : Dispatch) : Goes c (e.write s now a p) := by
  have hc : c.phase = .connected := connected_of_accepting ha
  have hwrite := write_cases (s := s) now a p e
  generalize e.write s now a p = o at hwrite ⊢
  cases hwrite with
  | unmade token cause => exact .on hid hp hb (reports_are_reports [_])
  | unsent token gone => simp [hs, canSend_of_accepting ha] at gone
  | opened token stream r =>
    apply register_goes hc
    · exact hp
    · exact hid
    · exact hb
  | refused token cause =>
    apply then_drainUntil_goes
    · simp [hc]
    · exact hp
    · exact hid
    · exact reports_are_reports [_]
  | payloadLost token stream cause r =>
    refine .writes hid hc (hp.trans hc) hb ?_
    intro a ha
    rcases List.mem_cons.mp ha with rfl | ha
    · rfl
    · exact ConnectionAction.isSilent_of_report (reports_are_reports [_] a ha)

theorem onReadiness_goes (hc : c.phase = .connected) (time : Moment) (r : Readiness) :
    Goes c (c.onReadiness s time r) := by
  cases r with
  | ready =>
    cases hb : c.blocked with
    | false =>
      have h : Goes c ({ c with ready := true, blocked := false }, []) :=
        .on rfl rfl hb.symm (by simp)
      simpa [onReadiness, hb] using h
    | true =>
      have h : Goes c ({ c with ready := true, blocked := false },
          [.tell (.writabilityChanged c.id c.blocked)]) := .flips rfl hc hc (by simp [hb])
      simpa [onReadiness, hb] using h
  | pending =>
    cases hb : c.blocked with
    | false =>
      have h : Goes c ({ c with blocked := true },
          [.tell (.writabilityChanged c.id c.blocked)]) := .flips rfl hc hc (by simp [hb])
      simpa [onReadiness, hb] using h
    | true =>
      have h : Goes c ({ c with blocked := true }, []) := .on rfl rfl hb.symm (by simp)
      simpa [onReadiness, hb] using h
  | failed => exact drainUntil_goes _ (by simp [hc]) rfl rfl

theorem onExpiredToken_goes (hc : c.phase ≠ .closed) (hp : e.phase = c.phase) (hid : e.id = c.id)
    (time : Moment) (stream status : Nat) (apnsId : Option Uuid) (timestamp : Option Instant) :
    Goes c (e.onExpiredToken s time stream status apnsId timestamp) := by
  let v : Connection := { e with token := e.token.map TokenKeeper.invalidate }
  let t := Moment.after time s.gracePeriod
  have hgoes {d : Connection} {bs : List ConnectionAction}
      (hd : d = { (v.drainUntil t).1 with streams := (v.drainUntil t).1.streams.erase stream })
      (hb : ∀ b ∈ bs, b.isLate = true) : Goes c (d, (v.drainUntil t).2 ++ bs) := by
    have h : Goes c (d, [] ++ ((v.drainUntil t).2 ++ bs)) := by
      apply goes_of_drain t hc (e := v) hp hid (by simp) _ _ hb
      · rw [hd]
      · rw [hd]
        exact (drainUntil_id t v).trans hid
    exact h
  unfold onExpiredToken andThen takeDispatch OpenStreams.take
  dsimp only
  split
  · rename_i he
    obtain ⟨-, rfl⟩ := Prod.mk.inj he
    exact hgoes rfl (by simp)
  · rename_i p d he
    obtain ⟨-, rfl⟩ := Prod.mk.inj he
    split
    · exact hgoes rfl (resubmit_late _)
    · exact hgoes rfl (by simp [ConnectionAction.isLate])

theorem onRefused_goes (hp : e.phase = c.phase) (hid : e.id = c.id)
    (hb : e.blocked = c.blocked) (stream : Nat) : Goes c (e.onRefused stream) := by
  unfold onRefused takeDispatch
  dsimp only
  split
  · rename_i he
    obtain ⟨-, rfl⟩ := Prod.mk.inj he
    exact .on hid hp hb (by simp)
  · rename_i p d he
    obtain ⟨-, rfl⟩ := Prod.mk.inj he
    split
    · exact .on hid hp hb (by simp)
    · exact .on hid hp hb (reports_are_reports [_])

theorem onResult_goes (hc : c.phase ≠ .closed) (time : Moment) (stream : Nat) (r : StreamResult) :
    Goes c (c.onResult s time stream r) := by
  have hresult := result_cases (s := s) time stream r c
  generalize c.onResult s time stream r = o at hresult ⊢
  cases hresult with
  | resolves how => exact .on rfl rfl rfl (reports_are_reports _)
  | drains how =>
    apply then_drainUntil_goes _ hc
    · rfl
    · rfl
    · exact reports_are_reports _
  | expires status apnsId timestamp =>
    apply onExpiredToken_goes hc
    · rfl
    · rfl
  | refuses =>
    apply onRefused_goes
    · rfl
    · rfl
    · rfl

theorem finish_goes {t : Moment} (hc : c.phase = .draining t) : Goes c c.finish := by
  refine .ends rfl hc rfl ?_
  intro a ha
  rcases List.mem_append.mp ha with ha | ha
  · exact ConnectionAction.isLate_of_report (reports_are_reports _ a ha)
  · exact resubmit_late _ a ha

theorem step_goes (now : Present) {i : ConnectionInput} (hc : c.phase ≠ .closed)
    (ha : c.awaits now.time i = true) : Goes c (c.step s now i) := by
  cases i with
  | readiness r =>
    obtain ⟨ha, -⟩ := Bool.and_eq_true_iff.mp ha
    exact onReadiness_goes (connected_of_accepting ha) now.time r
  | retry a =>
    unfold step
    dsimp only
    split
    · exact .on rfl rfl rfl (by simp)
    · apply write_goes (accepting_of_writes (.inl rfl) ha)
      · rfl
      · rfl
      · rfl
      · rfl
  | command a =>
    unfold step
    dsimp only
    split
    · exact .on rfl rfl rfl (by simp)
    · apply write_goes (accepting_of_writes (.inr rfl) ha)
      · rfl
      · rfl
      · rfl
      · rfl
  | result stream r => exact onResult_goes hc now.time stream r
  | tokenExpired => exact .on rfl rfl rfl (by simp)
  | drainDeadline =>
    unfold awaits at ha
    dsimp only at ha
    split at ha
    · rename_i t ht
      exact finish_goes ht
    · cases ha
  | finish =>
    unfold awaits isDone at ha
    dsimp only at ha
    split at ha
    · cases ha
    · rename_i t ht
      exact finish_goes ht
    · rename_i ht
      exact absurd ht hc
  | abandoned | transportEnded | pingFailed | shutdown _ =>
    apply drainUntil_goes _ hc
    · rfl
    · rfl

/-- A connection from its start on, with all that it has done: it takes what the pool hands it, and
steps as long as it has not closed. -/
inductive Life (s : ConnectionSettings) (id : Nat) (born : Moment) :
    List ConnectionAction → Connection → Prop
  | start : Life s id born [] (.start s id born)
  | takes {as : List ConnectionAction} {c : Connection} (p : Dispatch) :
      Life s id born as c → c.commandsOpen = true → Life s id born as (c.takeCommand p)
  | step {as : List ConnectionAction} {c : Connection} (now : Present) (i : ConnectionInput) :
      Life s id born as c → c.phase ≠ .closed → c.awaits now.time i = true →
      Life s id born (as ++ (c.step s now i).2) (c.step s now i).1

/-- So many changes of whether a connection takes streams, which it does at first. -/
def flips (id k : Nat) : List PoolMessage :=
  (List.range k).map fun j => .writabilityChanged id (j % 2 == 1)

/-- What a connection has done, by its phase. -/
inductive Course (id : Nat) : Connection → List ConnectionAction → Prop
  | serving {c : Connection} {as : List ConnectionAction} (same : c.id = id)
      (phase : c.phase = .connected) (k : Nat) (told : told as = flips id k)
      (blocked : c.blocked = (k % 2 == 1)) : Course id c as
  | draining {c : Connection} {t : Moment} {early late : List ConnectionAction} (same : c.id = id)
      (phase : c.phase = .draining t) (k : Nat) (told : told early = flips id k)
      (isLate : ∀ a ∈ late, a.isLate = true) :
      Course id c (early ++ .tell (.draining id) :: late)
  | closed {c : Connection} {early late : List ConnectionAction} (phase : c.phase = .closed)
      (k : Nat) (told : told early = flips id k) (isLate : ∀ a ∈ late, a.isLate = true) :
      Course id c (early ++ .tell (.draining id) :: (late ++ [.tell (.closed id)]))

variable {id : Nat} {born : Moment}

theorem flips_succ (id k : Nat) :
    flips id (k + 1) = flips id k ++ [.writabilityChanged id (k % 2 == 1)] := by
  simp [flips, List.range_succ]

theorem odd_succ (k : Nat) : ((k + 1) % 2 == 1) = !(k % 2 == 1) := by
  rcases Nat.mod_two_eq_zero_or_one k with h | h
  · simp [h, Nat.add_mod]
  · simp [h, Nat.add_mod]

theorem Course.goes {o : Effect} (h : Course id c as) (ho : Goes c o) (hc : c.phase ≠ .closed) :
    Course id o.1 (as ++ o.2) := by
  cases h with
  | serving hid hphase k htold hblocked =>
    subst hid
    cases ho with
    | on same phase blocked reports =>
      refine .serving same (phase.trans hphase) k ?_ (blocked.trans hblocked)
      rw [told_append, htold,
        told_of_silent fun a ha => ConnectionAction.isSilent_of_report (reports a ha),
        List.append_nil]
    | writes same connected phase blocked silent =>
      refine .serving same phase k ?_ (blocked.trans hblocked)
      rw [told_append, htold, told_of_silent silent, List.append_nil]
    | flips same connected phase blocked =>
      refine .serving same phase (k + 1) ?_ ?_
      · rw [told_append, htold, flips_succ, ← hblocked]
        rfl
      · rw [blocked, hblocked, odd_succ]
    | @drains d t bs cs same connected phase silent late =>
      dsimp only
      rw [← List.append_assoc]
      refine .draining same phase k ?_ late
      rw [told_append, htold, told_of_silent silent, List.append_nil]
    | lingers same draining phase late => simp [hphase] at draining
    | ends same draining phase late => simp [hphase] at draining
  | @draining t early late hid hphase k htold hlate =>
    subst hid
    have hboth {bs : List ConnectionAction} (hb : ∀ b ∈ bs, b.isLate = true) :
        ∀ a ∈ late ++ bs, a.isLate = true := by
      intro a ha
      rcases List.mem_append.mp ha with ha | ha
      · exact hlate a ha
      · exact hb a ha
    cases ho with
    | on same phase blocked reports =>
      dsimp only
      rw [List.append_assoc, List.cons_append]
      refine .draining same (phase.trans hphase) k htold (hboth ?_)
      exact fun a ha => ConnectionAction.isLate_of_report (reports a ha)
    | writes same connected => simp [hphase] at connected
    | flips same connected => simp [hphase] at connected
    | drains same connected => simp [hphase] at connected
    | lingers same draining phase late =>
      dsimp only
      rw [List.append_assoc, List.cons_append]
      exact .draining same phase k htold (hboth late)
    | ends same draining phase hends =>
      dsimp only
      rw [List.append_assoc, List.cons_append, ← List.append_assoc late]
      exact .closed phase k htold (hboth hends)
  | closed phase => exact absurd phase hc

theorem Life.course (h : Life s id born as c) : Course id c as := by
  induction h with
  | start => exact .serving rfl rfl 0 rfl rfl
  | @takes as c p _ _ ih =>
    cases ih with
    | serving same phase k told blocked => exact .serving same phase k told blocked
    | draining same phase k told isLate => exact .draining same phase k told isLate
    | closed phase k told isLate => exact .closed phase k told isLate
  | step now i _ hc ha ih => exact ih.goes (step_goes now hc ha) hc

/-- What a connection tells the pool, if it gets that far. -/
def discourse (id k : Nat) (ps : List Dispatch) : List PoolMessage :=
  flips id k ++ .draining id :: (ps.map .resubmit ++ [.closed id])

theorem Course.told_prefix (h : Course id c as) : ∃ k ps, told as <+: discourse id k ps := by
  cases h with
  | serving same phase k ht blocked =>
    refine ⟨k, [], ?_⟩
    rw [ht]
    exact List.prefix_append _ _
  | @draining t early late same phase k ht hl =>
    refine ⟨k, returned late, ?_⟩
    rw [told_append, told_tell, ht, told_of_late hl, discourse, List.prefix_append_right_inj,
      List.cons_prefix_cons]
    exact ⟨rfl, List.prefix_append _ _⟩
  | @closed early late phase k ht hl =>
    refine ⟨k, returned late, ?_⟩
    rw [told_append, told_tell, told_append, ht, told_of_late hl]
    exact List.prefix_rfl

/-- Once it drains a connection opens no stream. -/
structure Parts (id k : Nat) (as early rest : List ConnectionAction) : Prop where
  eq : as = early ++ .tell (.draining id) :: rest
  told : told early = flips id k
  unopened : ∀ n p r, .opened n p r ∉ rest

theorem Course.parts (h : Course id c as) :
    (∃ k, told as = flips id k) ∨ ∃ k early rest, Parts id k as early rest := by
  cases h with
  | serving same phase k ht blocked => exact .inl ⟨k, ht⟩
  | @draining t early late same phase k ht hl =>
    refine .inr ⟨k, early, late, rfl, ht, fun n p r hm => ?_⟩
    cases hl _ hm
  | @closed early late phase k ht hl =>
    refine .inr ⟨k, early, _, rfl, ht, fun n p r hm => ?_⟩
    rcases List.mem_append.mp hm with hm | hm
    · cases hl _ hm
    · simp at hm

theorem mem_told {m : PoolMessage} (h : .tell m ∈ as) : m ∈ told as :=
  List.mem_filterMap.mpr ⟨_, h, rfl⟩

theorem eq_of_mem_flips {k : Nat} {m : PoolMessage} (h : m ∈ flips id k) :
    ∃ writable, m = .writabilityChanged id writable := by
  obtain ⟨j, -, rfl⟩ := List.mem_map.mp h
  exact ⟨_, rfl⟩

theorem Parts.after {k : Nat} {early rest pre post : List ConnectionAction} {m : PoolMessage}
    (h : Parts id k as early rest) (hs : as = pre ++ .tell m :: post)
    (hm : ∀ writable, m ≠ .writabilityChanged id writable) :
    (m = .draining id ∨ .tell (.draining id) ∈ pre) ∧ ∀ n p r, .opened n p r ∉ post := by
  have hnot : .tell m ∉ early := by
    intro hmem
    have ht := mem_told hmem
    rw [h.told] at ht
    obtain ⟨writable, he⟩ := eq_of_mem_flips ht
    exact hm writable he
  rw [h.eq] at hs
  rcases List.append_eq_append_iff.mp hs with ⟨mid, hpre, hrest⟩ | ⟨mid, hearly, hrest⟩
  · cases mid with
    | nil =>
      obtain ⟨he, rfl⟩ := List.cons.inj hrest
      exact ⟨.inl (ConnectionAction.tell.inj he).symm, h.unopened⟩
    | cons a mid =>
      obtain ⟨rfl, hlater⟩ := List.cons.inj hrest
      refine ⟨.inr ?_, fun n p r hm => h.unopened n p r ?_⟩
      · rw [hpre]
        exact List.mem_append_right _ List.mem_cons_self
      · rw [hlater]
        exact List.mem_append_right _ (List.mem_cons_of_mem _ hm)
  · cases mid with
    | nil =>
      obtain ⟨he, rfl⟩ := List.cons.inj hrest
      exact ⟨.inl (ConnectionAction.tell.inj he), h.unopened⟩
    | cons a mid =>
      obtain ⟨rfl, -⟩ := List.cons.inj hrest
      refine absurd ?_ hnot
      rw [hearly]
      exact List.mem_append_right _ List.mem_cons_self

/-- What a connection tells the pool is, as far as it goes, whether it takes streams, by turns, then
that it drains, then what it hands back, and last that it has closed. After it has said that it
drains it opens no stream, and it hands nothing back before; so it never writes again what it has
handed back. -/
theorem keeps_protocol (s : ConnectionSettings) (id : Nat) (born : Moment)
    (as : List ConnectionAction) (c : Connection) (h : Life s id born as c) :
    (∃ (k : Nat) (ps : List Dispatch), told as <+:
      (List.range k).map (fun j => .writabilityChanged id (j % 2 == 1)) ++
        .draining id :: (ps.map .resubmit ++ [.closed id])) ∧
    (∀ pre post, as = pre ++ .tell (.draining id) :: post → ∀ n p r, .opened n p r ∉ post) ∧
    (∀ pre p post, as = pre ++ .tell (.resubmit p) :: post →
      .tell (.draining id) ∈ pre ∧ ∀ n q r, .opened n q r ∉ post) := by
  refine ⟨h.course.told_prefix, ?_, ?_⟩
  · intro pre post hs
    rcases h.course.parts with ⟨k, ht⟩ | ⟨k, early, rest, hparts⟩
    · have hm : .draining id ∈ told as := mem_told (hs ▸ by simp)
      rw [ht] at hm
      obtain ⟨writable, he⟩ := eq_of_mem_flips hm
      cases he
    · exact (hparts.after hs (by simp)).2
  · intro pre p post hs
    rcases h.course.parts with ⟨k, ht⟩ | ⟨k, early, rest, hparts⟩
    · have hm : .resubmit p ∈ told as := mem_told (hs ▸ by simp)
      rw [ht] at hm
      obtain ⟨writable, he⟩ := eq_of_mem_flips hm
      cases he
    · obtain ⟨hpre, hpost⟩ := hparts.after hs (by simp)
      exact ⟨hpre.resolve_left (by simp), hpost⟩

/-- Takes notifications and steps, one after the other, if all of them can come. -/
def play (s : ConnectionSettings) (o : Effect) : List (Dispatch ⊕ ConnectionInput) → Option Effect
  | [] => some o
  | .inl p :: rest => if o.1.commandsOpen then play s (o.1.takeCommand p, o.2) rest else none
  | .inr i :: rest =>
    if o.1.phase ≠ .closed ∧ o.1.awaits 0 i then
      play s (andThen o fun c => c.step s ⟨0, ⟨0, 0⟩, 1⟩ i) rest
    else none

theorem Life.of_play {xs : List (Dispatch ⊕ ConnectionInput)} {o v : Effect}
    (h : Life s id born o.2 o.1) (hp : play s o xs = some v) : Life s id born v.2 v.1 := by
  induction xs generalizing o with
  | nil =>
    obtain rfl := Option.some.inj hp
    exact h
  | cons x xs ih =>
    unfold play at hp
    cases x with
    | inl p =>
      dsimp only at hp
      split at hp
      · rename_i hopen
        exact ih (h.takes p hopen) hp
      · cases hp
    | inr i =>
      dsimp only at hp
      split at hp
      · rename_i hi
        exact ih (h.step _ i hi.1 hi.2) hp
      · cases hp

/-- A connection writes one notification, has no room for the next, and is told to close. -/
def retired : Option Effect :=
  let settings := ConnectionSettings.ofConfig (.standard "gateway.example" .none)
  let p : Dispatch := ⟨1, ⟨"00fc13ad", "com.example.app", "\x7b\x7d", none, .immediate, none, none,
    none⟩, false, false, false⟩
  play settings (.start settings 1 0, [])
    [.inr (.readiness .ready), .inl p, .inl { p with id := 2 }, .inr (.command (.opened 1)),
      .inr (.readiness .pending), .inr (.shutdown 0), .inr (.result 1 .lost), .inr .finish]

theorem protocol_of_retired : ∃ as c,
    Life (.ofConfig (.standard "gateway.example" .none)) 1 0 as c ∧ (told as).length = 4 ∧
    ∃ pre p post, as = pre ++ .tell (.resubmit p) :: post ∧ .tell (.draining 1) ∈ pre := by
  have hd : retired.any (fun x => (told x.2).length == 4 &&
      x.2.any fun a => (ConnectionAction.returned? a).isSome) = true := by
    decide +kernel
  obtain ⟨⟨c, as⟩, hplay, hx⟩ := (Option.any_eq_true _ _).mp hd
  obtain ⟨hlength, hreturned⟩ := Bool.and_eq_true_iff.mp hx
  have hlife : Life (.ofConfig (.standard "gateway.example" .none)) 1 0 as c :=
    Life.of_play (o := (_, [])) .start hplay
  obtain ⟨a, ha, hback⟩ := List.any_eq_true.mp hreturned
  obtain ⟨p, rfl⟩ : ∃ p, a = .tell (.resubmit p) := by
    cases a with
    | tell m =>
      cases m with
      | resubmit p => exact ⟨p, rfl⟩
      | _ => cases hback
    | _ => cases hback
  obtain ⟨pre, post, hs⟩ := List.mem_iff_append.mp ha
  have hpre := ((keeps_protocol _ 1 0 as c hlife).2.2 pre p post hs).1
  exact ⟨as, c, hlife, beq_iff_eq.mp hlength, pre, p, post, hs, hpre⟩

end Connection

end PushDelivery
