import PushDelivery.Proofs.OneOutcome

namespace PushDelivery

namespace MetricEvent

/-- The notification whose end the event tells. -/
def ends? : MetricEvent → Option Nat
  | accepted id | rejected id | writeFailure id => some id
  | _ => none

def sents : MetricEvent → Nat
  | sent _ => 1
  | _ => 0

def answers : MetricEvent → Nat
  | accepted _ | rejected _ => 1
  | _ => 0

def ends : MetricEvent → Nat
  | accepted _ | rejected _ | writeFailure _ => 1
  | _ => 0

theorem nothing_of_connection {x : MetricEvent} (h : x.isConnection = true) :
    x.ends? = none ∧ x.sents = 0 ∧ x.answers = 0 ∧ x.ends = 0 := by
  cases x with
  | connectionAdded | connectionRemoved | connectionCreationFailed => exact ⟨rfl, rfl, rfl, rfl⟩
  | _ => cases h

end MetricEvent

def Happening.metric? : Happening → Option MetricEvent
  | report r => some r.metric
  | count e => some e
  | _ => none

/-- All events of a run. -/
def metrics (es : List Episode) : List MetricEvent :=
  es.flatMap fun e => e.happenings.filterMap Happening.metric?

def totals (es : List Episode) : Totals :=
  .ofEvents (metrics es)

/-- The events that tell the end of a notification. -/
def terminals (n : Nat) (es : List Episode) : List MetricEvent :=
  (metrics es).filter fun x => x.ends? = some n

namespace Holding

/-- One if the notification has been reported sent. -/
def sents (h : Holding) : Nat :=
  h.dispatch.sentReported.toNat

/-- Whatever is written has been reported sent. -/
def Marked : Holding → Prop
  | unwritten _ => True
  | written _ _ p => p.sentReported = true

theorem sents_le_card (A : Multiset Holding) : (A.map sents).sum ≤ Multiset.card A := by
  induction A using Multiset.induction with
  | empty => exact Nat.le_refl 0
  | cons h A ih =>
    have hone : h.sents ≤ 1 := Bool.toNat_le _
    rw [Multiset.map_cons, Multiset.sum_cons, Multiset.card_cons]
    omega

end Holding

/-- What some reports come to. -/
def amount (f : MetricEvent → Nat) (R : Multiset Report) : Nat :=
  (R.map fun r => f r.metric).sum

@[simp] theorem amount_singleton (f : MetricEvent → Nat) (r : Report) :
    amount f {r} = f r.metric := by
  simp [amount]

@[simp] theorem amount_add (f : MetricEvent → Nat) (R R' : Multiset Report) :
    amount f (R + R') = amount f R + amount f R' := by
  simp [amount]

/-- Reports that go with a change of what is held. -/
structure Tally (A : Multiset Holding) (R : Multiset Report) (B : Multiset Holding) : Prop where
  marked : ∀ h ∈ B, h.Marked
  ended : amount MetricEvent.ends R + Multiset.card B = Multiset.card A
  answered : amount MetricEvent.answers R + (B.map Holding.sents).sum ≤
    amount MetricEvent.sents R + (A.map Holding.sents).sum
  sent : amount MetricEvent.sents R + Multiset.card B + (A.map Holding.sents).sum ≤
    Multiset.card A + (B.map Holding.sents).sum

variable {s : ConnectionSettings} {m : Move} {A A' B B' : Multiset Holding} {R R' : Multiset Report}

theorem Tally.add (h : Tally A R B) (h' : Tally A' R' B') : Tally (A + A') (R + R') (B + B') where
  marked := fun x hx => (Multiset.mem_add.mp hx).elim (h.marked x) (h'.marked x)
  ended := by
    have h1 := h.ended
    have h2 := h'.ended
    simp only [amount_add, Multiset.card_add]
    omega
  answered := by
    have h1 := h.answered
    have h2 := h'.answered
    simp only [amount_add, Multiset.map_add, Multiset.sum_add]
    omega
  sent := by
    have h1 := h.sent
    have h2 := h'.sent
    simp only [amount_add, Multiset.card_add, Multiset.map_add, Multiset.sum_add]
    omega

theorem Tally.of_kept {h k : Holding} (hk : k.Marked) (he : amount MetricEvent.ends R = 0)
    (ha : amount MetricEvent.answers R = 0) (hs : amount MetricEvent.sents R + h.sents = k.sents) :
    Tally {h} R {k} where
  marked := by
    intro g hg
    obtain rfl := Multiset.mem_singleton.mp hg
    exact hk
  ended := by simp [he]
  answered := by simp [ha, hs]
  sent := by
    simp only [Multiset.card_singleton, Multiset.map_singleton, Multiset.sum_singleton]
    omega

theorem Tally.of_ended {h : Holding} (he : amount MetricEvent.ends R = 1)
    (ha : amount MetricEvent.answers R ≤ amount MetricEvent.sents R + h.sents)
    (hs : amount MetricEvent.sents R + h.sents ≤ 1) : Tally {h} R 0 where
  marked := by simp
  ended := by simp [he]
  answered := by simpa using ha
  sent := by simpa using hs

theorem amounts_markSent (p : Dispatch) :
    amount MetricEvent.sents ↑p.markSent.2 + p.sentReported.toNat = 1 ∧
      amount MetricEvent.answers ↑p.markSent.2 = 0 ∧ amount MetricEvent.ends ↑p.markSent.2 = 0 ∧
      p.markSent.1.sentReported = true := by
  unfold Dispatch.markSent
  cases hp : p.sentReported with
  | false => exact ⟨rfl, rfl, rfl, rfl⟩
  | true => exact ⟨rfl, rfl, rfl, hp⟩

theorem Hop.tally {h : Holding} {k : Option Holding} (hop : Hop s m h R k) (hm : h.Marked) :
    Tally {h} R (Holding.left k) := by
  have hle : h.sents ≤ 1 := Bool.toNat_le _
  cases hop with
  | stay => exact .of_kept hm rfl rfl (Nat.zero_add _)
  | fail p e | lose c n p | failWritten c n r p e | unprocessed c n r p =>
    refine .of_ended ?_ ?_ ?_
    all_goals rw [amount_singleton]
    · rfl
    · exact Nat.zero_le _
    · exact (Nat.zero_add _).trans_le hle
  | write c n i p =>
    obtain ⟨hs, ha, he, hp⟩ := amounts_markSent p
    exact .of_kept hp he ha (hs.trans (by simp [Holding.sents, hp]))
  | misnumber c n i p cause =>
    obtain ⟨hs, ha, he, -⟩ := amounts_markSent p
    refine .of_ended ?_ ?_ ?_
    all_goals rw [amount_add, amount_singleton]
    · rw [he]
      rfl
    · rw [ha]
      exact Nat.zero_le _
    · exact le_of_eq hs
  | answer c n r p status apnsId d =>
    have hp : (Holding.written c n p).sents = 1 := congrArg Bool.toNat hm
    refine .of_ended ?_ ?_ ?_
    all_goals rw [amount_singleton]
    · cases d <;> rfl
    · rw [hp]
      cases d <;> exact Nat.le_refl 1
    · rw [hp]
      cases d <;> exact Nat.le_refl 1
  | resend c n r p => exact .of_kept trivial rfl rfl (Nat.zero_add _)
  | rewrite c n p => exact .of_kept trivial rfl rfl (Nat.zero_add _)

theorem Passage.tally (h : Passage s m A R B) (hA : ∀ x ∈ A, x.Marked) : Tally A R B := by
  induction h with
  | nothing => exact ⟨by simp, rfl, Nat.le_refl _, Nat.le_refl _⟩
  | @hop x rs k A R B hop _ ih =>
    rw [← Multiset.singleton_add]
    exact (hop.tally (hA x (Multiset.mem_cons_self x A))).add
      (ih fun y hy => hA y (Multiset.mem_cons_of_mem hy))

theorem Tally.trans {C D : Multiset Holding} (h : Tally A R B) (h' : Tally (C + B) R' D) :
    Tally (C + A) (R + R') D where
  marked := h'.marked
  ended := by
    have h1 := h.ended
    have h2 := h'.ended
    simp only [amount_add, Multiset.card_add] at h2 ⊢
    omega
  answered := by
    have h1 := h.answered
    have h2 := h'.answered
    simp only [amount_add, Multiset.map_add, Multiset.sum_add] at h2 ⊢
    omega
  sent := by
    have h1 := h.sent
    have h2 := h'.sent
    simp only [amount_add, Multiset.card_add, Multiset.map_add, Multiset.sum_add] at h2 ⊢
    omega

namespace History

variable {config : ClientConfig} {es : List Episode} {w : World}

theorem submitted_unsent (h : History config es w) :
    ∀ p ∈ submissions es, p.sentReported = false := by
  unfold History at h
  induction h with
  | nil => intro p hp; cases hp
  | @snoc es v e hr he ih =>
    intro p hp
    rw [submissions_append, submissions_one, (History.sound hr).submitted he] at hp
    rcases List.mem_append.mp hp with hp | hp
    · exact ih p hp
    · rcases World.entering_length v e.move with h0 | ⟨q, h1, -, hq, -⟩
      · rw [h0] at hp
        cases hp
      · rw [h1] at hp
        obtain rfl := List.mem_singleton.mp hp
        exact hq

theorem sents_submitted (h : History config es w) :
    ((unwritten (submissions es)).map Holding.sents).sum = 0 := by
  refine Multiset.sum_eq_zero fun x hx => ?_
  obtain ⟨g, hg, rfl⟩ := Multiset.mem_map.mp hx
  obtain ⟨p, hp, rfl⟩ := mem_unwritten.mp hg
  exact congrArg Bool.toNat (h.submitted_unsent p hp)

theorem tally (h : History config es w) :
    Tally (unwritten (submissions es)) ↑(es.flatMap Episode.reported) w.holdings := by
  unfold History at h
  induction h with
  | nil =>
    rw [(World.start_tidy config).2.1]
    exact ⟨by simp, rfl, Nat.le_refl _, Nat.le_refl _⟩
  | @snoc es v e hr he ih =>
    have hs := History.sound hr
    have hp := (hs.accounts he).passage
    have ht : Tally (unwritten e.submitted + v.holdings) ↑e.reported e.after.holdings := by
      rw [hs.submitted he]
      refine hp.tally fun x hx => ?_
      rcases Multiset.mem_add.mp hx with hx | hx
      · obtain ⟨p, -, rfl⟩ := mem_unwritten.mp hx
        exact trivial
      · exact ih.marked x hx
    have hall := ih.trans ht
    rw [submissions_append, submissions_one, unwritten_append, add_comm, List.flatMap_append,
      List.flatMap_singleton, ← Multiset.coe_add]
    exact hall

theorem isConnection_of_count (h : History config es w) :
    ∀ e ∈ es, ∀ x, .count x ∈ e.happenings → x.isConnection = true := by
  unfold History at h
  induction h with
  | nil => intro e he; cases he
  | @snoc es v e hr he ih =>
    intro f hf
    rcases List.mem_append.mp hf with hf | hf
    · exact ih f hf
    · obtain rfl := List.mem_singleton.mp hf
      exact ((History.sound hr).accounts he).counts

end History

theorem metric_isConnection (r : Report) : r.metric.isConnection = false := by
  cases r with
  | sent id => rfl
  | resolved id o =>
    cases o with
    | answered a =>
      simp only [Report.metric, MetricEvent.ofOutcome]
      split <;> rfl
    | failed e => rfl

theorem ends?_ofOutcome (n : Nat) (o : Outcome) : (MetricEvent.ofOutcome n o).ends? = some n := by
  cases o with
  | answered a =>
    simp only [MetricEvent.ofOutcome]
    split <;> rfl
  | failed e => rfl

theorem sents_ofOutcome (n : Nat) (o : Outcome) : (MetricEvent.ofOutcome n o).sents = 0 := by
  cases o with
  | answered a =>
    simp only [MetricEvent.ofOutcome]
    split <;> rfl
  | failed e => rfl

theorem ends_of_reports (n : Nat) (rs : List Report) :
    (rs.map Report.metric).filter (fun x => x.ends? = some n) =
      ((rs.filter fun r => r.id = n).filterMap Report.outcome?).map (.ofOutcome n) := by
  induction rs with
  | nil => rfl
  | cons r rs ih =>
    rw [List.map_cons]
    cases r with
    | sent id =>
      rw [List.filter_cons_of_neg (by simp [Report.metric, MetricEvent.ends?]), ih]
      by_cases hid : id = n
      · rw [List.filter_cons_of_pos (by simp [hid]), List.filterMap_cons_none rfl]
      · rw [List.filter_cons_of_neg (by simp [hid])]
    | resolved id o =>
      have he : (Report.resolved id o).metric.ends? = some id := ends?_ofOutcome id o
      by_cases hid : id = n
      · subst hid
        rw [List.filter_cons_of_pos (by simpa using he), List.filter_cons_of_pos (by simp),
          List.filterMap_cons_some (f := Report.outcome?) rfl, List.map_cons, ih]
        rfl
      · rw [List.filter_cons_of_neg (by simpa [he] using hid),
          List.filter_cons_of_neg (by simp [hid]), ih]

theorem sents_of_reports (n : Nat) (rs : List Report) :
    (rs.map Report.metric).count (.sent n) =
      amount MetricEvent.sents ↑(rs.filter fun r => r.id = n) := by
  have hcons (r : Report) (rs : List Report) : amount MetricEvent.sents ↑(r :: rs) =
      r.metric.sents + amount MetricEvent.sents ↑rs := by
    rw [← amount_singleton MetricEvent.sents r, ← amount_add]
    rfl
  induction rs with
  | nil => rfl
  | cons r rs ih =>
    rw [List.map_cons]
    cases r with
    | sent id =>
      by_cases hid : id = n
      · subst hid
        rw [List.filter_cons_of_pos (by simp), hcons, ← ih]
        change (MetricEvent.sent id :: _).count _ = 1 + _
        rw [List.count_cons_self, add_comm]
      · rw [List.filter_cons_of_neg (by simp [hid]), ← ih]
        refine List.count_cons_of_ne ?_
        simpa [Report.metric] using hid
    | resolved id o =>
      have hs : (Report.resolved id o).metric.sents = 0 := sents_ofOutcome id o
      have hne : (Report.resolved id o).metric ≠ .sent n := by
        intro he
        rw [he] at hs
        cases hs
      rw [List.count_cons_of_ne hne, ih]
      by_cases hid : id = n
      · rw [List.filter_cons_of_pos (by simp [hid]), hcons, hs, zero_add]
      · rw [List.filter_cons_of_neg (by simp [hid])]

theorem metrics_of_happenings (hs : List Happening)
    (hc : ∀ x, .count x ∈ hs → x.isConnection = true) :
    (hs.filterMap Happening.metric?).filter (fun x => !x.isConnection) =
      (World.reported hs).map Report.metric := by
  induction hs with
  | nil => rfl
  | cons a hs ih =>
    have hrest := ih fun x hx => hc x (List.mem_cons_of_mem a hx)
    cases a with
    | report r =>
      change (r.metric :: hs.filterMap Happening.metric?).filter _ =
        r.metric :: (World.reported hs).map Report.metric
      rw [List.filter_cons_of_pos (by simp [metric_isConnection r]), hrest]
    | count x =>
      change (x :: hs.filterMap Happening.metric?).filter _ = _
      rw [List.filter_cons_of_neg (by simp [hc x List.mem_cons_self])]
      exact hrest
    | _ => exact hrest

section Events

variable {es : List Episode} (hc : ∀ e ∈ es, ∀ x, .count x ∈ e.happenings → x.isConnection = true)

include hc

theorem metrics_eq :
    (metrics es).filter (fun x => !x.isConnection) =
      (es.flatMap Episode.reported).map Report.metric := by
  induction es with
  | nil => rfl
  | cons e es ih =>
    have hone := metrics_of_happenings e.happenings (hc e List.mem_cons_self)
    have hrest := ih fun f hf => hc f (List.mem_cons_of_mem e hf)
    rw [metrics, List.flatMap_cons, List.filter_append, List.flatMap_cons, List.map_append]
    exact congrArg₂ (· ++ ·) hone hrest

/-- The events that are about notifications, in whatever way they are chosen. -/
theorem metrics_filter (q : MetricEvent → Bool) (hq : ∀ x, x.isConnection = true → q x = false) :
    (metrics es).filter q = ((es.flatMap Episode.reported).map Report.metric).filter q := by
  rw [← metrics_eq hc, List.filter_filter]
  refine List.filter_congr fun x _ => ?_
  cases hx : x.isConnection with
  | true => simp [hq x hx]
  | false => simp

theorem terminals_eq (n : Nat) : terminals n es = (outcomes n es).map (.ofOutcome n) := by
  rw [terminals, metrics_filter hc]
  · exact ends_of_reports n (es.flatMap Episode.reported)
  · intro x hx
    simp [(MetricEvent.nothing_of_connection hx).1]

theorem count_sent (n : Nat) :
    (metrics es).count (.sent n) = amount MetricEvent.sents ↑(reportsOn n es) := by
  rw [reportsOn, ← sents_of_reports, ← metrics_eq hc]
  exact (List.count_filter rfl).symm

theorem sum_metrics (f : MetricEvent → Nat) (hf : ∀ x, x.isConnection = true → f x = 0) :
    ((metrics es).map f).sum = amount f ↑(es.flatMap Episode.reported) := by
  have hfilter (xs : List MetricEvent) :
      (xs.map f).sum = ((xs.filter fun x => !x.isConnection).map f).sum := by
    induction xs with
    | nil => rfl
    | cons x xs ih =>
      cases hx : x.isConnection with
      | true =>
        rw [List.filter_cons_of_neg (by simp [hx]), ← ih, List.map_cons, List.sum_cons, hf x hx,
          zero_add]
      | false =>
        rw [List.filter_cons_of_pos (by simp [hx]), List.map_cons, List.sum_cons, ih, List.map_cons,
          List.sum_cons]
  rw [hfilter, metrics_eq hc, List.map_map, amount, Multiset.map_coe, Multiset.sum_coe]
  rfl

end Events

namespace Totals

theorem ofEvents_sums (xs : List MetricEvent) :
    (ofEvents xs).sent = (xs.map MetricEvent.sents).sum ∧
      (ofEvents xs).accepted + (ofEvents xs).rejected = (xs.map MetricEvent.answers).sum ∧
      (ofEvents xs).completed = (xs.map MetricEvent.ends).sum := by
  have hfold (t : Totals) : (xs.foldl count t).sent = t.sent + (xs.map MetricEvent.sents).sum ∧
      (xs.foldl count t).accepted + (xs.foldl count t).rejected =
        t.accepted + t.rejected + (xs.map MetricEvent.answers).sum ∧
      (xs.foldl count t).completed = t.completed + (xs.map MetricEvent.ends).sum := by
    induction xs generalizing t with
    | nil => exact ⟨rfl, rfl, rfl⟩
    | cons x xs ih =>
      obtain ⟨hs, ha, he⟩ := ih (t.count x)
      rw [List.foldl_cons, hs, ha, he, List.map_cons, List.map_cons, List.map_cons, List.sum_cons,
        List.sum_cons, List.sum_cons]
      cases x <;>
        simp [count, completed, MetricEvent.sents, MetricEvent.answers, MetricEvent.ends] <;> omega
  have h := hfold {}
  simpa [ofEvents, completed] using h

end Totals

/-- Only what is written can be answered. -/
theorem Hop.written_of_answered {h : Holding} {o : Outcome} (hop : Hop s m h R none)
    (ho : R.filterMap Report.outcome? = {o}) (hf : ∀ x, o ≠ .failed x) :
    ∃ c n p, h = .written c n p := by
  cases hop with
  | fail p e =>
    have he : ({.failed e} : Multiset Outcome) = {o} := ho
    exact absurd (Multiset.singleton_inj.mp he).symm (hf e)
  | misnumber c n i p cause =>
    rw [Multiset.filterMap_add, markSent_outcome, zero_add] at ho
    have he : ({.failed (.writeFailed cause)} : Multiset Outcome) = {o} := ho
    exact absurd (Multiset.singleton_inj.mp he).symm (hf _)
  | lose c n p | answer c n r p | failWritten c n r p | unprocessed c n r p => exact ⟨c, n, p, rfl⟩

namespace Story

variable {config : ClientConfig} {n : Nat} {es : List Episode} {w : World} {k : Option Holding}

theorem tally (h : Story config n es w k) :
    ∃ p : Dispatch, p.sentReported = false ∧
      Tally {.unwritten p} ↑(reportsOn n es) (Holding.left k) := by
  induction h with
  | @enter es w e p k run he hp hid hn hop _ =>
    have hm : p ∈ submissions (es ++ [e]) := by simp [hp]
    refine ⟨p, (run.snoc he).submitted_unsent p hm, ?_⟩
    rw [reportsOn_append, quiet_before run hn]
    exact hop.tally trivial
  | @move es w e h k _ _ _ hop _ ih =>
    obtain ⟨p, hp, ht⟩ := ih
    refine ⟨p, hp, ?_⟩
    have hmarked := ht.marked h (Multiset.mem_singleton_self h)
    have hnext : Tally (0 + Holding.left (some h)) ↑(reportsOn n [e]) (Holding.left k) := by
      rw [zero_add]
      exact hop.tally hmarked
    have htrans := ht.trans hnext
    rw [zero_add] at htrans
    rw [reportsOn_append, ← Multiset.coe_add]
    exact htrans
  | rest _ _ _ hq _ ih =>
    obtain ⟨p, hp, ht⟩ := ih
    refine ⟨p, hp, ?_⟩
    rw [reportsOn_append, hq, List.append_nil]
    exact ht

theorem sents_le_one (h : Story config n es w k) :
    amount MetricEvent.sents ↑(reportsOn n es) ≤ 1 := by
  obtain ⟨p, -, ht⟩ := h.tally
  have hs := ht.sent
  simp only [Multiset.card_singleton] at hs
  cases k with
  | none =>
    simp only [Holding.left, Multiset.card_zero, Multiset.map_zero, Multiset.sum_zero] at hs
    omega
  | some g =>
    have hg : g.sents ≤ 1 := Bool.toNat_le _
    simp only [Holding.left, Multiset.card_singleton, Multiset.map_singleton,
      Multiset.sum_singleton] at hs
    omega

theorem sent_of_written {c m : Nat} {p : Dispatch}
    (h : Story config n es w (some (.written c m p))) :
    0 < amount MetricEvent.sents ↑(reportsOn n es) := by
  obtain ⟨q, hq, ht⟩ := h.tally
  have hm : p.sentReported = true := ht.marked _ (Multiset.mem_singleton_self _)
  have ha := ht.answered
  simp only [Holding.left, Multiset.map_singleton, Multiset.sum_singleton, Holding.sents,
    Holding.dispatch_written, Holding.dispatch_unwritten, hm, hq] at ha
  simp only [Bool.toNat_true, Bool.toNat_false] at ha
  omega

theorem exists_ending (h : Story config n es w none) :
    ∃ pre e post o, es = pre ++ e :: post ∧ outcomes n pre = [] ∧ outcomes n [e] = [o] ∧
      reportsOn n post = [] ∧ (e.before.held n ≠ 0 ∨ ∃ p ∈ e.submitted, p.id = n) ∧
      e.after.held n = 0 ∧
      ((∀ x, o ≠ .failed x) → 0 < amount MetricEvent.sents ↑(reportsOn n pre)) := by
  generalize hk : (none : Option Holding) = k at h
  induction h with
  | @enter es w e p k run he hp hid hn hop held =>
    subst hk
    obtain ⟨o, ho⟩ := hop.one_outcome
    have hone : outcomes n [e] = [o] := by rwa [← coe_outcomes, Multiset.coe_eq_singleton] at ho
    refine ⟨es, e, [], o, rfl, ?_, hone, rfl, .inr ⟨p, by simp [hp], hid⟩, held, fun hf => ?_⟩
    · rw [outcomes, quiet_before run hn]
      rfl
    · obtain ⟨c, m, q, hq⟩ := hop.written_of_answered ho hf
      cases hq
  | @move es w e h k story he hno hop held _ =>
    subst hk
    obtain ⟨o, ho⟩ := hop.one_outcome
    have hone : outcomes n [e] = [o] := by rwa [← coe_outcomes, Multiset.coe_eq_singleton] at ho
    have hnone : outcomes n es = [] := story.outcomes_of_holding.1 (by simp)
    refine ⟨es, e, [], o, rfl, hnone, hone, rfl, .inl ?_, held, fun hf => ?_⟩
    · rw [he.1, story.held_eq]
      exact Multiset.singleton_ne_zero h
    · obtain ⟨c, m, q, rfl⟩ := hop.written_of_answered ho hf
      exact story.sent_of_written
  | @rest es w e story he hno hq held ih =>
    obtain ⟨pre, f, post, o, rfl, h1, h2, h3, h4, h5, h6⟩ := ih rfl
    refine ⟨pre, f, post ++ [e], o, by simp, h1, h2, ?_, h4, h5, h6⟩
    rw [reportsOn_append, h3, hq]
    rfl

end Story

theorem World.placesOf_ne_nil {n : Nat} {w : World} (h : w.held n ≠ 0) : w.placesOf n ≠ [] := by
  intro hp
  rw [← World.coe_placesOf, hp] at h
  exact h rfl

namespace History

variable {config : ClientConfig} {es : List Episode} {w : World} {n : Nat}

theorem sent_once (h : History config es w) (n : Nat) : (metrics es).count (.sent n) ≤ 1 := by
  rw [count_sent h.isConnection_of_count]
  rcases Story.exists_of_history h n with ⟨-, k, story⟩ | ⟨-, -, hq⟩
  · exact story.sents_le_one
  · rw [hq]
    exact Nat.zero_le _

/-- Nothing is counted for what never came. -/
theorem uncounted_of_absent (h : History config es w) (hn : ∀ p ∈ submissions es, p.id ≠ n) :
    (metrics es).count (.sent n) = 0 ∧ terminals n es = [] := by
  rcases Story.exists_of_history h n with ⟨hm, -⟩ | ⟨-, -, hq⟩
  · obtain ⟨p, hp, hid⟩ := List.mem_map.mp hm
    exact absurd hid (hn p hp)
  · rw [count_sent h.isConnection_of_count, terminals_eq h.isConnection_of_count, outcomes, hq]
    exact ⟨rfl, rfl⟩

theorem terminals_of_resolved {p : Dispatch} (h : History config es w) (hp : p ∈ submissions es)
    (story : Story config p.id es w none) :
    ∃ pre e post o, es = pre ++ e :: post ∧ outcomes p.id [e] = [o] ∧
      (e.before.placesOf p.id ≠ [] ∨ p ∈ e.submitted) ∧ e.after.placesOf p.id = [] ∧
      terminals p.id pre = [] ∧ terminals p.id [e] = [.ofOutcome p.id o] ∧
      terminals p.id post = [] ∧
      ((∀ x, o ≠ .failed x) → .sent p.id ∈ metrics pre) := by
  have hc := h.isConnection_of_count
  obtain ⟨pre, e, post, o, rfl, hpre, hone, hpost, hbefore, hafter, hsent⟩ := story.exists_ending
  have hcpre := fun f hf => hc f (List.mem_append_left (e :: post) hf)
  have hcone : ∀ f ∈ [e], ∀ x, .count x ∈ f.happenings → x.isConnection = true :=
    fun f hf => hc f (List.mem_append_right pre
      (List.mem_cons.mpr (.inl (List.mem_singleton.mp hf))))
  have hcpost := fun f hf => hc f (List.mem_append_right pre (List.mem_cons_of_mem e hf))
  refine ⟨pre, e, post, o, rfl, hone, ?_, World.placesOf_eq_nil hafter, ?_, ?_, ?_, ?_⟩
  · refine hbefore.imp World.placesOf_ne_nil ?_
    rintro ⟨q, hq, hid⟩
    have hmem : q ∈ submissions (pre ++ e :: post) := by
      simp [submissions, hq]
    have heq := List.inj_on_of_nodup_map h.submitted_nodup hmem hp hid
    rwa [heq] at hq
  · rw [terminals_eq hcpre, hpre]
    rfl
  · rw [terminals_eq hcone, hone]
    rfl
  · rw [terminals_eq hcpost, outcomes, hpost]
    rfl
  · intro hf
    have hpos := hsent hf
    rw [← count_sent hcpre] at hpos
    exact List.count_pos_iff.mp hpos

theorem totals_bounds (h : History config es w) :
    (totals es).accepted + (totals es).rejected ≤ (totals es).sent ∧
    (totals es).sent ≤ (submissions es).length ∧
    (totals es).accepted + (totals es).rejected + (totals es).writeFailures + w.places.length =
      (submissions es).length := by
  have hc := h.isConnection_of_count
  obtain ⟨hsent, hanswers, hends⟩ := Totals.ofEvents_sums (metrics es)
  change (totals es).sent = _ at hsent
  change (totals es).accepted + (totals es).rejected = _ at hanswers
  change (totals es).accepted + (totals es).rejected + (totals es).writeFailures = _ at hends
  have hzero := h.sents_submitted
  have hlength : Multiset.card (unwritten (submissions es)) = (submissions es).length := by
    simp [unwritten]
  have hplaces : w.places.length = Multiset.card w.holdings := by
    rw [← World.coe_places, Multiset.coe_card, List.length_map]
  have hheld := Holding.sents_le_card w.holdings
  -- Every total is a sum over the reports, and the tally ties those to what came and what is held.
  obtain ⟨-, he, ha, hs⟩ := h.tally
  rw [← sum_metrics hc _ fun x hx => (MetricEvent.nothing_of_connection hx).2.1] at hs ha
  rw [← sum_metrics hc _ fun x hx => (MetricEvent.nothing_of_connection hx).2.2.1] at ha
  rw [← sum_metrics hc _ fun x hx => (MetricEvent.nothing_of_connection hx).2.2.2] at he
  rw [hzero] at hs ha
  rw [hlength] at hs he
  refine ⟨?_, ?_, ?_⟩ <;> omega

end History

/-- Every notification reports once at most that it was sent, and once that it has ended: in the
step that resolves it, after it was sent if the gateway has answered. So the totals add up. -/
theorem metrics_add_up (config : ClientConfig) (es : List Episode) (w : World)
    (h : History config es w) :
    (∀ n, (metrics es).count (.sent n) ≤ 1) ∧
    (∀ n, (∀ p ∈ submissions es, p.id ≠ n) →
      (metrics es).count (.sent n) = 0 ∧ terminals n es = []) ∧
    (∀ p ∈ submissions es,
      (w.placesOf p.id ≠ [] ∧ terminals p.id es = []) ∨
      (∃ pre e post o, es = pre ++ e :: post ∧ outcomes p.id [e] = [o] ∧
        (e.before.placesOf p.id ≠ [] ∨ p ∈ e.submitted) ∧ e.after.placesOf p.id = [] ∧
        terminals p.id pre = [] ∧ terminals p.id [e] = [.ofOutcome p.id o] ∧
        terminals p.id post = [] ∧
        ((∀ x, o ≠ .failed x) → .sent p.id ∈ metrics pre))) ∧
    (totals es).accepted + (totals es).rejected ≤ (totals es).sent ∧
    (totals es).sent ≤ (submissions es).length ∧
    (totals es).accepted + (totals es).rejected + (totals es).writeFailures + w.places.length =
      (submissions es).length := by
  refine ⟨h.sent_once, fun n hn => h.uncounted_of_absent hn, ?_, h.totals_bounds⟩
  intro p hp
  rcases Story.exists_of_history h p.id with ⟨-, k, story⟩ | ⟨hn, -⟩
  · cases k with
    | some g =>
      refine .inl ⟨World.placesOf_ne_nil ?_, ?_⟩
      · rw [story.held_eq]
        exact Multiset.singleton_ne_zero g
      · rw [terminals_eq h.isConnection_of_count, story.outcomes_of_holding.1 (by simp)]
        rfl
    | none => exact .inr (h.terminals_of_resolved hp story)
  · exact absurd (List.mem_map.mpr ⟨p, hp, rfl⟩) hn

theorem metrics_of_delivery : ∃ es w, History .plain es w ∧ (submissions es).length = 1 ∧
    (metrics es).count (.sent 1) ≤ 1 ∧
    (totals es).accepted + (totals es).rejected + (totals es).writeFailures + w.places.length =
      1 := by
  have hd : delivery.any (fun x => (submissions x.1).length == 1) = true := by decide +kernel
  obtain ⟨⟨es, w⟩, hplay, hx⟩ := (Option.any_eq_true _ _).mp hd
  have hrun : History .plain es w := (Run.of_play hplay).1
  have hone : (submissions es).length = 1 := beq_iff_eq.mp hx
  obtain ⟨hsent, -, -, -, -, htotal⟩ := metrics_add_up .plain es w hrun
  exact ⟨es, w, hrun, hone, hsent 1, hone ▸ htotal⟩

end PushDelivery
