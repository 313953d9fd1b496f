import PushDelivery.Proofs.Run

namespace PushDelivery

def Report.outcome? : Report → Option Outcome
  | sent _ => none
  | resolved _ o => some o

/-- How a notification was resolved, as often as it was. -/
def outcomes (n : Nat) (es : List Episode) : List Outcome :=
  (reportsOn n es).filterMap Report.outcome?

/-- What came while the client was open, at the moment at which it was submitted. -/
def sends (es : List Episode) : List Notification :=
  es.filterMap fun e =>
    match e.move with
    | .send n => if e.before.isOpen then some n else none
    | .submit n => some n
    | _ => none

/-- Where a notification is. -/
def World.placesOf (n : Nat) (w : World) : List (Place × Dispatch) :=
  w.places.filter fun x => x.2.id = n

@[simp] theorem outcomes_append (n : Nat) (es fs : List Episode) :
    outcomes n (es ++ fs) = outcomes n es ++ outcomes n fs := by
  simp [outcomes]

theorem coe_outcomes (n : Nat) (es : List Episode) :
    (↑(outcomes n es) : Multiset Outcome) =
      Multiset.filterMap Report.outcome? ↑(reportsOn n es) := rfl

namespace Hop

variable {s : ConnectionSettings} {m : Move} {h : Holding} {R : Multiset Report}

theorem markSent_outcome (p : Dispatch) :
    Multiset.filterMap Report.outcome? ↑p.markSent.2 = 0 := by
  unfold Dispatch.markSent
  split <;> rfl

/-- As long as a notification is held it is not resolved. -/
theorem no_outcome {k : Holding} (hop : Hop s m h R (some k)) :
    R.filterMap Report.outcome? = 0 := by
  cases hop with
  | stay | resend | rewrite => rfl
  | write c n i p hi => exact markSent_outcome p

theorem one_outcome (hop : Hop s m h R none) : ∃ o, R.filterMap Report.outcome? = {o} := by
  cases hop with
  | misnumber c n i p cause hi =>
    refine ⟨.failed (.writeFailed cause), ?_⟩
    rw [Multiset.filterMap_add, markSent_outcome, zero_add]
    rfl
  | fail p e he => exact ⟨.failed e, rfl⟩
  | lose c n p => exact ⟨.failed .streamClosed, rfl⟩
  | answer c n r p status apnsId d hd => exact ⟨.answered ⟨p.notification, status, apnsId, d⟩, rfl⟩
  | failWritten c n r p e he => exact ⟨.failed e, rfl⟩
  | unprocessed c n r p hr => exact ⟨.failed .notProcessed, rfl⟩

end Hop

theorem Place.dispatch_holding (place : Place) (p : Dispatch) :
    (place.holding p).dispatch = p := by
  cases place <;> rfl

theorem Place.id_holding (place : Place) (p : Dispatch) : (place.holding p).id = p.id :=
  congrArg Dispatch.id (place.dispatch_holding p)

namespace World

theorem coe_placesOf (n : Nat) (w : World) :
    (↑((w.placesOf n).map fun x => x.1.holding x.2) : Multiset Holding) = w.held n := by
  rw [held, ← coe_places, placesOf, Multiset.filter_coe, List.filter_map]
  simp only [Function.comp_def, Place.id_holding]

theorem placesOf_eq_nil {n : Nat} {w : World} (h : w.held n = 0) : w.placesOf n = [] := by
  rw [← coe_placesOf, Multiset.coe_eq_zero] at h
  exact List.map_eq_nil_iff.mp h

theorem placesOf_eq_one {n : Nat} {w : World} {h : Holding} (hw : w.held n = {h}) :
    ∃ place, w.placesOf n = [(place, h.dispatch)] := by
  rw [← coe_placesOf, Multiset.coe_eq_singleton] at hw
  obtain ⟨x, hx, rfl⟩ := List.map_eq_singleton_iff.mp hw
  rw [Place.dispatch_holding]
  exact ⟨x.1, hx⟩

end World

namespace History

variable {config : ClientConfig} {es : List Episode} {w : World}

theorem submissions_eq_sends (h : History config es w) :
    (submissions es).map Dispatch.notification = sends es := by
  unfold History at h
  induction h with
  | nil => rfl
  | @snoc es v e hr he ih =>
    have hs := (History.sound hr).submitted he
    obtain ⟨rfl, -⟩ := he
    rw [submissions_append, submissions_one, List.map_append, ih, hs, sends, sends,
      List.filterMap_append]
    congr 1
    unfold World.entering
    cases hm : e.move with
    | send n => cases ho : e.before.isOpen <;> simp [hm, ho, World.incoming]
    | submit n => simp [hm, World.incoming]
    | _ => simp [hm]

theorem holdings_of_over (h : History config es w) (hp : w.pool.ended = true)
    (hc : w.connections = []) : w.holdings = 0 := by
  obtain ⟨hq, hw⟩ := h.sound.tidy.settled hp
  simp [World.holdings, hq, hw, hc]

end History

namespace Story

variable {config : ClientConfig} {n : Nat} {es fs : List Episode} {w v : World}
  {k : Option Holding}

theorem quiet_before (h : History config es w) (hn : n = w.ids.next) : reportsOn n es = [] := by
  rcases exists_of_history h n with ⟨hm, -⟩ | ⟨-, -, hq⟩
  · obtain ⟨p, hp, hid⟩ := List.mem_map.mp hm
    have hlt := h.submitted_lt p hp
    omega
  · exact hq

theorem outcomes_of_holding (h : Story config n es w k) :
    (k ≠ none → outcomes n es = []) ∧ (k = none → ∃ o, outcomes n es = [o]) := by
  have hop_outcomes {s : ConnectionSettings} {e : Episode} {h : Holding} {k : Option Holding}
      (hop : Hop s e.move h ↑(reportsOn n [e]) k) :
      (k ≠ none → outcomes n [e] = []) ∧ (k = none → ∃ o, outcomes n [e] = [o]) := by
    constructor
    · intro hk
      obtain ⟨g, rfl⟩ := Option.ne_none_iff_exists'.mp hk
      have ho := hop.no_outcome
      rwa [← coe_outcomes, Multiset.coe_eq_zero] at ho
    · rintro rfl
      obtain ⟨o, ho⟩ := hop.one_outcome
      rw [← coe_outcomes, Multiset.coe_eq_singleton] at ho
      exact ⟨o, ho⟩
  induction h with
  | enter run _ _ _ hn hop _ =>
    rw [outcomes_append, outcomes, quiet_before run hn]
    exact hop_outcomes hop
  | move _ _ _ hop _ ih =>
    rw [outcomes_append, ih.1 (by simp)]
    exact hop_outcomes hop
  | @rest es w e _ _ _ hq _ ih =>
    have he : outcomes n [e] = [] := by rw [outcomes, hq]; rfl
    rw [outcomes_append, he, List.append_nil]
    exact ih

theorem none_lasts (h : Story config n es w none) (hr : Run w fs v) :
    Story config n (es ++ fs) v none ∧ reportsOn n fs = [] := by
  induction hr with
  | nil => exact ⟨by simpa using h, rfl⟩
  | @snoc fs u e hr he ih =>
    obtain ⟨hs, hq⟩ := ih
    have hheld := hs.held_eq
    -- It has come in before, so the episode cannot bring it in, and it is nowhere to be moved.
    have hlt : n < u.ids.next := by
      rcases exists_of_history hs.history n with ⟨hm, -⟩ | ⟨-, -, hq⟩
      · obtain ⟨p, hp, rfl⟩ := List.mem_map.mp hm
        exact hs.history.submitted_lt p hp
      · obtain ⟨o, ho⟩ := hs.outcomes_of_holding.2 rfl
        simp [outcomes, hq] at ho
    rw [← List.append_assoc, reportsOn_append, hq]
    rcases hs.history.sound.held_cases he n with
      ⟨hno, -, hr, hb⟩ | ⟨p, k, -, -, hn, -⟩ | ⟨g, k, -, h1, -⟩
    · exact ⟨.rest hs he hno hr hb, hr⟩
    · omega
    · rw [hheld] at h1
      exact absurd h1.symm (Multiset.singleton_ne_zero g)

theorem notification_eq (h : Story config n es w k) :
    ∀ g, k = some g → ∀ p ∈ submissions es, p.id = n →
      g.dispatch.notification = p.notification := by
  induction h with
  | @enter es w e p k run he hp hid hn hop _ =>
    rintro g rfl q hq hqid
    rw [submissions_append, submissions_one, hp] at hq
    rcases List.mem_append.mp hq with hq | hq
    · have hlt := run.submitted_lt q hq
      omega
    · obtain rfl := List.mem_singleton.mp hq
      exact hop.same.2
  | @move es w e h k _ _ hno hop _ ih =>
    rintro g rfl q hq hqid
    rw [submissions_append, submissions_one] at hq
    rcases List.mem_append.mp hq with hq | hq
    · exact hop.same.2.trans (ih h rfl q hq hqid)
    · exact absurd hqid (hno q hq)
  | rest => rintro g hg; cases hg

end Story

/-- Every notification that comes while the client is open is at every moment of every run either
resolved, once and for all times in the same way, or in exactly one place. -/
theorem exactly_one_outcome (config : ClientConfig) (es : List Episode) (w : World)
    (h : History config es w) :
    (submissions es).map Dispatch.notification = sends es ∧
    ((submissions es).map Dispatch.id).Nodup ∧
    (∀ p ∈ submissions es,
      (∃ o, outcomes p.id es = [o] ∧ w.placesOf p.id = [] ∧
        ∀ fs v, Run w fs v → outcomes p.id (es ++ fs) = [o] ∧ v.placesOf p.id = []) ∨
      (outcomes p.id es = [] ∧ ∃ place q, w.placesOf p.id = [(place, q)] ∧
        q.notification = p.notification)) ∧
    (w.pool.ended = true → w.connections = [] →
      ∀ p ∈ submissions es, ∃ o, outcomes p.id es = [o]) := by
  have hstory : ∀ p ∈ submissions es, ∃ k, Story config p.id es w k := by
    intro p hp
    rcases Story.exists_of_history h p.id with ⟨-, hk⟩ | ⟨hn, -⟩
    · exact hk
    · exact absurd (List.mem_map.mpr ⟨p, hp, rfl⟩) hn
  refine ⟨h.submissions_eq_sends, h.submitted_nodup, ?_, ?_⟩
  · intro p hp
    obtain ⟨k, story⟩ := hstory p hp
    have hheld := story.held_eq
    cases k with
    | none =>
      obtain ⟨o, ho⟩ := story.outcomes_of_holding.2 rfl
      refine .inl ⟨o, ho, World.placesOf_eq_nil hheld, ?_⟩
      intro fs v hr
      obtain ⟨later, hq⟩ := story.none_lasts hr
      refine ⟨?_, World.placesOf_eq_nil later.held_eq⟩
      rw [outcomes_append, ho, outcomes, hq]
      rfl
    | some g =>
      obtain ⟨place, hplace⟩ := World.placesOf_eq_one hheld
      exact .inr ⟨story.outcomes_of_holding.1 (by simp), place, g.dispatch, hplace,
        story.notification_eq g rfl p hp rfl⟩
  · intro hended hgone p hp
    obtain ⟨k, story⟩ := hstory p hp
    have hheld := story.held_eq
    rw [World.held, h.holdings_of_over hended hgone] at hheld
    cases k with
    | none => exact story.outcomes_of_holding.2 rfl
    | some g => exact absurd hheld.symm (Multiset.singleton_ne_zero g)

theorem one_outcome_of_delivery : ∃ es w, History .plain es w ∧
    ∃ o, outcomes 1 es = [o] ∧ w.placesOf 1 = [] ∧
      ∀ fs v, Run w fs v → outcomes 1 (es ++ fs) = [o] := by
  have hd : delivery.any (fun x => (submissions x.1).any (fun p => p.id == 1) &&
      !(outcomes 1 x.1).isEmpty) = true := by decide +kernel
  obtain ⟨⟨es, w⟩, hplay, hx⟩ := (Option.any_eq_true _ _).mp hd
  have hrun : History .plain es w := (Run.of_play hplay).1
  obtain ⟨hs, ho⟩ := Bool.and_eq_true_iff.mp hx
  obtain ⟨p, hp, hid⟩ := List.any_eq_true.mp hs
  obtain ⟨-, -, hall, -⟩ := exactly_one_outcome .plain es w hrun
  have h := hall p hp
  rw [beq_iff_eq.mp hid] at h
  rcases h with ⟨o, hone, hplaces, hlater⟩ | ⟨hnone, -⟩
  · exact ⟨es, w, hrun, o, hone, hplaces, fun fs v hr => (hlater fs v hr).1⟩
  · simp [hnone] at ho

end PushDelivery
