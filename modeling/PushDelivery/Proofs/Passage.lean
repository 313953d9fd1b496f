import PushDelivery.Proofs.Places

namespace PushDelivery

namespace Reply

/-- The gateway has refused the notification because the provider's token is too old. -/
def isExpired (r : Reply) : Bool :=
  !isSuccess r.status &&
    (RefusalBody.decode r.body).reason.map Rejection.ofText == some .expiredProviderToken

end Reply

def Decision.isAccepted : Decision → Bool
  | accepted _ => true
  | rejected _ _ => false

/-- The stream that a write has opened, with its payload. -/
def ConnectionInput.opened? : ConnectionInput → Option Nat
  | retry (.opened n) | command (.opened n) => some n
  | _ => none

def Report.id : Report → Nat
  | sent id => id
  | resolved id _ => id

@[simp] theorem Report.id_sent (n : Nat) : (sent n).id = n := rfl

@[simp] theorem Report.id_resolved (n : Nat) (o : Outcome) : (resolved n o).id = n := rfl

/-- What one move can do to one notification. -/
inductive Hop (s : ConnectionSettings) : Move → Holding → Multiset Report → Option Holding → Prop
  | stay {m : Move} (h : Holding) : Hop s m h 0 (some h)
  | fail {m : Move} (p : Dispatch) (e : SendError) (he : e ≠ .notProcessed) :
      Hop s m (.unwritten p) {p.fail e} none
  | lose {m : Move} (c n : Nat) (p : Dispatch) : Hop s m (.written c n p) {p.drop} none
  | write (c n : Nat) (i : ConnectionInput) (p : Dispatch) (hi : i.opened? = some n) :
      Hop s (.connection c i) (.unwritten p) ↑p.markSent.2 (some (.written c n p.markSent.1))
  /-- The stream has a number that was given before. -/
  | misnumber (c n : Nat) (i : ConnectionInput) (p : Dispatch) (cause : String)
      (hi : i.opened? = some n) :
      Hop s (.connection c i) (.unwritten p)
        (↑p.markSent.2 + {p.markSent.1.fail (.writeFailed cause)}) none
  | answer (c n : Nat) (r : Reply) (p : Dispatch) (status : Nat) (apnsId : Option Uuid)
      (d : Decision) (hd : d.isAccepted = true → Reply.isSuccess r.status = true) :
      Hop s (.connection c (.result n (.reply r))) (.written c n p) {p.answer status apnsId d} none
  | failWritten (c n : Nat) (r : StreamResult) (p : Dispatch) (e : SendError)
      (he : e ≠ .notProcessed) :
      Hop s (.connection c (.result n r)) (.written c n p) {p.fail e} none
  | unprocessed (c n : Nat) (r : StreamResult) (p : Dispatch)
      (hr : r = .reset Connection.refusedCode ∨ r = .goneAway) :
      Hop s (.connection c (.result n r)) (.written c n p) {p.fail .notProcessed} none
  | resend (c n : Nat) (r : Reply) (p : Dispatch) (hr : r.isExpired = true)
      (hs : s.retryExpiredTokens = true) (hp : p.expiredRetried = false) :
      Hop s (.connection c (.result n (.reply r))) (.written c n p) 0
        (some (.unwritten { p with expiredRetried := true }))
  | rewrite (c n : Nat) (p : Dispatch) (hp : p.refusedRetried = false) :
      Hop s (.connection c (.result n (.reset Connection.refusedCode))) (.written c n p) 0
        (some (.unwritten { p with refusedRetried := true }))

/-- Where a notification is after a hop, as a collection of one or none. -/
def Holding.left : Option Holding → Multiset Holding
  | none => 0
  | some h => {h}

/-- What a move does to all notifications: those that there are before, what is reported, and those
that there are after. -/
inductive Passage (s : ConnectionSettings) (m : Move) :
    Multiset Holding → Multiset Report → Multiset Holding → Prop
  | nothing : Passage s m 0 0 0
  | hop {h : Holding} {rs : Multiset Report} {k : Option Holding} {A : Multiset Holding}
      {R : Multiset Report} {B : Multiset Holding} :
      Hop s m h rs k → Passage s m A R B →
        Passage s m (h ::ₘ A) (rs + R) (Holding.left k + B)

variable {s : ConnectionSettings} {m : Move}

namespace Hop

theorem markSent_fst (p : Dispatch) : p.markSent.1 = { p with sentReported := true } := by
  unfold Dispatch.markSent
  split
  · rename_i hs
    rw [← hs]
  · rfl

theorem report_id {h : Holding} {rs : Multiset Report} {k : Option Holding}
    (hop : Hop s m h rs k) : ∀ r ∈ rs, r.id = h.id := by
  have hm (p : Dispatch) : ∀ r ∈ p.markSent.2, r.id = p.id := by
    intro r hr
    unfold Dispatch.markSent at hr
    split at hr
    · simp at hr
    · obtain rfl : r = .sent p.id := by simpa using hr
      rfl
  cases hop with
  | stay | resend | rewrite => intro r hr; simp at hr
  | write c n i p hi => exact fun r hr => hm p r hr
  | misnumber c n i p cause hi =>
    intro r hr
    rcases Multiset.mem_add.mp hr with hr | hr
    · exact hm p r hr
    · obtain rfl := Multiset.mem_singleton.mp hr
      rw [markSent_fst]
      rfl
  | _ =>
    intro r hr
    obtain rfl := Multiset.mem_singleton.mp hr
    rfl

theorem same {h k : Holding} {rs : Multiset Report} (hop : Hop s m h rs (some k)) :
    k.id = h.id ∧ k.dispatch.notification = h.dispatch.notification := by
  cases hop with
  | write c n i p hi =>
    rw [markSent_fst]
    exact ⟨rfl, rfl⟩
  | _ => exact ⟨rfl, rfl⟩

/-- Whatever comes back unwritten can be let go in the same move. -/
theorem then_drop {h : Holding} {rs : Multiset Report} {p : Dispatch}
    (hop : Hop s m h rs (some (.unwritten p))) : Hop s m h (rs + {p.drop}) none := by
  cases hop with
  | stay => exact .fail p .streamClosed (by simp)
  | resend c n r p hr hs hp => exact .lose c n p
  | rewrite c n p hp => exact .lose c n p

end Hop

namespace Passage

variable {A A' B B' : Multiset Holding} {R R' : Multiset Report}

theorem one {h : Holding} {rs : Multiset Report} {k : Option Holding} (hop : Hop s m h rs k) :
    Passage s m {h} rs (Holding.left k) := by
  simpa using Passage.hop hop .nothing

theorem add (h : Passage s m A R B) (h' : Passage s m A' R' B') :
    Passage s m (A + A') (R + R') (B + B') := by
  induction h with
  | nothing => simpa using h'
  | hop hop _ ih =>
    rw [Multiset.cons_add, add_assoc, add_assoc]
    exact .hop hop ih

theorem stay (A : Multiset Holding) : Passage s m A 0 A := by
  induction A using Multiset.induction with
  | empty => exact .nothing
  | cons h A ih => simpa [Holding.left] using Passage.hop (.stay h) ih

theorem fails (F : List (Dispatch × SendError)) (hF : ∀ x ∈ F, x.2 ≠ .notProcessed) :
    Passage s m (unwritten (F.map Prod.fst)) ↑(F.map fun x => x.1.fail x.2) 0 := by
  induction F with
  | nil => exact .nothing
  | cons x F ih =>
    have hx := hF x List.mem_cons_self
    have hr := ih fun y hy => hF y (List.mem_cons_of_mem x hy)
    simpa [Holding.left] using Passage.hop (.fail x.1 x.2 hx) hr

/-- Whatever there is can be let go. -/
theorem drop (A : Multiset Holding) : Passage s m A (A.map fun h => h.dispatch.drop) 0 := by
  induction A using Multiset.induction with
  | empty => exact .nothing
  | cons h A ih =>
    have hop : Hop s m h {h.dispatch.drop} none := by
      cases h with
      | unwritten p => exact .fail p .streamClosed (by simp)
      | written c n p => exact .lose c n p
    simpa [Holding.left] using Passage.hop hop ih

theorem then_drop (h : Passage s m A R B') :
    ∀ {B : Multiset Holding} {ps : List Dispatch}, B' = B + unwritten ps →
      Passage s m A (R + ↑(ps.map Dispatch.drop)) B := by
  induction h with
  | nothing =>
    intro B ps hb
    have hc := congrArg Multiset.card hb
    simp only [Multiset.card_zero, Multiset.card_add] at hc
    obtain rfl : B = 0 := Multiset.card_eq_zero.mp (by omega)
    obtain rfl : ps = [] := by simpa [unwritten] using hb.symm
    exact .nothing
  | @hop x rs k A R C hop _ ih =>
    intro B ps hb
    cases k with
    | none =>
      have hc : C = B + unwritten ps := by simpa [Holding.left] using hb
      rw [add_assoc]
      simpa [Holding.left] using Passage.hop hop (ih hc)
    | some y =>
      have hy : y ∈ B + unwritten ps := hb ▸ by simp [Holding.left]
      rcases Multiset.mem_add.mp hy with hy | hy
      · -- It is among those that are kept.
        obtain ⟨B, rfl⟩ := Multiset.exists_cons_of_mem hy
        have hc : C = B + unwritten ps := by
          simpa [Holding.left, Multiset.cons_add, Multiset.singleton_add] using hb
        rw [← Multiset.singleton_add, add_assoc]
        exact .hop hop (ih hc)
      · -- It is among those that are let go, and its own hop ends with that.
        obtain ⟨p, hp, rfl⟩ := mem_unwritten.mp hy
        have hperm := List.perm_cons_erase hp
        have hu : unwritten ps = .unwritten p ::ₘ unwritten (ps.erase p) :=
          Multiset.coe_eq_coe.mpr (hperm.map _)
        have hd : (↑(ps.map Dispatch.drop) : Multiset Report) =
            p.drop ::ₘ ↑((ps.erase p).map Dispatch.drop) :=
          Multiset.coe_eq_coe.mpr (hperm.map _)
        have hc : C = B + unwritten (ps.erase p) := by
          simpa [Holding.left, hu, Multiset.singleton_add] using hb
        have hp := Passage.hop hop.then_drop (ih hc)
        rw [hd]
        convert hp using 1
        · rw [← Multiset.singleton_add]
          abel
        · simp [Holding.left]

theorem of_nothing (h : Passage s m 0 R B) : R = 0 ∧ B = 0 := by
  generalize hA : (0 : Multiset Holding) = A at h
  cases h with
  | nothing => exact ⟨rfl, rfl⟩
  | hop => exact absurd hA (Multiset.zero_ne_cons)

theorem of_one {h : Holding} (hp : Passage s m {h} R B) :
    ∃ k, Hop s m h R k ∧ B = Holding.left k := by
  generalize hA : ({h} : Multiset Holding) = A at hp
  cases hp with
  | nothing => exact absurd hA (Multiset.singleton_ne_zero h)
  | @hop x rs k A R B hop rest =>
    obtain ⟨rfl, rfl⟩ := (Multiset.singleton_eq_cons_iff A).mp hA
    obtain ⟨rfl, rfl⟩ := rest.of_nothing
    rw [add_zero, add_zero]
    exact ⟨k, hop, rfl⟩

theorem only (h : Passage s m A R B) (n : Nat) :
    Passage s m (A.filter fun h => h.id = n) (R.filter fun r => r.id = n)
      (B.filter fun h => h.id = n) := by
  induction h with
  | nothing => exact .nothing
  | @hop x rs k A R B hop _ ih =>
    rw [Multiset.filter_add, Multiset.filter_add]
    by_cases hx : x.id = n
    · have hr : rs.filter (fun r => r.id = n) = rs :=
        Multiset.filter_eq_self.mpr fun r hr => (hop.report_id r hr).trans hx
      have hk : (Holding.left k).filter (fun h => h.id = n) = Holding.left k := by
        refine Multiset.filter_eq_self.mpr fun y hy => ?_
        cases k with
        | none => cases Multiset.notMem_zero y hy
        | some z =>
          obtain rfl := Multiset.mem_singleton.mp hy
          exact hop.same.1.trans hx
      rw [Multiset.filter_cons_of_pos (p := fun h : Holding => h.id = n) _ hx, hr, hk]
      exact .hop hop ih
    · have hr : rs.filter (fun r => r.id = n) = 0 :=
        Multiset.filter_eq_nil.mpr fun r hr hn => hx ((hop.report_id r hr).symm.trans hn)
      have hk : (Holding.left k).filter (fun h => h.id = n) = 0 := by
        refine Multiset.filter_eq_nil.mpr fun y hy hn => ?_
        cases k with
        | none => cases Multiset.notMem_zero y hy
        | some z =>
          obtain rfl := Multiset.mem_singleton.mp hy
          exact hx (hop.same.1.symm.trans hn)
      rw [Multiset.filter_cons_of_neg (p := fun h : Holding => h.id = n) _ hx, hr, hk, zero_add,
        zero_add]
      exact ih

theorem ids_le (h : Passage s m A R B) : B.map Holding.id ≤ A.map Holding.id := by
  induction h with
  | nothing => exact le_refl _
  | @hop x rs k A R B hop _ ih =>
    rw [Multiset.map_cons, Multiset.map_add, ← Multiset.singleton_add]
    refine add_le_add ?_ ih
    cases k with
    | none => exact Multiset.zero_le _
    | some y =>
      rw [Holding.left, Multiset.map_singleton, hop.same.1]

end Passage

end PushDelivery
