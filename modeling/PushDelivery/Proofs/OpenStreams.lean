import PushDelivery.Proofs.Places

namespace PushDelivery

namespace OpenStreams

/-- The streams are distinct, and none is above the highest one ever registered. -/
structure Orderly (s : OpenStreams) : Prop where
  distinct : (s.slots.map Prod.fst).Nodup
  bounded : ∀ e ∈ s.slots, e.1 ≤ s.highest

variable {s : OpenStreams} {stream : Nat} {p : Dispatch}

theorem get?_mem (hp : s.get? stream = some p) : (stream, p) ∈ s.slots := by
  obtain ⟨e, he, rfl⟩ := Option.map_eq_some_iff.mp hp
  have hm := List.mem_of_find?_eq_some he
  obtain rfl : e.1 = stream := by simpa using List.find?_some he
  exact hm

theorem get?_eq_none (hp : s.get? stream = none) : stream ∉ s.slots.map Prod.fst := by
  intro hm
  obtain ⟨e, he, rfl⟩ := List.mem_map.mp hm
  have hf : s.slots.find? (fun d => d.1 == e.1) = none := Option.map_eq_none_iff.mp hp
  simpa using List.find?_eq_none.mp hf e he

@[simp] theorem get?_erase_self (stream : Nat) (s : OpenStreams) :
    (s.erase stream).get? stream = none := by
  simp [get?, erase, List.find?_filter]

theorem get?_erase_of_ne {n : Nat} (h : n ≠ stream) : (s.erase stream).get? n = s.get? n := by
  rw [get?, get?, erase, List.find?_filter]
  congr 2
  funext e
  by_cases he : e.1 = n
  · simp [he, h]
  · simp [he]

/-- Erasing a stream that is not there changes nothing. -/
theorem erase_of_absent (hp : s.get? stream = none) : s.erase stream = s := by
  have hn := get?_eq_none hp
  have he : s.slots.filter (fun e => e.1 != stream) = s.slots := by
    apply List.filter_eq_self.mpr
    intro e he
    have hne : e.1 ≠ stream := fun h => hn (List.mem_map.mpr ⟨e, he, h⟩)
    simpa using hne
  unfold erase
  rw [he]

theorem perm_erase (hs : s.Orderly) (hp : s.get? stream = some p) :
    s.slots.Perm ((stream, p) :: (s.erase stream).slots) := by
  obtain ⟨before, after, he⟩ := List.mem_iff_append.mp (get?_mem hp)
  have hd := hs.distinct
  rw [he, List.map_append, List.map_cons, List.nodup_append, List.nodup_cons] at hd
  obtain ⟨-, ⟨hafter, -⟩, hbefore⟩ := hd
  have hb : before.filter (fun e => e.1 != stream) = before := by
    apply List.filter_eq_self.mpr
    intro e hm
    simpa using hbefore e.1 (List.mem_map.mpr ⟨e, hm, rfl⟩) stream List.mem_cons_self
  have ha : after.filter (fun e => e.1 != stream) = after := by
    apply List.filter_eq_self.mpr
    intro e hm
    have hne : e.1 ≠ stream := fun h => hafter (List.mem_map.mpr ⟨e, hm, h⟩)
    simpa using hne
  have hr : (s.erase stream).slots = before ++ after := by
    simp [erase, he, hb, ha]
  rw [hr, he]
  exact List.perm_middle

theorem erase_holdings (hs : s.Orderly) (hp : s.get? stream = some p) (c : Nat) :
    s.holdings c = .written c stream p ::ₘ (s.erase stream).holdings c :=
  Multiset.coe_eq_coe.mpr ((perm_erase hs hp).map _)

theorem Orderly.erase (hs : s.Orderly) (stream : Nat) : (s.erase stream).Orderly where
  distinct := hs.distinct.sublist (List.filter_sublist.map _)
  bounded := fun e he => hs.bounded e (List.mem_of_mem_filter he)

theorem Orderly.get?_high (hs : s.Orderly) (hn : s.highest < stream) : s.get? stream = none := by
  by_contra hsome
  obtain ⟨p, hp⟩ := Option.ne_none_iff_exists'.mp hsome
  have hle := hs.bounded _ (get?_mem hp)
  dsimp only at hle
  omega

theorem register?_eq_some {t : OpenStreams} (hr : s.register? stream p = some t) :
    s.highest < stream ∧ t = ⟨s.slots ++ [(stream, p)], stream⟩ := by
  unfold register? at hr
  split at hr
  · cases hr
  · rename_i hfree
    exact ⟨Nat.lt_of_not_le fun hle => hfree (.inl hle), (Option.some.inj hr).symm⟩

theorem Orderly.register?_high (hs : s.Orderly) (hn : s.highest < stream) (p : Dispatch) :
    s.register? stream p = some ⟨s.slots ++ [(stream, p)], stream⟩ := by
  refine if_neg ?_
  simpa [hs.get?_high hn] using hn

theorem register?_low (hn : stream ≤ s.highest) (p : Dispatch) : s.register? stream p = none :=
  if_pos (.inl hn)

theorem Orderly.register {t : OpenStreams} (hs : s.Orderly)
    (hr : s.register? stream p = some t) : t.Orderly := by
  obtain ⟨hlt, rfl⟩ := register?_eq_some hr
  constructor
  · rw [List.map_append, List.nodup_append]
    refine ⟨hs.distinct, by simp, ?_⟩
    intro n hn m hm
    obtain ⟨e, he, rfl⟩ := List.mem_map.mp hn
    obtain rfl : m = stream := by simpa using hm
    have := hs.bounded e he
    omega
  · intro e he
    rcases List.mem_append.mp he with he | he
    · have := hs.bounded e he
      dsimp only
      omega
    · obtain rfl := List.mem_singleton.mp he
      exact Nat.le_refl _

end OpenStreams

end PushDelivery
