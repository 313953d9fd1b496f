import PushDelivery.Http.Headers
import PushDelivery.Text.Decimal
import PushDelivery.Uuid
import Mathlib.Tactic.Common
import Mathlib.Tactic.Ring

namespace PushDelivery.Text

namespace Decimal

theorem digit_mod (n : Nat) : digit (n % 10) = digit n := by
  rw [digit, digit, Nat.mod_mod]

theorem value_digit_of_lt : ∀ n < 10, value (digit n) = n := by decide

theorem isDigit_digit_of_lt : ∀ n < 10, (digit n).isDigit = true := by decide

theorem digit_ne_zero_of_lt : ∀ n < 10, 0 < n → digit n ≠ '0' := by decide

theorem value_digit (n : Nat) : value (digit n) = n % 10 := by
  rw [← digit_mod]
  exact value_digit_of_lt _ (Nat.mod_lt _ (by decide))

theorem isDigit_digit (n : Nat) : (digit n).isDigit = true := by
  rw [← digit_mod]
  exact isDigit_digit_of_lt _ (Nat.mod_lt _ (by decide))

theorem digits_of_lt {n : Nat} (h : n < 10) : digits n = [digit n] := by
  rw [digits, if_pos h]

theorem digits_of_le {n : Nat} (h : 10 ≤ n) : digits n = digits (n / 10) ++ [digit n] := by
  rw [digits, if_neg (Nat.not_lt.mpr h)]

theorem digits_ne_nil (n : Nat) : digits n ≠ [] := by
  rw [digits]
  split <;> simp

theorem isDigit_of_mem_digits {n : Nat} : ∀ c ∈ digits n, c.isDigit = true := by
  induction n using digits.induct with
  | case1 n h =>
    rw [digits_of_lt h]
    exact List.forall_mem_singleton.mpr (isDigit_digit n)
  | case2 n h ih =>
    rw [digits_of_le (Nat.not_lt.mp h)]
    exact List.forall_mem_append.mpr ⟨ih, List.forall_mem_singleton.mpr (isDigit_digit n)⟩

/-- Only zero itself starts with a zero. -/
theorem head?_digits {n : Nat} (h : 0 < n) : (digits n).head? ≠ some '0' := by
  induction n using digits.induct with
  | case1 n hlt =>
    rw [digits_of_lt hlt, List.head?_cons]
    exact fun he => digit_ne_zero_of_lt n hlt h (Option.some.inj he)
  | case2 n hle ih =>
    obtain ⟨c, cs, hc⟩ := List.exists_cons_of_ne_nil (digits_ne_nil (n / 10))
    have := ih (by omega)
    rw [digits_of_le (Nat.not_lt.mp hle), hc, List.cons_append, List.head?_cons]
    rwa [hc, List.head?_cons] at this

theorem accumulate_append (acc : Nat) (xs ys : List Char) :
    accumulate acc (xs ++ ys) = accumulate (accumulate acc xs) ys := by
  induction xs generalizing acc with
  | nil => rfl
  | cons c xs ih => exact ih _

theorem accumulate_digit (acc n : Nat) : accumulate acc [digit n] = acc * 10 + n % 10 := by
  rw [← value_digit]
  rfl

theorem ofDigits_digits (n : Nat) : ofDigits (digits n) = n := by
  induction n using digits.induct with
  | case1 n h =>
    rw [digits_of_lt h, ofDigits, accumulate_digit]
    omega
  | case2 n h ih =>
    rw [ofDigits] at ih
    rw [digits_of_le (Nat.not_lt.mp h), ofDigits, accumulate_append, ih, accumulate_digit]
    omega

theorem length_padded (width n : Nat) : (padded width n).length = width := by
  induction width generalizing n with
  | zero => rfl
  | succ width ih => rw [padded, List.length_append, ih, List.length_singleton]

theorem padded_ne_nil {width : Nat} (h : 0 < width) (n : Nat) : padded width n ≠ [] :=
  List.ne_nil_of_length_pos ((length_padded width n).symm ▸ h)

theorem isDigit_of_mem_padded {width n : Nat} : ∀ c ∈ padded width n, c.isDigit = true := by
  induction width generalizing n with
  | zero => exact fun c hc => absurd hc List.not_mem_nil
  | succ width ih =>
    exact List.forall_mem_append.mpr ⟨ih, List.forall_mem_singleton.mpr (isDigit_digit n)⟩

theorem ofDigits_padded (width n : Nat) : ofDigits (padded width n) = n % 10 ^ width := by
  rw [ofDigits]
  induction width generalizing n with
  | zero => exact (Nat.mod_one n).symm
  | succ width ih =>
    rw [padded, accumulate_append, ih, accumulate_digit, pow_succ']
    have := Nat.mod_mul (x := n) (a := 10) (b := 10 ^ width)
    omega

/-- Zeros in front do not count. -/
theorem ofDigits_replicate_zero (k : Nat) (ds : List Char) :
    ofDigits (List.replicate k '0' ++ ds) = ofDigits ds := by
  induction k with
  | zero => rfl
  | succ k ih => exact ih

end Decimal

namespace Hex

theorem digit_mod (n : Nat) : digit (n % 16) = digit n := by
  rw [digit, digit, Nat.mod_mod]

theorem value?_digit_of_lt : ∀ n < 16, value? (digit n) = some n := by decide

theorem isDigit_digit_of_lt : ∀ n < 16, isDigit (digit n) = true := by decide

theorem value?_digit (n : Nat) : value? (digit n) = some (n % 16) := by
  rw [← digit_mod]
  exact value?_digit_of_lt _ (Nat.mod_lt _ (by decide))

theorem isDigit_digit (n : Nat) : isDigit (digit n) = true := by
  rw [← digit_mod]
  exact isDigit_digit_of_lt _ (Nat.mod_lt _ (by decide))

theorem length_padded (width n : Nat) : (padded width n).length = width := by
  induction width generalizing n with
  | zero => rfl
  | succ width ih => rw [padded, List.length_append, ih, List.length_singleton]

theorem isDigit_of_mem_padded {width n : Nat} : ∀ c ∈ padded width n, isDigit c = true := by
  induction width generalizing n with
  | zero => exact fun c hc => absurd hc List.not_mem_nil
  | succ width ih =>
    exact List.forall_mem_append.mpr ⟨ih, List.forall_mem_singleton.mpr (isDigit_digit n)⟩

theorem toNat_of_isDigit {c : Char} (h : isDigit c = true) :
    ((48 ≤ c.toNat ∧ c.toNat ≤ 57) ∨ (97 ≤ c.toNat ∧ c.toNat ≤ 102)) ∨
      (65 ≤ c.toNat ∧ c.toNat ≤ 70) := by
  simp only [isDigit, Char.isDigit, Bool.or_eq_true, Bool.and_eq_true, decide_eq_true_eq,
    Char.le_def, UInt32.le_iff_toNat_le] at h
  exact h

theorem isPlain_of_isDigit {c : Char} (h : isDigit c = true) : Headers.isPlain c = true := by
  have hrange := toNat_of_isDigit h
  simp only [Headers.isPlain, Bool.or_eq_true, Bool.and_eq_true, decide_eq_true_eq]
  exact .inr ⟨by omega, by omega⟩

end Hex

end PushDelivery.Text

namespace PushDelivery

theorem Headers.isReadable_ofList {cs : List Char} (h : ∀ c ∈ cs, isPlain c = true) :
    isReadable (String.ofList cs) = true := by
  rw [isReadable, String.toList_ofList]
  exact List.all_eq_true.mpr h

namespace Uuid

open Text

theorem foldl_padded (width n : Nat) :
    (Hex.padded width n).foldl (fun n c => n * 16 + (Hex.value? c).getD 0) 0 = n % 16 ^ width := by
  induction width generalizing n with
  | zero => rw [Hex.padded, List.foldl_nil, pow_zero, Nat.mod_one]
  | succ width ih =>
    rw [Hex.padded, List.foldl_append, ih, List.foldl_cons, List.foldl_nil, Hex.value?_digit,
      Option.getD_some, pow_succ']
    have := Nat.mod_mul (x := n) (a := 16) (b := 16 ^ width)
    omega

theorem ofDigits_padded (u : Uuid) : ofDigits (Hex.padded 32 u.bits.toNat) = u := by
  have hlt : u.bits.toNat < 16 ^ 32 := u.bits.isLt
  rw [ofDigits, foldl_padded, Nat.mod_eq_of_lt hlt, BitVec.ofNat_toNat, BitVec.setWidth_eq]

theorem digits?_append {width : Nat} {ds : List Char} (hlen : ds.length = width)
    (hds : ∀ c ∈ ds, Hex.isDigit c = true) (rest : List Char) :
    digits? width (ds ++ rest) = some (ds, rest) := by
  induction ds generalizing width with
  | nil =>
    subst hlen
    rfl
  | cons c ds ih =>
    subst hlen
    have ⟨hc, hds⟩ := List.forall_mem_cons.mp hds
    rw [List.length_cons, List.cons_append, digits?, if_pos hc, ih rfl hds]
    rfl

theorem groups?_append {width next : Nat} {widths : List Nat} {ds es : List Char}
    {cs rest : List Char} (hlen : ds.length = width) (hds : ∀ c ∈ ds, Hex.isDigit c = true)
    (hcs : groups? (next :: widths) cs = some (es, rest)) :
    groups? (width :: next :: widths) (ds ++ '-' :: cs) = some (ds ++ es, rest) := by
  rw [groups?, digits?_append hlen hds]
  · simp [hcs]
  · simp

/-- An id is read back from its text. -/
theorem ofText?_toText (u : Uuid) : ofText? u.toText = some u := by
  have hds : ∀ c ∈ Hex.padded 32 u.bits.toNat, Hex.isDigit c = true := Hex.isDigit_of_mem_padded
  have hlen : (Hex.padded 32 u.bits.toNat).length = 32 := Hex.length_padded _ _
  have hu := ofDigits_padded u
  rw [ofText?, toText, String.toList_ofList, render]
  generalize Hex.padded 32 u.bits.toNat = ds at hds hlen hu
  have htake (i n : Nat) : ∀ c ∈ (ds.drop i).take n, Hex.isDigit c = true :=
    fun c hc => hds c (List.mem_of_mem_drop (List.mem_of_mem_take hc))
  have hdrop (i n : Nat) : (ds.drop i).take n ++ ds.drop (i + n) = ds.drop i := by
    rw [← List.drop_drop, List.take_append_drop]
  have hread : groups? [8, 4, 4, 4, 12] ((ds.drop 0).take 8 ++ '-' :: ((ds.drop 8).take 4 ++
      '-' :: ((ds.drop 12).take 4 ++ '-' :: ((ds.drop 16).take 4 ++ '-' :: (ds.drop 20 ++ []))))) =
      some ((ds.drop 0).take 8 ++ ((ds.drop 8).take 4 ++ ((ds.drop 12).take 4 ++
        ((ds.drop 16).take 4 ++ ds.drop 20))), []) := by
    refine groups?_append ?_ (htake _ _) (groups?_append ?_ (htake _ _) (groups?_append ?_
      (htake _ _) (groups?_append ?_ (htake _ _) (digits?_append ?_ ?_ []))))
    iterate 5 simp [hlen]
    exact fun c hc => hds c (List.mem_of_mem_drop hc)
  rw [hdrop 16 4, hdrop 12 4, hdrop 8 4, hdrop 0 8] at hread
  simp only [List.drop_zero, List.append_nil] at hread
  simp only [List.append_assoc, List.cons_append, read?, hyphenated?, hread, hu]
  rfl

theorem isReadable_toText (u : Uuid) : Headers.isReadable u.toText = true := by
  have hds (c : Char) (hc : c ∈ Hex.padded 32 u.bits.toNat) : Headers.isPlain c = true :=
    Hex.isPlain_of_isDigit (Hex.isDigit_of_mem_padded c hc)
  have htake (i n : Nat) (c : Char) (hc : c ∈ ((Hex.padded 32 u.bits.toNat).drop i).take n) :
      Headers.isPlain c = true :=
    hds c (List.mem_of_mem_drop (List.mem_of_mem_take hc))
  refine Headers.isReadable_ofList fun c hc => ?_
  unfold render at hc
  have hhyphen : Headers.isPlain '-' = true := by decide
  simp only [List.mem_append, List.mem_cons] at hc
  rcases hc with (((hc | rfl | hc) | rfl | hc) | rfl | hc) | rfl | hc
  · exact hds c (List.mem_of_mem_take hc)
  · exact hhyphen
  · exact htake _ _ c hc
  · exact hhyphen
  · exact htake _ _ c hc
  · exact hhyphen
  · exact htake _ _ c hc
  · exact hhyphen
  · exact hds c (List.mem_of_mem_drop hc)

end Uuid

end PushDelivery
