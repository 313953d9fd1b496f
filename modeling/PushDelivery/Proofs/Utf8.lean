import PushDelivery.Text.Utf8
import Mathlib.Tactic.Common

namespace PushDelivery.Text

theorem mapM_map_some {α : Type} (xs : List α) : (xs.map some).mapM id = some xs := by
  induction xs with
  | nil => rfl
  | cons x xs ih => simp [List.mapM_cons, ih]

namespace Utf8

theorem toNat_ofNat_of_lt {n : Nat} (h : n < 256) : (UInt8.ofNat n).toNat = n := by
  rw [UInt8.toNat_ofNat']
  exact Nat.mod_eq_of_lt h

theorem tail?_ofNat {n : Nat} (h : n < 64) : tail? (UInt8.ofNat (0x80 + n)) = some n := by
  rw [tail?, toNat_ofNat_of_lt (by omega), if_pos (by omega), Nat.add_sub_cancel_left]

theorem toNat_scalar (c : Char) : c.toNat < 0xD800 ∨ 0xDFFF < c.toNat ∧ c.toNat < 0x110000 :=
  c.valid

theorem scalar?_toNat {least n : Nat} {c : Char} (hn : n = c.toNat) (h : least ≤ c.toNat) :
    scalar? least n = some c := by
  rw [scalar?, hn, if_pos ⟨h, toNat_scalar c⟩, Char.ofNat_toNat]

theorem first?_one {c : Char} (h : c.toNat < 0x80) (rest : List UInt8) :
    first? (UInt8.ofNat c.toNat :: rest) = some (c, 1) := by
  simp only [first?]
  rw [toNat_ofNat_of_lt (by omega), if_pos h, scalar?_toNat rfl (Nat.zero_le _), Option.map_some]

theorem first?_two {c : Char} (hlow : 0x80 ≤ c.toNat) (h : c.toNat < 0x800) (rest : List UInt8) :
    first? (UInt8.ofNat (0xC0 + c.toNat / 64) :: UInt8.ofNat (0x80 + c.toNat % 64) :: rest) =
      some (c, 2) := by
  simp only [first?]
  rw [toNat_ofNat_of_lt (by omega), if_neg (by omega), if_neg (by omega), if_pos (by omega),
    tail?_ofNat (by omega), Option.bind_eq_bind, Option.bind_some,
    scalar?_toNat (c := c) (by omega) hlow, Option.map_some]

theorem first?_three {c : Char} (hlow : 0x800 ≤ c.toNat) (h : c.toNat < 0x10000)
    (rest : List UInt8) :
    first? (UInt8.ofNat (0xE0 + c.toNat / 4096) :: UInt8.ofNat (0x80 + c.toNat / 64 % 64) ::
      UInt8.ofNat (0x80 + c.toNat % 64) :: rest) = some (c, 3) := by
  simp only [first?]
  rw [toNat_ofNat_of_lt (by omega), if_neg (by omega), if_neg (by omega), if_neg (by omega),
    if_pos (by omega), tail?_ofNat (by omega), tail?_ofNat (by omega), Option.bind_eq_bind,
    Option.bind_some, Option.bind_some, scalar?_toNat (c := c) (by omega) hlow, Option.map_some]

theorem first?_four {c : Char} (hlow : 0x10000 ≤ c.toNat) (rest : List UInt8) :
    first? (UInt8.ofNat (0xF0 + c.toNat / 262144) :: UInt8.ofNat (0x80 + c.toNat / 4096 % 64) ::
      UInt8.ofNat (0x80 + c.toNat / 64 % 64) :: UInt8.ofNat (0x80 + c.toNat % 64) :: rest) =
      some (c, 4) := by
  have hc := toNat_scalar c
  simp only [first?]
  rw [toNat_ofNat_of_lt (by omega), if_neg (by omega), if_neg (by omega), if_neg (by omega),
    if_neg (by omega), if_pos (by omega), tail?_ofNat (by omega), tail?_ofNat (by omega),
    tail?_ofNat (by omega)]
  -- Rewritten one by one: as a definitional step, the sums would be compared by counting.
  rw [Option.bind_eq_bind, Option.bind_some, Option.bind_some, Option.bind_some,
    scalar?_toNat (c := c) (by omega) hlow, Option.map_some]

/-- The bytes of a character are read as that character, whatever follows them. -/
theorem first?_encodeChar (c : Char) (rest : List UInt8) :
    first? (encodeChar c ++ rest) = some (c, (encodeChar c).length) := by
  unfold encodeChar
  dsimp only
  split_ifs with h₁ h₂ h₃
  · exact first?_one h₁ rest
  · exact first?_two (Nat.not_lt.mp h₁) h₂ rest
  · exact first?_three (Nat.not_lt.mp h₂) h₃ rest
  · exact first?_four (Nat.not_lt.mp h₃) rest

theorem encodeChar_ne_nil (c : Char) : encodeChar c ≠ [] := by
  unfold encodeChar
  dsimp only
  split_ifs <;> exact List.cons_ne_nil _ _

theorem scanFrom_eq_drop (skip : Nat) (bytes : List UInt8) :
    scanFrom skip bytes = scan (bytes.drop skip) := by
  induction bytes generalizing skip with
  | nil => cases skip <;> rfl
  | cons b rest ih =>
    cases skip with
    | zero => rfl
    | succ skip => exact ih skip

theorem scan_encodeChar (c : Char) (rest : List UInt8) :
    scan (encodeChar c ++ rest) = some c :: scan rest := by
  have hfirst := first?_encodeChar c rest
  obtain ⟨b, bs, hb⟩ := List.exists_cons_of_ne_nil (encodeChar_ne_nil c)
  rw [hb, List.cons_append] at hfirst ⊢
  rw [scan, scanFrom, hfirst]
  dsimp only
  rw [scanFrom_eq_drop, List.length_cons, Nat.add_sub_cancel, List.drop_left]

theorem scan_encode (cs : List Char) : scan (encode cs) = cs.map some := by
  induction cs with
  | nil => rfl
  | cons c cs ih =>
    rw [encode, List.flatMap_cons, scan_encodeChar, List.map_cons]
    exact congrArg _ ih

theorem decode?_encode (cs : List Char) : decode? (encode cs) = some cs := by
  rw [decode?, scan_encode, mapM_map_some]

end Utf8

end PushDelivery.Text
