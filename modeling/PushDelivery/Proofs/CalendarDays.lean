import PushDelivery.Time.Calendar
import PushDelivery.Time.Instant
import Mathlib.Tactic.Common
import Mathlib.Tactic.IntervalCases

namespace PushDelivery.Date

/-- The date of a day of a year that begins with March, the months counted from zero. -/
def ofMarch (year : Int) (month day : Nat) : Date :=
  if month < 10 then ⟨year, month + 3, day⟩ else ⟨year + 1, month - 9, day⟩

theorem toDays_ofMarch (y : Int) {m : Nat} (d : Nat) (hm : m ≤ 11) : (ofMarch y m d).toDays =
    365 * y + y / 4 - y / 100 + y / 400 + ((153 * m + 2) / 5 + d - 1 : Nat) - epochOffset := by
  unfold ofMarch
  split
  · rename_i hearly
    simp only [toDays]
    rw [if_neg (by omega), if_neg (by omega), Nat.add_sub_cancel]
  · rename_i hlate
    simp only [toDays]
    rw [if_pos (by omega), if_pos (by omega), Int.add_sub_cancel, Nat.sub_add_cancel (by omega)]

theorem isLeap_of_last {era : Int} {century olympiad year : Nat} (holympiad : olympiad ≤ 24)
    (hyear : year = 3) (hlast : olympiad = 24 → century = 3) :
    isLeap (era * 400 + (century * 100 + olympiad * 4 + year : Nat) + 1) = true := by
  simp only [isLeap, Bool.and_eq_true, Bool.or_eq_true, beq_iff_eq, bne_iff_ne, ne_eq]
  omega

/-- A number of days is split into eras of four hundred years, centuries, olympiads and years, the
first year beginning with March, and the days since the year began. -/
theorem exists_split (days : Int) : ∃ (era : Int) (century olympiad year r : Nat),
    ofDays days = ofMarch (era * 400 + (century * 100 + olympiad * 4 + year : Nat))
      ((5 * r + 2) / 153) (r - (153 * ((5 * r + 2) / 153) + 2) / 5 + 1) ∧
    days + epochOffset = era * 146097 + (century * 36524 + olympiad * 1461 + year * 365 + r : Nat) ∧
    century ≤ 3 ∧ olympiad ≤ 24 ∧ year ≤ 3 ∧ r ≤ 365 ∧
    (r = 365 → year = 3 ∧ (olympiad = 24 → century = 3)) := by
  let n := days + epochOffset
  have hnonneg := Int.emod_nonneg n (show (146097 : Int) ≠ 0 by decide)
  have hlt := Int.emod_lt_of_pos n (show (0 : Int) < 146097 by decide)
  let r := (n % 146097).toNat
  let century := min (r / 36524) 3
  let r₁ := r - century * 36524
  let r₂ := r₁ % 1461
  let year := min (r₂ / 365) 3
  have hcentury : century ≤ 3 ∧ r₁ ≤ 36524 ∧ r = century * 36524 + r₁ ∧
      (r₁ = 36524 → century = 3) := by omega
  refine ⟨n / 146097, century, r₁ / 1461, year, r₂ - year * 365, rfl, ?_, hcentury.1, by omega,
    by omega, by omega, by omega⟩
  change n = _
  omega

/-- A number of days is split into the year, from March on, and the days since it began. -/
theorem ofDays_spec (days : Int) : ∃ (y : Int) (r : Nat),
    ofDays days = ofMarch y ((5 * r + 2) / 153) (r - (153 * ((5 * r + 2) / 153) + 2) / 5 + 1) ∧
    days + epochOffset = 365 * y + y / 4 - y / 100 + y / 400 + r ∧ r ≤ 365 ∧
    (r = 365 → isLeap (y + 1) = true) := by
  obtain ⟨era, century, olympiad, year, r, hdate, hdays, hcentury, holympiad, hyear, hr, hlast⟩ :=
    exists_split days
  refine ⟨_, r, hdate, by omega, hr, fun h => ?_⟩
  exact isLeap_of_last holympiad (hlast h).1 (hlast h).2

theorem toDays_ofDays (days : Int) : (ofDays days).toDays = days := by
  obtain ⟨y, r, hdate, hdays, hr, -⟩ := ofDays_spec days
  rw [hdate, toDays_ofMarch _ _ (by omega)]
  omega

theorem isValid_mk {y : Int} {m d : Nat} : isValid ⟨y, m, d⟩ = true ↔
    (1 ≤ m ∧ m ≤ 12) ∧ 1 ≤ d ∧ d ≤ daysIn y m := by
  simp only [isValid, Bool.and_eq_true, decide_eq_true_eq, and_assoc]

theorem daysIn_add_three (y : Int) {m : Nat} (hm : m < 10) :
    daysIn y (m + 3) = (153 * (m + 1) + 2) / 5 - (153 * m + 2) / 5 := by
  interval_cases m <;> rfl

/-- The date of a number of days is one of the calendar. -/
theorem isValid_ofDays (days : Int) : (ofDays days).isValid = true := by
  obtain ⟨y, r, hdate, -, hr, hleap⟩ := ofDays_spec days
  generalize hm : (5 * r + 2) / 153 = m at hdate
  rw [hdate, ofMarch]
  split
  · rename_i hearly
    rw [isValid_mk, daysIn_add_three y hearly]
    omega
  · rename_i hlate
    obtain rfl | rfl : m = 10 ∨ m = 11 := by omega
    · rw [isValid_mk]
      change _ ∧ _ ∧ _ ≤ 31
      omega
    · rw [isValid_mk]
      change _ ∧ _ ∧ _ ≤ if isLeap (y + 1) then 29 else 28
      split
      · omega
      · rename_i hshort
        have hne : r ≠ 365 := fun he => hshort (hleap he)
        omega

theorem year_ofDays {days : Int} (hlow : Instant.minSeconds ≤ days * 86400)
    (hhigh : days * 86400 ≤ Instant.maxSeconds) :
    -262143 ≤ (ofDays days).year ∧ (ofDays days).year ≤ 262142 := by
  obtain ⟨y, r, hdate, hdays, hr, -⟩ := ofDays_spec days
  generalize hm : (5 * r + 2) / 153 = m at hdate
  simp only [epochOffset, Instant.minSeconds, Instant.maxSeconds] at hdays hlow hhigh
  -- The years at both ends are looked at by themselves: there a single day decides.
  have hends : y = -262144 ∨ y = 262142 ∨ y ≤ -262145 ∨ 262143 ≤ y ∨
      (-262143 ≤ y ∧ y ≤ 262141) := by omega
  rw [hdate, ofMarch]
  split
  · change -262143 ≤ y ∧ y ≤ 262142
    omega
  · change -262143 ≤ y + 1 ∧ y + 1 ≤ 262142
    omega

theorem daysIn_le (y : Int) (m : Nat) : daysIn y m ≤ 31 := by
  unfold daysIn
  split
  · split <;> decide
  all_goals decide

end PushDelivery.Date
