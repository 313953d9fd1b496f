namespace PushDelivery

structure Date where
  year : Int
  month : Nat
  day : Nat
deriving DecidableEq, Repr

namespace Date

/-- Days from the first of March of the year 0 to the first of January 1970. -/
def epochOffset : Int := 719468

def isLeap (y : Int) : Bool :=
  y % 4 == 0 && (y % 100 != 0 || y % 400 == 0)

def daysIn (y : Int) : Nat → Nat
  | 2 => if isLeap y then 29 else 28
  | 4 | 6 | 9 | 11 => 30
  | _ => 31

def isValid (d : Date) : Bool :=
  1 ≤ d.month && d.month ≤ 12 && 1 ≤ d.day && d.day ≤ daysIn d.year d.month

/-- Days since 1970 of a valid date. -/
def toDays (d : Date) : Int :=
  let y := if d.month ≤ 2 then d.year - 1 else d.year
  let m := if d.month ≤ 2 then d.month + 9 else d.month - 3
  365 * y + y / 4 - y / 100 + y / 400 + ((153 * m + 2) / 5 + d.day - 1 : Nat) - epochOffset

/-- The date that is a number of days after the first of January 1970. The days are split into
periods of 400, 100, 4 and 1 years; the last of the centuries and of the years has a day more. -/
def ofDays (days : Int) : Date :=
  let n := days + epochOffset
  let era := n / 146097
  let r := (n % 146097).toNat
  let century := min (r / 36524) 3
  let r := r - century * 36524
  let olympiad := r / 1461
  let r := r % 1461
  let year := min (r / 365) 3
  let r := r - year * 365
  let m := (5 * r + 2) / 153
  let day := r - (153 * m + 2) / 5 + 1
  let y := era * 400 + (century * 100 + olympiad * 4 + year : Nat)
  if m < 10 then ⟨y, m + 3, day⟩ else ⟨y + 1, m - 9, day⟩

end Date

end PushDelivery
