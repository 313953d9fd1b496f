import PushDelivery.Text.Blank
import PushDelivery.Text.Decimal
import PushDelivery.Time.Calendar
import PushDelivery.Time.Instant

namespace PushDelivery.DateText

open Text

def renderYear (y : Int) : List Char :=
  if 0 ≤ y ∧ y ≤ 9999 then Decimal.padded 4 y.toNat
  else
    let ds := Decimal.digits y.natAbs
    (if y < 0 then '-' else '+') :: (List.replicate (4 - ds.length) '0' ++ ds)

/-- The shortest of no, three, six and nine digits that loses nothing. -/
def renderFraction (nanos : Nat) : List Char :=
  if nanos = 0 then []
  else if nanos % 1000000 = 0 then '.' :: Decimal.padded 3 (nanos / 1000000)
  else if nanos % 1000 = 0 then '.' :: Decimal.padded 6 (nanos / 1000)
  else '.' :: Decimal.padded 9 nanos

/-- Universal time, as `2024-01-01T00:00:00Z`, with a signed year outside 0 to 9999. -/
def render (t : Instant) : List Char :=
  let date := Date.ofDays (t.seconds / 86400)
  let s := (t.seconds % 86400).toNat
  let leap := t.nanos / 1000000000
  renderYear date.year ++ '-' :: Decimal.padded 2 date.month ++ '-' :: Decimal.padded 2 date.day ++
    'T' :: Decimal.padded 2 (s / 3600) ++ ':' :: Decimal.padded 2 (s / 60 % 60) ++
    ':' :: Decimal.padded 2 (s % 60 + leap) ++ renderFraction (t.nanos % 1000000000) ++ ['Z']

/-- At most `width` digits, and at least one. -/
def number? (width : Nat) (cs : List Char) : Option (Nat × List Char) :=
  match (cs.take width).takeWhile Char.isDigit with
  | [] => none
  | ds => some (Decimal.ofDigits ds, cs.drop ds.length)

def allDigits? (cs : List Char) : Option (Nat × List Char) :=
  number? cs.length cs

/-- Four digits at most without a sign, any number of them behind one. -/
def year? (cs : List Char) : Option (Int × List Char) :=
  match trimStart cs with
  | '-' :: rest => (allDigits? rest).map fun (n, rest) => (-(n : Int), rest)
  | '+' :: rest => (allDigits? rest).map fun (n, rest) => ((n : Int), rest)
  | rest => (number? 4 rest).map fun (n, rest) => ((n : Int), rest)

/-- A field of one or two digits within bounds. -/
def field? (low high : Nat) (cs : List Char) : Option (Nat × List Char) := do
  let (n, rest) ← number? 2 (trimStart cs)
  if low ≤ n ∧ n ≤ high then some (n, rest) else none

def mark? (c : Char) : List Char → Option (List Char)
  | d :: rest => if d = c then some rest else none
  | [] => none

/-- The fraction of a second in nanoseconds; digits past the ninth are dropped. -/
def fraction? : List Char → Option (Nat × List Char)
  | '.' :: rest => do
    let (n, after) ← number? 9 rest
    let used := rest.length - after.length
    return (n * Nat.pow 10 (9 - used), after.dropWhile Char.isDigit)
  | cs => some (0, cs)

def date? (cs : List Char) : Option (Date × List Char) := do
  let (y, cs) ← year? cs
  let cs ← mark? '-' (trimStart cs)
  let (m, cs) ← field? 1 12 cs
  let cs ← mark? '-' (trimStart cs)
  let (d, cs) ← field? 1 31 cs
  let date : Date := ⟨y, m, d⟩
  if date.isValid ∧ -262143 ≤ y ∧ y ≤ 262142 then some (date, cs) else none

def separator? : List Char → Option (List Char)
  | c :: rest => if c = 'T' ∨ c = 't' ∨ c = ' ' then some rest else none
  | [] => none

/-- The second of the day and the nanoseconds; a second 60 is second 59 and a leap second. -/
def clock? (cs : List Char) : Option (Nat × Nat × List Char) := do
  let (h, cs) ← field? 0 23 cs
  let cs ← mark? ':' (trimStart cs)
  let (m, cs) ← field? 0 59 cs
  let cs ← mark? ':' (trimStart cs)
  let (s, cs) ← field? 0 60 cs
  let (f, cs) ← fraction? cs
  let leap := s / 60
  return (h * 3600 + m * 60 + (s - leap), f + leap * 1000000000, cs)

def lower (c : Char) : Char :=
  if 'A' ≤ c ∧ c ≤ 'Z' then Char.ofNat (c.toNat + 32) else c

def pair? (tens : Nat) : List Char → Option (Nat × List Char)
  | a :: b :: rest =>
    if a.isDigit ∧ b.isDigit ∧ Decimal.value a ≤ tens then
      some (Decimal.value a * 10 + Decimal.value b, rest)
    else none
  | _ => none

/-- Hours and minutes; between them colons and blanks may stand. -/
def hoursMinutes? (cs : List Char) : Option (Nat × List Char) := do
  let (h, cs) ← pair? 9 cs
  let (m, cs) ← pair? 5 (cs.dropWhile fun c => c == ':' || isBlank c)
  if h < 24 then some (h * 3600 + m * 60, cs) else none

def offset? (cs : List Char) : Option (Int × List Char) :=
  match cs with
  | a :: b :: c :: rest =>
    if [a, b, c].map lower = ['u', 't', 'c'] then some (0, rest) else signed? cs
  | _ => signed? cs
where
  signed? : List Char → Option (Int × List Char)
    | c :: rest =>
      if lower c = 'z' then some (0, rest)
      else if c = '+' then (hoursMinutes? rest).map fun (n, rest) => ((n : Int), rest)
      else if c = '-' ∨ c = '−' then
        (hoursMinutes? rest).map fun (n, rest) => (-(n : Int), rest)
      else none
    | [] => none

/-- Takes more than is written: single digits, blanks around the parts, any offset, and the name of
universal time. -/
def read? (cs : List Char) : Option Instant := do
  let (date, cs) ← date? cs
  let cs ← separator? cs
  let (second, nanos, cs) ← clock? cs
  let (offset, cs) ← offset? (trimStart cs)
  let t : Instant := ⟨date.toDays * 86400 + second - offset, nanos⟩
  if trimStart cs = [] ∧ Instant.minSeconds ≤ t.seconds ∧ t.seconds ≤ Instant.maxSeconds then
    some t
  else none

end PushDelivery.DateText
