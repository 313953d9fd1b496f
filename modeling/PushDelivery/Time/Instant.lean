namespace PushDelivery

/-- Seconds since the start of 1970 and the nanoseconds after the second, both counted forward.
Nanoseconds from a thousand million on belong to a leap second, which stands after second 59 of its
minute. -/
structure Instant where
  seconds : Int
  nanos : Nat
deriving DecidableEq, Repr

namespace Instant

/-- The start of the year -262143, the earliest instant that can be represented. -/
def minSeconds : Int := -8334601228800

/-- The last second of the year 262142. -/
def maxSeconds : Int := 8210266876799

def earliest : Instant := ⟨minSeconds, 0⟩

def ofSeconds? (s : Int) : Option Instant :=
  if minSeconds ≤ s ∧ s ≤ maxSeconds then some ⟨s, 0⟩ else none

def ofMillis? (ms : Int) : Option Instant :=
  if minSeconds ≤ ms / 1000 ∧ ms / 1000 ≤ maxSeconds then
    some ⟨ms / 1000, (ms % 1000).toNat * 1000000⟩
  else none

/-- Milliseconds since 1970, rounded down. -/
def millis (t : Instant) : Int :=
  t.seconds * 1000 + (t.nanos / 1000000 : Nat)

/-- The instant some seconds later, unless that is past the last one. -/
def addSeconds? (t : Instant) (s : Nat) : Option Instant :=
  if t.seconds + s ≤ maxSeconds then some { t with seconds := t.seconds + s } else none

def lt (t u : Instant) : Bool :=
  t.seconds < u.seconds || (t.seconds == u.seconds && t.nanos < u.nanos)

end Instant

end PushDelivery
