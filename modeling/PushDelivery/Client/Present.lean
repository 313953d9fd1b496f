import PushDelivery.Crypto.P256
import PushDelivery.Time.Duration
import PushDelivery.Time.Instant

namespace PushDelivery

/-- Nanoseconds since the client started, by a clock that never goes back. -/
abbrev Moment := Nat

namespace Moment

/-- The moment some time later. There is no last moment, although a clock that counts seconds in
63 bits stops a program whose spans lead past its end. -/
def after (m : Moment) (d : Duration) : Moment :=
  m + d.nanos

end Moment

structure Present where
  time : Moment
  /-- The time of the calendar. -/
  date : Instant
  /-- A secret number that no other step is given. -/
  secret : P256.Scalar

end PushDelivery
