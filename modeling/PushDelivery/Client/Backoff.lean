import PushDelivery.Time.Duration

namespace PushDelivery

structure Backoff where
  initial : Duration
  max : Duration
  current : Duration
deriving DecidableEq, Repr

namespace Backoff

def start (initial max : Duration) : Backoff :=
  ⟨initial, max, initial⟩

/-- The delay to wait for after a failure; the one after that is twice as long. -/
def next (b : Backoff) : Duration × Backoff :=
  (b.current, { b with current := (b.current.double?.getD b.max).min b.max })

def reset (b : Backoff) : Backoff :=
  { b with current := b.initial }

end Backoff

end PushDelivery
