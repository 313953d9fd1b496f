import PushDelivery.Client.Dispatch

namespace PushDelivery

/-- The notifications that wait for an answer, by stream. A slot is there from the write until the
answer has been dealt with or the connection is given up. -/
structure OpenStreams where
  slots : List (Nat × Dispatch) := []
  /-- The highest stream id ever registered, zero before the first. -/
  highest : Nat := 0
deriving Repr

namespace OpenStreams

def size (s : OpenStreams) : Nat :=
  s.slots.length

def get? (stream : Nat) (s : OpenStreams) : Option Dispatch :=
  (s.slots.find? fun e => e.1 == stream).map Prod.snd

def erase (stream : Nat) (s : OpenStreams) : OpenStreams :=
  { s with slots := s.slots.filter fun e => e.1 != stream }

/-- Stream ids only ever rise, so one that is not above all before it is refused, or that is
there already. -/
def register? (stream : Nat) (p : Dispatch) (s : OpenStreams) : Option OpenStreams :=
  if stream ≤ s.highest ∨ (s.get? stream).isSome then none
  else some ⟨s.slots ++ [(stream, p)], stream⟩

/-- Empties a slot without resolving its notification. -/
def take (stream : Nat) (s : OpenStreams) : Option Dispatch × OpenStreams :=
  (s.get? stream, s.erase stream)

/-- Resolves what waits in a slot. Nothing is reported for a stream that is not known. -/
def resolve (stream : Nat) (how : Dispatch → Report) (s : OpenStreams) :
    List Report × OpenStreams :=
  (((s.get? stream).map how).toList, s.erase stream)

def answer (stream status : Nat) (apnsId : Option Uuid) (d : Decision) (s : OpenStreams) :
    List Report × OpenStreams :=
  s.resolve stream fun p => p.answer status apnsId d

def fail (stream : Nat) (e : SendError) (s : OpenStreams) : List Report × OpenStreams :=
  s.resolve stream fun p => p.fail e

/-- Fails all that is left. Whether the gateway has acted on it is unknown. -/
def drain (s : OpenStreams) : List Report × OpenStreams :=
  (s.slots.map fun e => e.2.drop, { s with slots := [] })

end OpenStreams

end PushDelivery
