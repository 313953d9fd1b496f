namespace PushDelivery

structure IdSupply where
  next : Nat := 1
deriving DecidableEq, Repr

namespace IdSupply

/-- The next identifier, and the supply without it. -/
def take (s : IdSupply) : Nat × IdSupply :=
  (s.next, ⟨s.next + 1⟩)

end IdSupply

end PushDelivery
