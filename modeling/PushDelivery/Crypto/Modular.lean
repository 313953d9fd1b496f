namespace PushDelivery.Modular

variable {m : Nat}

/-- The lowest binary digits of a number, so many, the highest first. -/
def digits (count n : Nat) : List Bool :=
  (List.range count).reverse.map n.testBit

/-- A power; `one` is the one whose exponent is zero. So many binary digits of the exponent
count. -/
def power (count : Nat) (one a : Fin m) (e : Nat) : Fin m :=
  (digits count e).foldl (fun acc digit => if digit then acc * acc * a else acc * acc) one

/-- The sum of `k` copies of a number. -/
def scale (k : Nat) (a : Fin m) : Fin m :=
  ⟨k * a.val % m, Nat.mod_lt _ a.pos⟩

end PushDelivery.Modular
