namespace PushDelivery.Text.Decimal

def digit (n : Nat) : Char :=
  Char.ofNat ('0'.toNat + n % 10)

def value (c : Char) : Nat :=
  c.toNat - '0'.toNat

/-- The digits of a number, the first of which is zero only for zero itself. -/
def digits (n : Nat) : List Char :=
  if n < 10 then [digit n] else digits (n / 10) ++ [digit n]
termination_by n
decreasing_by omega

/-- The number that a list of digits stands for, after those already read. -/
def accumulate : Nat → List Char → Nat
  | acc, [] => acc
  | acc, c :: rest => accumulate (acc * 10 + value c) rest

def ofDigits (cs : List Char) : Nat :=
  accumulate 0 cs

def padded : (width : Nat) → Nat → List Char
  | 0, _ => []
  | width + 1, n => padded width (n / 10) ++ [digit n]

def ofNat (n : Nat) : String :=
  String.ofList (digits n)

def signed (n : Int) : List Char :=
  match n with
  | .ofNat n => digits n
  | .negSucc n => '-' :: digits (n + 1)

def ofInt (n : Int) : String :=
  String.ofList (signed n)

end PushDelivery.Text.Decimal
