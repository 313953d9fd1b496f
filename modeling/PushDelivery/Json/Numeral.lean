import PushDelivery.Json.Basic
import PushDelivery.Text.Decimal

namespace PushDelivery

open Text

namespace Numeral

/-- One more than the largest unsigned number of 64 bits. -/
def wordLimit : Nat := 0x10000000000000000

/-- One more than the largest signed number of 64 bits. -/
def signedLimit : Nat := 0x8000000000000000

def ofInt (n : Int) : Numeral :=
  ⟨n < 0, Decimal.digits n.natAbs, [], none⟩

/-- The value of a numeral without point and exponent that fits the unsigned or the signed 64-bit
range; `-0` is no integer. -/
def integer? (n : Numeral) : Option Int :=
  if n.fraction ≠ [] ∨ n.exponent.isSome then none
  else
    let m := Decimal.ofDigits n.whole
    if n.negative then
      if 0 < m ∧ m ≤ signedLimit then some (-m) else none
    else if m < wordLimit then some m else none

/-- Takes digits into a significand while it fits 64 bits; gives the digits left over. -/
def gather : Nat → List Char → Nat × List Char
  | sig, [] => (sig, [])
  | sig, c :: rest =>
    let next := sig * 10 + Decimal.value c
    if next < wordLimit then gather next rest else (sig, c :: rest)

/-- The significand and the power of ten that a numeral stands for, before its exponent part. -/
def significand (n : Numeral) : Nat × Int :=
  let (sig, dropped) := gather 0 n.whole
  let (sig', rest) := gather sig n.fraction
  (sig', (dropped.length : Int) - ((n.fraction.length - rest.length : Nat) : Int))

/-- The exponent is capped where it can no longer matter. -/
def power (n : Numeral) (start : Int) : Int :=
  match n.exponent with
  | none => start
  | some (negative, ds) =>
    let e := min (Decimal.ofDigits ds) 0x80000000
    if negative then start - e else start + e

def powerOfTen (e : Nat) : Float :=
  Float.ofScientific 1 false e

/-- Scales by a negative power of ten, in steps of what a floating-point number can hold. -/
def scaleDown : (steps : Nat) → Float → Nat → Float
  | 0, x, _ => x
  | steps + 1, x, e =>
    if e ≤ 308 then x / powerOfTen e
    else if x == 0 then x
    else scaleDown steps (x / powerOfTen 308) (e - 308)

/-- The magnitude as a floating-point number, unless it is beyond the largest one. -/
def magnitude? (n : Numeral) : Option Float :=
  let (sig, start) := n.significand
  let x := Float.ofNat sig
  match n.power start with
  | .negSucc e => some (scaleDown 8 x (e + 1))
  | .ofNat e =>
    if e ≤ 308 then
      let y := x * powerOfTen e
      if y.isInf then none else some y
    else if sig = 0 then some x
    else none

def toFloat? (n : Numeral) : Option Float :=
  n.magnitude?.map fun x => if n.negative then -x else x

def inRange (n : Numeral) : Bool :=
  n.integer?.isSome || n.magnitude?.isSome

end Numeral

namespace Json

def ofInt (n : Int) : Json :=
  .number (.ofInt n)

/-- The integer, when the document holds one in the given range. -/
def int? (low high : Int) : Json → Option Int
  | .number n => n.integer?.filter fun i => low ≤ i && i ≤ high
  | _ => none

def nat? (high : Nat) (j : Json) : Option Nat :=
  (j.int? 0 high).map Int.toNat

end Json

end PushDelivery
