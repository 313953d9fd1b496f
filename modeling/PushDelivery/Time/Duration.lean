import PushDelivery.Text.Decimal

namespace PushDelivery

open Text

structure Duration where
  nanos : Nat
deriving DecidableEq, Repr

namespace Duration

def zero : Duration := ⟨0⟩

/-- The longest span: 2^64 - 1 seconds and all but one nanosecond of the next. -/
def longest : Duration := ⟨0x10000000000000000 * 1000000000 - 1⟩

def ofMillis (ms : Nat) : Duration := ⟨ms * 1000000⟩

def ofSeconds (s : Nat) : Duration := ⟨s * 1000000000⟩

def ofParts (seconds nanos : Nat) : Duration := ⟨seconds * 1000000000 + nanos⟩

def seconds (d : Duration) : Nat := d.nanos / 1000000000

def subsecond (d : Duration) : Nat := d.nanos % 1000000000

def millis (d : Duration) : Nat := d.nanos / 1000000

/-- Twice the span, unless that is longer than the longest one. -/
def double? (d : Duration) : Option Duration :=
  if 2 * d.nanos ≤ longest.nanos then some ⟨2 * d.nanos⟩ else none

def min (d e : Duration) : Duration :=
  if d.nanos ≤ e.nanos then d else e

/-- A fraction of `width` digits without its trailing zeros, and the point before it. -/
def renderFraction (width n : Nat) : List Char :=
  match ((Decimal.padded width n).reverse.dropWhile (· == '0')).reverse with
  | [] => []
  | ds => '.' :: ds

/-- The span in the largest of its units that is not below one, as `51.2s`, `100ms` or `0ns`. -/
def render (d : Duration) : List Char :=
  if 1000000000 ≤ d.nanos then
    Decimal.digits (d.nanos / 1000000000) ++ renderFraction 9 (d.nanos % 1000000000) ++ ['s']
  else if 1000000 ≤ d.nanos then
    Decimal.digits (d.nanos / 1000000) ++ renderFraction 6 (d.nanos % 1000000) ++ ['m', 's']
  else if 1000 ≤ d.nanos then
    Decimal.digits (d.nanos / 1000) ++ renderFraction 3 (d.nanos % 1000) ++ ['µ', 's']
  else Decimal.digits d.nanos ++ ['n', 's']

def toText (d : Duration) : String :=
  String.ofList d.render

end Duration

end PushDelivery
