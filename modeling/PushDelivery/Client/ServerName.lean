import PushDelivery.Text.Decimal
import PushDelivery.Text.Hex
import PushDelivery.Text.Split

namespace PushDelivery.ServerName

open Text

def isLabelChar (c : Char) : Bool :=
  c.isAlphanum || c == '-' || c == '_'

/-- A label has 1 to 63 letters, digits, underscores and hyphens, with no hyphen at an end. -/
def isLabel (label : List Char) : Bool :=
  label ≠ [] && label.length ≤ 63 && label.all isLabelChar && label.head? != some '-' &&
    label.getLast? != some '-'

def labels (name : List Char) : List (List Char) :=
  let parts := split '.' name
  if parts.getLast? = some [] then parts.dropLast else parts

/-- No more than 253 characters, and a last label that is not a number. -/
def isDomainName (name : List Char) : Bool :=
  name.length ≤ 253 && (labels name).all isLabel &&
    match (labels name).getLast? with
    | none => false
    | some last => !last.all Char.isDigit

/-- One of the four numbers of an address, without leading zeros. -/
def isOctet (cs : List Char) : Bool :=
  cs ≠ [] && cs.length ≤ 3 && cs.all Char.isDigit && (cs.length == 1 || cs.head? != some '0') &&
    Decimal.ofDigits cs ≤ 255

def isVersion4 (cs : List Char) : Bool :=
  let parts := split '.' cs
  parts.length == 4 && parts.all isOctet

/-- One to four hexadecimal digits: 16 bits of an address. -/
def isGroup (cs : List Char) : Bool :=
  cs ≠ [] && cs.length ≤ 4 && cs.all Hex.isDigit

/-- How many groups of 16 bits stand between colons. The last two may be written as an address of
version 4. -/
def groups? : List (List Char) → Option Nat
  | [] => some 0
  | [last] => if isGroup last then some 1 else if isVersion4 last then some 2 else none
  | part :: rest => if isGroup part then (groups? rest).map (· + 1) else none

def groupsOf? (cs : List Char) : Option Nat :=
  if cs = [] then some 0 else groups? (split ':' cs)

/-- What stands before and behind the first two colons in a row. -/
def splitGap : List Char → Option (List Char × List Char)
  | ':' :: ':' :: rest => some ([], rest)
  | c :: rest => (splitGap rest).map fun (before, behind) => (c :: before, behind)
  | [] => none

/-- Eight groups; two colons in a row stand for one or more groups of zeros. -/
def isVersion6 (cs : List Char) : Bool :=
  match splitGap cs with
  | none => groups? (split ':' cs) == some 8
  | some (before, behind) =>
    match groupsOf? before, groupsOf? behind with
    | some m, some n => m + n ≤ 7 && !before.contains '.'
    | _, _ => false

def isValid (name : String) : Bool :=
  let cs := name.toList
  isDomainName cs || isVersion4 cs || isVersion6 cs

end PushDelivery.ServerName
