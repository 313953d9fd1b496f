namespace PushDelivery

/-- The characters of a string in a document. `none` is a byte outside UTF-8 or an escaped
surrogate without its partner. -/
abbrev JsonText := List (Option Char)

/-- A numeral as written: digits before the point, digits after it (none without a point), and
the exponent with its sign. -/
structure Numeral where
  negative : Bool
  whole : List Char
  fraction : List Char
  exponent : Option (Bool × List Char)
deriving DecidableEq, Repr

/-- A document as it is written. Numerals keep their digits and strings their holes, so that a
reader can pass over a part it has no use for without judging it. -/
inductive Json where
  | null
  | bool (b : Bool)
  | number (n : Numeral)
  | string (s : JsonText)
  | array (items : List Json)
  | object (members : List (JsonText × Json))

namespace JsonText

def ofString (s : String) : JsonText :=
  s.toList.map some

def string? (s : JsonText) : Option String :=
  (s.mapM id).map String.ofList

end JsonText

namespace Json

def ofString (s : String) : Json :=
  .string (JsonText.ofString s)

def isNull : Json → Bool
  | .null => true
  | _ => false

def string? : Json → Option String
  | .string s => s.string?
  | _ => none

def bool? : Json → Option Bool
  | .bool b => some b
  | _ => none

/-- The value of a member; of several with one name, the last. -/
def get? (name : String) : Json → Option Json
  | .object members =>
    (members.reverse.find? fun m => m.1 == JsonText.ofString name).map Prod.snd
  | _ => none

end Json

end PushDelivery
