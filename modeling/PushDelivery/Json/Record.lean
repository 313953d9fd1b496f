import PushDelivery.Json.Numeral

namespace PushDelivery.Json

mutual

/-- Whether the document can be kept as a value: no holes in its strings, every numeral in range,
and at most `depth` arrays and objects inside one another. -/
def soundWithin : Nat → Json → Bool
  | _, .null => true
  | _, .bool _ => true
  | _, .number n => n.inRange
  | _, .string s => s.string?.isSome
  | 0, .array _ => false
  | depth + 1, .array xs => itemsSoundWithin depth xs
  | 0, .object _ => false
  | depth + 1, .object ms => membersSoundWithin depth ms

def itemsSoundWithin : Nat → List Json → Bool
  | _, [] => true
  | depth, x :: xs => soundWithin depth x && itemsSoundWithin depth xs

def membersSoundWithin : Nat → List (JsonText × Json) → Bool
  | _, [] => true
  | depth, (name, v) :: ms =>
    name.string?.isSome && soundWithin depth v && membersSoundWithin depth ms

end

def maxDepth : Nat := 127

def isSound (j : Json) : Bool :=
  j.soundWithin maxDepth

/-- The fields of a record as a document gives them. -/
inductive Fields where
  /-- By name: one place for each field of the record, empty where the object leaves it out. -/
  | named (values : List (Option Json))
  /-- In order. -/
  | listed (values : List Json)

/-- The value of the one member with a name; fails when there are two. -/
def only? (name : String) (members : List (JsonText × Json)) : Option (Option Json) :=
  match members.filter fun m => m.1 == JsonText.ofString name with
  | [] => some none
  | [(_, v)] => some (some v)
  | _ => none

/-- The fields of a record with these field names. -/
def fields? (names : List String) : Json → Option Fields
  | .object members =>
    if members.all fun m => m.1.string?.isSome then
      (names.mapM fun name => only? name members).map .named
    else none
  | .array values => some (.listed values)
  | _ => none

/-- A choice among names: the name itself, or an object with the name as its only member, which
has to be null. -/
def choice? : Json → Option String
  | .string s => s.string?
  | .object [(name, .null)] => name.string?
  | _ => none

def optional? {α : Type} (read : Json → Option α) : Json → Option (Option α)
  | .null => some none
  | j => (read j).map some

/-- A field that an object may leave out, which is then the same as null. -/
def optionalField? {α : Type} (read : Json → Option α) : Option Json → Option (Option α)
  | none => some none
  | some j => optional? read j

end PushDelivery.Json
