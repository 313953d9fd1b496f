namespace PushDelivery

structure Headers where
  entries : List (String × String)
deriving DecidableEq, Repr

namespace Headers

def empty : Headers := ⟨[]⟩

/-- Whether a character may stand in a header value: no control character but the tab. -/
def carries (c : Char) : Bool :=
  c == '\t' || (0x20 ≤ c.toNat && c.toNat != 0x7F)

/-- Whether a character of a header value can be read: visible ASCII, the space and the tab. -/
def isPlain (c : Char) : Bool :=
  c == '\t' || (0x20 ≤ c.toNat && c.toNat < 0x7F)

def isReadable (value : String) : Bool :=
  value.toList.all isPlain

/-- The first value of a name, in whatever case the name is written. -/
def first? (name : String) (h : Headers) : Option String :=
  (h.entries.find? fun e => e.1.toLower == name).map Prod.snd

/-- The first value of a name as text; a value that is not plain counts as absent. -/
def get? (name : String) (h : Headers) : Option String :=
  (h.first? name).filter isReadable

def sorted (h : Headers) : Headers :=
  ⟨h.entries.mergeSort fun a b => a.1 < b.1 || (a.1 == b.1 && a.2 ≤ b.2)⟩

end Headers

end PushDelivery
