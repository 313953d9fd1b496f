namespace PushDelivery

inductive RequestError where
  | schemeTooLong
  | invalidScheme
  | empty
  | invalidAuthority
  | invalidCharacter
  | tooLong
  | invalidHeaderValue
deriving DecidableEq, Repr

namespace RequestError

def message : RequestError → String
  | schemeTooLong => "scheme too long"
  | invalidScheme => "invalid scheme"
  | empty => "empty string"
  | invalidAuthority => "invalid authority"
  | invalidCharacter => "invalid uri character"
  | tooLong => "uri too long"
  | invalidHeaderValue => "failed to parse header value"

end RequestError

structure Uri where
  scheme : List Char
  authority : List Char
  path : List Char
  query : Option (List Char)
deriving DecidableEq, Repr

namespace Uri

def render (u : Uri) : List Char :=
  u.scheme ++ [':', '/', '/'] ++ u.authority ++ u.path ++
    match u.query with
    | none => []
    | some q => '?' :: q

def utf8Length : List Char → Nat
  | [] => 0
  | c :: rest => c.utf8Size + utf8Length rest

def inRanges (ranges : List (Nat × Nat)) (c : Char) : Bool :=
  ranges.any fun (low, high) => low ≤ c.toNat && c.toNat ≤ high

def isSchemeChar (c : Char) : Bool :=
  c.isAlphanum || c == '+' || c == '-' || c == '.' || c == '~'

/-- No more than 64 bytes of letters, digits and a few marks. -/
def checkScheme (cs : List Char) : Except RequestError Unit :=
  if cs = "http".toList ∨ cs = "https".toList then .ok ()
  else if 64 < utf8Length cs then .error .schemeTooLong
  else if cs.all isSchemeChar then .ok ()
  else .error .invalidScheme

/-- What may stand in an authority besides the marks that end it and the percent sign. -/
def isAuthorityChar (c : Char) : Bool :=
  c.isAlphanum || "!$&'()*+,-.:;=@[]_~".toList.contains c

structure AuthorityScan where
  colons : Nat := 0
  opened : Bool := false
  closed : Bool := false
  percent : Bool := false
  /-- The last character was the `@` that ends the user's part. -/
  atEnd : Bool := false

def scanChar (s : AuthorityScan) (c : Char) : Except RequestError AuthorityScan :=
  let s := { s with atEnd := false }
  if c = ':' then
    if 8 ≤ s.colons then .error .invalidAuthority else .ok { s with colons := s.colons + 1 }
  else if c = '[' then
    if s.percent || s.opened then .error .invalidAuthority else .ok { s with opened := true }
  else if c = ']' then
    if !s.opened || s.closed then .error .invalidAuthority
    else .ok { s with closed := true, colons := 0, percent := false }
  else if c = '@' then .ok { s with colons := 0, percent := false, atEnd := true }
  else if c = '%' then .ok { s with percent := true }
  else if isAuthorityChar c then .ok s
  else .error .invalidCharacter

/-- Reads up to the first character that can only belong to what follows an authority; says
whether there was one. -/
def scanAuthority : AuthorityScan → List Char → Except RequestError (AuthorityScan × Bool)
  | s, [] => .ok (s, false)
  | s, c :: rest =>
    if c = '/' ∨ c = '?' ∨ c = '#' then .ok (s, true)
    else (scanChar s c).bind fun s => scanAuthority s rest

/-- A host, in brackets or not, with at most one port behind it and a user in front of it. -/
def checkAuthority (cs : List Char) : Except RequestError Unit :=
  if cs = [] then .error .empty
  else do
    let (s, cut) ← scanAuthority {} cs
    if s.opened != s.closed || 1 < s.colons || s.atEnd || s.percent then .error .invalidAuthority
    else if cut then .error .invalidCharacter
    else .ok ()

def pathRanges : List (Nat × Nat) :=
  [(0x21, 0x22), (0x24, 0x3B), (0x3D, 0x3D), (0x40, 0x5F), (0x61, 0x7E), (0x80, 0x10FFFF)]

def queryRanges : List (Nat × Nat) :=
  [(0x21, 0x21), (0x24, 0x3B), (0x3D, 0x3D), (0x3F, 0x7E), (0x80, 0x10FFFF)]

/-- The longest path with its query, in bytes. -/
def maxLength : Nat := 65534

def beforeFragment (cs : List Char) : List Char :=
  cs.takeWhile (· != '#')

/-- Path and query of a target; what follows `#` is cut off and not looked at. -/
def splitTarget (cs : List Char) : List Char × Option (List Char) :=
  let kept := beforeFragment cs
  match kept.dropWhile (· != '?') with
  | [] => (kept, none)
  | _ :: query => (kept.takeWhile (· != '?'), some query)

def build (scheme authority target : List Char) : Except RequestError Uri := do
  checkScheme scheme
  checkAuthority authority
  if maxLength < utf8Length target then .error .tooLong
  else
    let (path, query) := splitTarget target
    if path.all (inRanges pathRanges) && (query.getD []).all (inRanges queryRanges) then
      .ok ⟨scheme, authority, path, query⟩
    else .error .invalidCharacter

theorem build_eq_ok {scheme authority target : List Char} {u : Uri}
    (h : build scheme authority target = .ok u) :
    checkScheme scheme = .ok () ∧ checkAuthority authority = .ok () ∧
      utf8Length target ≤ maxLength ∧ u.path = (splitTarget target).1 := by
  unfold build at h
  cases hs : checkScheme scheme with
  | error e => simp [hs, bind, Except.bind] at h
  | ok x =>
    cases ha : checkAuthority authority with
    | error e => simp [hs, ha, bind, Except.bind] at h
    | ok y =>
      simp only [hs, ha, bind, Except.bind] at h
      split at h
      · cases h
      · rename_i hlength
        split at h
        · obtain rfl := Except.ok.inj h
          exact ⟨rfl, rfl, Nat.not_lt.mp hlength, rfl⟩
        · cases h

end Uri

end PushDelivery
