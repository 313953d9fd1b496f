import PushDelivery.Json.Numeral
import PushDelivery.Text.Hex
import PushDelivery.Text.Utf8

namespace PushDelivery.Json

open Text

/-- What a reader sees of a document: its characters, and `none` for a byte outside UTF-8. -/
abbrev Symbols := List (Option Char)

/-- One place of a string: a character, or the 16-bit unit of a `\u` escape. -/
inductive Piece where
  | plain (c : Option Char)
  | unit (n : Nat)

def isHighSurrogate (n : Nat) : Bool :=
  0xD800 ≤ n && n < 0xDC00

def isLowSurrogate (n : Nat) : Bool :=
  0xDC00 ≤ n && n < 0xE000

def join : List Piece → JsonText
  | [] => []
  | .plain c :: rest => c :: join rest
  | [.unit n] => [if isHighSurrogate n || isLowSurrogate n then none else some (Char.ofNat n)]
  | .unit n :: .plain c :: rest =>
    (if isHighSurrogate n || isLowSurrogate n then none else some (Char.ofNat n)) ::
      c :: join rest
  | .unit n :: .unit m :: rest =>
    if isHighSurrogate n && isLowSurrogate m then
      some (Char.ofNat (0x10000 + (n - 0xD800) * 0x400 + (m - 0xDC00))) :: join rest
    else
      (if isHighSurrogate n || isLowSurrogate n then none else some (Char.ofNat n)) ::
        join (.unit m :: rest)

def hexValue? (s : Option Char) : Option Nat :=
  s.bind Hex.value?

def escaped? : Char → Option Char
  | '"' => some '"'
  | '\\' => some '\\'
  | '/' => some '/'
  | 'b' => some '\x08'
  | 'f' => some '\x0c'
  | 'n' => some '\n'
  | 'r' => some '\r'
  | 't' => some '\t'
  | _ => none

/-- The rest of a string, from behind its opening quote. -/
def pieces : Symbols → Option (List Piece × Symbols)
  | [] => none
  | some '"' :: rest => some ([], rest)
  | some '\\' :: some 'u' :: a :: b :: c :: d :: rest => do
    let n₁ ← hexValue? a
    let n₂ ← hexValue? b
    let n₃ ← hexValue? c
    let n₄ ← hexValue? d
    let (ps, rest') ← pieces rest
    return (.unit (((n₁ * 16 + n₂) * 16 + n₃) * 16 + n₄) :: ps, rest')
  | some '\\' :: some e :: rest => do
    let c ← escaped? e
    let (ps, rest') ← pieces rest
    return (.plain (some c) :: ps, rest')
  | some '\\' :: _ => none
  | s :: rest =>
    if s.any (fun c => c.toNat < 0x20) then none
    else do
      let (ps, rest') ← pieces rest
      return (.plain s :: ps, rest')

def text (input : Symbols) : Option (JsonText × Symbols) :=
  (pieces input).map fun (ps, rest) => (join ps, rest)

def isSpace : Option Char → Bool
  | some c => c == ' ' || c == '\t' || c == '\n' || c == '\r'
  | none => false

def skipSpace (input : Symbols) : Symbols :=
  input.dropWhile isSpace

def takeDigits : Symbols → List Char × Symbols
  | some c :: rest =>
    if c.isDigit then
      let (ds, rest') := takeDigits rest
      (c :: ds, rest')
    else ([], some c :: rest)
  | input => ([], input)

def someDigits (input : Symbols) : Option (List Char × Symbols) :=
  match takeDigits input with
  | ([], _) => none
  | (ds, rest) => some (ds, rest)

/-- The digits before the point: a zero alone, or digits that do not start with one. -/
def wholePart : Symbols → Option (List Char × Symbols)
  | some '0' :: rest => some (['0'], rest)
  | input => someDigits input

def fractionPart : Symbols → Option (List Char × Symbols)
  | some '.' :: rest => someDigits rest
  | input => some ([], input)

def exponentSign : Symbols → Bool × Symbols
  | some '-' :: rest => (true, rest)
  | some '+' :: rest => (false, rest)
  | input => (false, input)

def exponentPart (input : Symbols) : Option (Option (Bool × List Char) × Symbols) :=
  match input with
  | some c :: rest =>
    if c == 'e' || c == 'E' then do
      let (negative, rest') := exponentSign rest
      let (ds, rest'') ← someDigits rest'
      return (some (negative, ds), rest'')
    else some (none, input)
  | _ => some (none, input)

def unsignedNumeral (negative : Bool) (input : Symbols) : Option (Numeral × Symbols) := do
  let (whole, rest) ← wholePart input
  let (fraction, rest) ← fractionPart rest
  let (exponent, rest) ← exponentPart rest
  return (⟨negative, whole, fraction, exponent⟩, rest)

def numeral : Symbols → Option (Numeral × Symbols)
  | some '-' :: rest => unsignedNumeral true rest
  | input => unsignedNumeral false input

mutual

/-- A value and what follows it. The first argument bounds the number of steps. -/
def value : Nat → Symbols → Option (Json × Symbols)
  | 0, _ => none
  | steps + 1, input =>
    match skipSpace input with
    | some '"' :: rest => (text rest).map fun (s, rest) => (.string s, rest)
    | some '{' :: rest =>
      match skipSpace rest with
      | some '}' :: rest => some (.object [], rest)
      | rest => (members steps rest).map fun (ms, rest) => (.object ms, rest)
    | some '[' :: rest =>
      match skipSpace rest with
      | some ']' :: rest => some (.array [], rest)
      | rest => (items steps rest).map fun (xs, rest) => (.array xs, rest)
    | some 'n' :: some 'u' :: some 'l' :: some 'l' :: rest => some (.null, rest)
    | some 't' :: some 'r' :: some 'u' :: some 'e' :: rest => some (.bool true, rest)
    | some 'f' :: some 'a' :: some 'l' :: some 's' :: some 'e' :: rest =>
      some (.bool false, rest)
    | rest => (numeral rest).map fun (n, rest) => (.number n, rest)

/-- The members of an object from the first name on, and what follows the closing brace. -/
def members : Nat → Symbols → Option (List (JsonText × Json) × Symbols)
  | 0, _ => none
  | steps + 1, input =>
    match skipSpace input with
    | some '"' :: rest => do
      let (name, rest) ← text rest
      match skipSpace rest with
      | some ':' :: rest =>
        let (v, rest) ← value steps rest
        match skipSpace rest with
        | some ',' :: rest =>
          let (ms, rest) ← members steps rest
          return ((name, v) :: ms, rest)
        | some '}' :: rest => return ([(name, v)], rest)
        | _ => none
      | _ => none
    | _ => none

/-- The items of an array from the first on, and what follows the closing bracket. -/
def items : Nat → Symbols → Option (List Json × Symbols)
  | 0, _ => none
  | steps + 1, input => do
    let (v, rest) ← value steps input
    match skipSpace rest with
    | some ',' :: rest =>
      let (vs, rest) ← items steps rest
      return (v :: vs, rest)
    | some ']' :: rest => return ([v], rest)
    | _ => none

end

/-- The document, when nothing but space follows it. Every step of the reader consumes a symbol,
so the length bounds the steps. -/
def ofSymbols? (input : Symbols) : Option Json := do
  let (v, rest) ← value (input.length + 1) input
  if skipSpace rest = [] then some v else none

def ofString? (s : String) : Option Json :=
  ofSymbols? (s.toList.map some)

def ofBytes? (bytes : List UInt8) : Option Json :=
  ofSymbols? (Utf8.scan bytes)

end PushDelivery.Json
