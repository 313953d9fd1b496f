import PushDelivery.Json.Numeral
import PushDelivery.Text.Hex

namespace PushDelivery.Json

open Text

def escape (c : Char) : List Char :=
  if c = '"' then ['\\', '"']
  else if c = '\\' then ['\\', '\\']
  else if c = '\x08' then ['\\', 'b']
  else if c = '\x0c' then ['\\', 'f']
  else if c = '\n' then ['\\', 'n']
  else if c = '\r' then ['\\', 'r']
  else if c = '\t' then ['\\', 't']
  else if c.toNat < 0x20 then '\\' :: 'u' :: Hex.padded 4 c.toNat
  else [c]

def quote (cs : List Char) : List Char :=
  '"' :: cs.flatMap escape ++ ['"']

def renderNumeral (n : Numeral) : List Char :=
  (if n.negative then ['-'] else []) ++ n.whole ++
    (if n.fraction = [] then [] else '.' :: n.fraction) ++
    match n.exponent with
    | none => []
    | some (negative, ds) => 'e' :: (if negative then ['-'] else []) ++ ds

mutual

def render : Json → List Char
  | .null => ['n', 'u', 'l', 'l']
  | .bool true => ['t', 'r', 'u', 'e']
  | .bool false => ['f', 'a', 'l', 's', 'e']
  | .number n => renderNumeral n
  | .string s => quote (s.filterMap id)
  | .array [] => ['[', ']']
  | .array (x :: xs) => '[' :: render x ++ renderItems xs ++ [']']
  | .object [] => ['{', '}']
  | .object ((name, v) :: ms) =>
    '{' :: quote (name.filterMap id) ++ ':' :: render v ++ renderMembers ms ++ ['}']

def renderItems : List Json → List Char
  | [] => []
  | x :: xs => ',' :: render x ++ renderItems xs

def renderMembers : List (JsonText × Json) → List Char
  | [] => []
  | (name, v) :: ms => ',' :: quote (name.filterMap id) ++ ':' :: render v ++ renderMembers ms

end

def toText (j : Json) : String :=
  String.ofList j.render

end PushDelivery.Json
