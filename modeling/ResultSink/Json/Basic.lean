/-! JSON trees and their compact text. -/

namespace ResultSink

/-- A JSON value. A string, also one that is a key, is absent if half of a surrogate pair stands
alone in it, for then it is no text. A numeral with a point or an exponent is not a whole number,
and neither is `-0`; its value is not kept. -/
inductive Json where
  | null
  | bool (b : Bool)
  | whole (n : Int)
  | fractional
  | string (s : Option String)
  | array (items : List Json)
  | object (members : List (Option String × Json))

namespace Json

def text (s : String) : Json := .string (some s)

def ofFields (fields : List (String × Json)) : Json :=
  .object (fields.map fun f => (some f.1, f.2))

/-- A whole number, or null where there is none. -/
def ofNat? : Option Nat → Json
  | some n => .whole n
  | none => .null

/-- The four hexadecimal digits of a code unit. -/
def unitDigits (n : Nat) : List Char :=
  [n / 4096, n / 256, n / 16, n].map fun k => Nat.digitChar (k % 16)

/-- A character as it stands in a string. -/
def quotedChar (c : Char) : List Char :=
  if c = '"' then ['\\', '"']
  else if c = '\\' then ['\\', '\\']
  else if c = '\n' then ['\\', 'n']
  else if c = '\r' then ['\\', 'r']
  else if c = '\t' then ['\\', 't']
  else if c.toNat = 8 then ['\\', 'b']
  else if c.toNat = 12 then ['\\', 'f']
  else if c.toNat < 32 then '\\' :: 'u' :: unitDigits c.toNat
  else [c]

def quoted (s : String) : List Char :=
  '"' :: s.toList.flatMap quotedChar ++ ['"']

mutual

/-- The characters of a value, without blanks. What has no value left is written as null. -/
def chars : Json → List Char
  | .null | .fractional | .string none => "null".toList
  | .bool b => (if b then "true" else "false").toList
  | .whole n => (toString n).toList
  | .string (some s) => quoted s
  | .array items => '[' :: itemChars items ++ [']']
  | .object members => '{' :: memberChars members ++ ['}']

def itemChars : List Json → List Char
  | [] => []
  | [j] => chars j
  | j :: js => chars j ++ ',' :: itemChars js

def memberChars : List (Option String × Json) → List Char
  | [] => []
  | [(key, j)] => quoted (key.getD "") ++ ':' :: chars j
  | (key, j) :: members => quoted (key.getD "") ++ ':' :: chars j ++ ',' :: memberChars members

end

def render (j : Json) : String := String.ofList j.chars

end Json

end ResultSink
