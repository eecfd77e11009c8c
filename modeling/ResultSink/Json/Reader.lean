import ResultSink.Bytes
import ResultSink.Json.Basic

/-! JSON values read from text, strictly by the grammar: no comment, no comma before a closing
bracket, no leading zero, no control character in a string, and nothing after the value. -/

namespace ResultSink.Json

/-- Reads from the front of some characters and leaves the rest. -/
abbrev Scan (α : Type) := List Char → Option (α × List Char)

/-- The characters after the blanks at the front. -/
def skipBlanks (cs : List Char) : List Char :=
  cs.dropWhile fun c => c = ' ' || c = '\t' || c = '\n' || c = '\r'

def scanWord (word : String) : Scan Unit := fun cs =>
  if word.toList.isPrefixOf cs then some ((), cs.drop word.length) else none

def scanDigits : Scan (List Char) := fun cs =>
  let digits := cs.takeWhile Char.isDigit
  if digits.isEmpty then none else some (digits, cs.dropWhile Char.isDigit)

/-- Reads the digits of a whole number: one zero, or digits of which the first is not zero. -/
def scanWhole : Scan Nat
  | '0' :: cs => some (0, cs)
  | cs => (scanDigits cs).map fun (digits, rest) => (Nat.ofDigitChars 10 digits 0, rest)

/-- Reads a point and digits, if a point follows; the flag tells whether it did. -/
def scanFraction : Scan Bool
  | '.' :: cs => (scanDigits cs).map fun (_, rest) => (true, rest)
  | cs => some (false, cs)

/-- Reads an exponent, if one follows; the flag tells whether it did. -/
def scanExponent : Scan Bool
  | c :: cs =>
    if c = 'e' ∨ c = 'E' then
      let cs :=
        match cs with
        | '+' :: rest | '-' :: rest => rest
        | rest => rest
      (scanDigits cs).map fun (_, rest) => (true, rest)
    else some (false, c :: cs)
  | [] => some (false, [])

/-- Reads the unsigned part of a numeral. A digit cannot follow, since a leading zero is not
allowed. -/
def scanMagnitude (negative : Bool) : Scan Json := fun cs => do
  let (n, cs) ← scanWhole cs
  if (cs.head?.map Char.isDigit).getD false then none
  else
    let (point, cs) ← scanFraction cs
    let (exponent, cs) ← scanExponent cs
    if point || exponent || (negative && n = 0) then some (.fractional, cs)
    else some (.whole (if negative then -(n : Int) else n), cs)

def scanNumber : Scan Json
  | '-' :: cs => scanMagnitude true cs
  | cs => scanMagnitude false cs

/-- The code unit of four hexadecimal digits. -/
def unitOf? (a b c d : Char) : Option Nat := do
  return 4096 * (← hexDigit? a) + 256 * (← hexDigit? b) + 16 * (← hexDigit? c) + (← hexDigit? d)

/-- The character that a backslash and another character stand for. -/
def escaped? : Char → Option Char
  | '"' => some '"'
  | '\\' => some '\\'
  | '/' => some '/'
  | 'b' => some '\x08'
  | 'f' => some '\x0c'
  | 'n' => some '\n'
  | 'r' => some '\r'
  | 't' => some '\t'
  | _ => none

/-- Reads the rest of a string as code points, a named code unit standing for itself. -/
def scanUnits : List Char → List Nat → Option (List Nat × List Char)
  | [], _ => none
  | '"' :: cs, units => some (units.reverse, cs)
  | '\\' :: 'u' :: a :: b :: c :: d :: cs, units =>
    match unitOf? a b c d with
    | some n => scanUnits cs (n :: units)
    | none => none
  | '\\' :: c :: cs, units =>
    match escaped? c with
    | some e => scanUnits cs (e.toNat :: units)
    | none => none
  | c :: cs, units => if c.toNat < 32 then none else scanUnits cs (c.toNat :: units)

/-- The characters of code points in which surrogates stand in pairs. -/
def joinPairs? : List Nat → Option (List Char)
  | [] => some []
  | n :: rest =>
    if 0xd800 ≤ n ∧ n < 0xdc00 then
      match rest with
      | m :: rest =>
        if 0xdc00 ≤ m ∧ m < 0xe000 then
          (joinPairs? rest).map (Char.ofNat (0x10000 + (n - 0xd800) * 1024 + (m - 0xdc00)) :: ·)
        else none
      | [] => none
    else if 0xdc00 ≤ n ∧ n < 0xe000 then none
    else (joinPairs? rest).map (Char.ofNat n :: ·)

/-- Reads a string after its opening quote. -/
def scanString : Scan (Option String) := fun cs =>
  (scanUnits cs []).map fun (units, rest) => ((joinPairs? units).map String.ofList, rest)

mutual

/-- Reads a value, blanks before it allowed. Every step of the fuel takes a character or opens a
bracket. -/
def scanValue : Nat → Scan Json
  | 0, _ => none
  | fuel + 1, cs =>
    match skipBlanks cs with
    | 'n' :: rest => (scanWord "ull" rest).map fun (_, rest) => (.null, rest)
    | 't' :: rest => (scanWord "rue" rest).map fun (_, rest) => (.bool true, rest)
    | 'f' :: rest => (scanWord "alse" rest).map fun (_, rest) => (.bool false, rest)
    | '"' :: rest => (scanString rest).map fun (s, rest) => (.string s, rest)
    | '[' :: rest =>
      match skipBlanks rest with
      | ']' :: rest => some (.array [], rest)
      | rest => (scanItems fuel rest []).map fun (items, rest) => (.array items, rest)
    | '{' :: rest =>
      match skipBlanks rest with
      | '}' :: rest => some (.object [], rest)
      | rest => (scanMembers fuel rest []).map fun (members, rest) => (.object members, rest)
    | rest => scanNumber rest

/-- Reads the items of an array that is not empty, after those already read. -/
def scanItems : Nat → List Char → List Json → Option (List Json × List Char)
  | 0, _, _ => none
  | fuel + 1, cs, items =>
    match scanValue fuel cs with
    | none => none
    | some (item, rest) =>
      match skipBlanks rest with
      | ',' :: rest => scanItems fuel rest (item :: items)
      | ']' :: rest => some ((item :: items).reverse, rest)
      | _ => none

/-- Reads the members of an object that is not empty, after those already read. -/
def scanMembers : Nat → List Char → List (Option String × Json) →
    Option (List (Option String × Json) × List Char)
  | 0, _, _ => none
  | fuel + 1, cs, members =>
    match skipBlanks cs with
    | '"' :: rest =>
      match scanString rest with
      | none => none
      | some (key, rest) =>
        match skipBlanks rest with
        | ':' :: rest =>
          match scanValue fuel rest with
          | none => none
          | some (value, rest) =>
            match skipBlanks rest with
            | ',' :: rest => scanMembers fuel rest ((key, value) :: members)
            | '}' :: rest => some (((key, value) :: members).reverse, rest)
            | _ => none
        | _ => none
    | _ => none

end

/-- The value that a text holds between blanks. -/
def read? (s : String) : Option Json :=
  match scanValue (2 * s.length + 2) s.toList with
  | some (j, rest) => if (skipBlanks rest).isEmpty then some j else none
  | none => none

end ResultSink.Json
