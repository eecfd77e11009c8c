import ResultSink.Json.Basic

/-! Typed reading of JSON trees. A whole number has to lie in the range of its type; a structure is
an object, in which other keys are passed over and no key of its own is repeated, or an array of its
fields in order. -/

namespace ResultSink.Json

def natBelow? (bound : Nat) : Json → Option Nat
  | .whole n => if 0 ≤ n ∧ n < (bound : Int) then some n.toNat else none
  | _ => none

def bool? : Json → Option Bool
  | .bool b => some b
  | _ => none

def text? : Json → Option String
  | .string s => s
  | _ => none

def nullable? {α : Type} (read : Json → Option α) : Json → Option (Option α)
  | .null => some none
  | j => (read j).map some

/-- The values of an object's members of one name. -/
def valuesOf (name : String) (members : List (Option String × Json)) : List Json :=
  (members.filter fun m => m.1 = some name).map Prod.snd

/-- The value of the only member of a name: `some none` if there is none of that name, and `none` if
there are several. -/
def member? (members : List (Option String × Json)) (name : String) : Option (Option Json) :=
  match valuesOf name members with
  | [] => some none
  | [j] => some (some j)
  | _ => none

/-- The fields of a structure in the order of their names, each absent if it is left out. An array
may leave out its last fields only if `short` says so. -/
def fields? (short : Bool) (names : List String) : Json → Option (List (Option Json))
  | .object members =>
    if members.all fun m => m.1.isSome then names.mapM (member? members) else none
  | .array items =>
    if items.length = names.length ∨ (short ∧ items.length < names.length) then
      some (items.map some ++ List.replicate (names.length - items.length) none)
    else none
  | _ => none

end ResultSink.Json
