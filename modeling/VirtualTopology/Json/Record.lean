import VirtualTopology.Json.Value
import VirtualTopology.Limits

/-!
# Records in JSON

How records are read from JSON values. A record is an object, in which names that are not its own
are passed over and its own may not repeat, or an array of its fields in order. Readers answer
`none` for what they refuse.

## Main definitions

- `Json.Value.fields`: the values of the named fields of a record.
- `Json.required`, `Json.nullable`, `Json.orDefault`: what a missing field means.
- `Json.Value.word`, `Json.Value.flag`, `Json.Value.name`, …: the simple kinds of values.
- `Json.isAbsent`, `Json.isOff`, `Json.isZero`: which fields need not be written.
-/

namespace VirtualTopology.Json

/-- A member that need not be written: there is no value. -/
def isAbsent {α : Type} (value : Option α) : Bool := value.isNone

/-- A member that need not be written: a switch that is off. -/
def isOff (value : Bool) : Bool := !value

/-- A member that need not be written: a number that is zero. -/
def isZero (value : Nat) : Bool := value == 0

/-- The values of the members of one name. -/
def valuesOf (members : List (Option String × Value)) (name : String) : List Value :=
  members.filterMap fun (n, v) => if n == some name then some v else none

/-- The value of the only member of a name, if there is one; repetitions are refused. -/
def only? (members : List (Option String × Value)) (name : String) : Option (Option Value) :=
  match valuesOf members name with
  | [] => some none
  | [v] => some (some v)
  | _ => none

/-- A reader of a field that has to be there. -/
def required {α : Type} (read : Value → Option α) (field : Option Value) : Option α :=
  field.bind read

/-- A reader of a field whose value may be missing or null. -/
def nullable {α : Type} (read : Value → Option α) : Option Value → Option (Option α)
  | none | some .null => some none
  | some v => (read v).map some

/-- A reader of a field that has a value when it is missing. -/
def orDefault {α : Type} (default : α) (read : Value → Option α) : Option Value → Option α
  | none => some default
  | some v => read v

namespace Value

/-- The fields of a record by name, or by position in an array. -/
def fields (names : List String) : Value → Option (List (Option Value))
  | .object members =>
    if members.all (·.1.isSome) then names.mapM (only? members) else none
  | .array items =>
    if items.length ≤ names.length then
      some (items.map some ++ List.replicate (names.length - items.length) none)
    else none
  | _ => none

/-- A natural number below a bound. -/
def natBelow (bound : Nat) : Value → Option Nat
  | .number (.natural n) => if n < bound then some n else none
  | _ => none

/-- A word of 64 bits. -/
def word : Value → Option Nat := natBelow Limits.wordBound

/-- A word of 32 bits. -/
def halfWord : Value → Option Nat := natBelow Limits.depthBound

/-- A truth value. -/
def flag : Value → Option Bool
  | .bool b => some b
  | _ => none

/-- A text. -/
def name : Value → Option String
  | .string s => s
  | _ => none

/-- A choice: its name, alone or as the only member of an object, with nothing attached. -/
def choice : Value → Option String
  | .string s => s
  | .object [(s, .null)] => s
  | _ => none

/-- A list. -/
def listOf {α : Type} (read : Value → Option α) : Value → Option (List α)
  | .array items => items.mapM read
  | _ => none

end Value

end VirtualTopology.Json
