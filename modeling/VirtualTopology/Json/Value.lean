import VirtualTopology.Json.Double

/-!
# JSON values

A JSON text as a tree. Members keep their order and may repeat a name, since it is for the reader
of a record to say which repetitions it takes.

## Main definitions

- `Json.Value`: the tree.
- `Json.Number`: plain naturals apart from every other way to write a number.
- `Json.nestingLimit`: how deep values nest that are held back.
- `Json.Value.fitsBuffer`: whether a value can be held back and looked at later.
-/

namespace VirtualTopology.Json

/-- A number as it is written. -/
inductive Number where
  /-- Digits alone. -/
  | natural (n : Nat)
  /-- With a sign, a fraction or an exponent: `digits` times ten to the `exponent`. -/
  | decimal (negative : Bool) (digits : Nat) (exponent : Int)
deriving DecidableEq, Repr, Inhabited

/-- A JSON value. -/
inductive Value where
  | null
  | bool (b : Bool)
  | number (n : Number)
  /-- A string; it has no text if an escape in it names half of a surrogate pair. -/
  | string (text : Option String)
  | array (items : List Value)
  | object (members : List (Option String × Value))
deriving Inhabited

/-- How deep a text that is read as a record may nest. -/
def nestingLimit : Nat := 127

/-- Whether the number is read as a finite floating-point number of 64 bits: the product of its first
digits and of its power of ten, each of them rounded. -/
def Number.isFinite : Number → Bool
  | natural n => doubleIsFinite n 0
  | decimal _ digits exponent => doubleIsFinite digits exponent

namespace Value

/-- A string with a text. -/
def text (s : String) : Value := .string (some s)

/-- A plain natural number. -/
def nat (n : Nat) : Value := .number (.natural n)

/-- An object with texts as names. -/
def record (members : List (String × Value)) : Value :=
  .object (members.map fun (name, v) => (some name, v))

mutual

/-- Whether a value can be held back before it is known what it is read as: it nests at most
`levels` deep, its strings have texts and its numbers are finite. -/
def fitsBuffer (levels : Nat) : Value → Bool
  | .null | .bool _ => true
  | .number n => n.isFinite
  | .string s => s.isSome
  | .array items => 0 < levels && itemsFitBuffer (levels - 1) items
  | .object members => 0 < levels && membersFitBuffer (levels - 1) members

/-- `fitsBuffer` for every item. -/
def itemsFitBuffer (levels : Nat) : List Value → Bool
  | [] => true
  | v :: vs => v.fitsBuffer levels && itemsFitBuffer levels vs

/-- `fitsBuffer` for every member, whose names have texts. -/
def membersFitBuffer (levels : Nat) : List (Option String × Value) → Bool
  | [] => true
  | (name, v) :: ms => name.isSome && v.fitsBuffer levels && membersFitBuffer levels ms

end

end Value

end VirtualTopology.Json
