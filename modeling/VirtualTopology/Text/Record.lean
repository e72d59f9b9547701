/-!
# Records as text

The form in which objects are described for diagnosis: a name, then its fields with their values
in braces, with lists in brackets.

## Main definitions

- `record`, `list`, `option`: the three shapes.
-/

namespace VirtualTopology.Text

/-- A named record with its fields in order. -/
def record (name : String) (fields : List (String × String)) : String :=
  name ++ " \x7b " ++ ", ".intercalate (fields.map fun (field, value) => field ++ ": " ++ value) ++
    " \x7d"

/-- A list in brackets. -/
def list (items : List String) : String := "[" ++ ", ".intercalate items ++ "]"

/-- A value that may be missing. -/
def option : Option String → String
  | none => "None"
  | some s => "Some(" ++ s ++ ")"

end VirtualTopology.Text
