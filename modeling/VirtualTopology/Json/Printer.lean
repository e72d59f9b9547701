import VirtualTopology.Json.Value

/-!
# Writing JSON

A value is written on one line without blanks, or laid out with two blanks per level and one
item to a line.

## Main definitions

- `Json.writeString`: a quoted string; only quotes, backslashes and control characters are escaped.
- `Json.Value.compact`, `Json.Value.pretty`: the two layouts.
-/

namespace VirtualTopology.Json

/-- The lower-case hexadecimal digit of a number below 16. -/
def hexDigit (n : Nat) : Char := Nat.digitChar n

/-- A character within a quoted string. -/
def writeChar (c : Char) : List Char :=
  match c with
  | '"' => ['\\', '"']
  | '\\' => ['\\', '\\']
  | '\x08' => ['\\', 'b']
  | '\x0c' => ['\\', 'f']
  | '\n' => ['\\', 'n']
  | '\r' => ['\\', 'r']
  | '\t' => ['\\', 't']
  | c =>
    if c.toNat < 0x20 then
      ['\\', 'u', '0', '0', hexDigit (c.toNat / 16), hexDigit (c.toNat % 16)]
    else [c]

/-- A string in quotes; one without a text is written as half of a surrogate pair. -/
def writeString : Option String → List Char
  | some s => '"' :: (s.toList.flatMap writeChar ++ ['"'])
  | none => ['"', '\\', 'u', 'd', '8', '0', '0', '"']

/-- A number: digits alone, or digits with sign and exponent. -/
def Number.write : Number → List Char
  | natural n => Nat.toDigits 10 n
  | decimal negative digits exponent =>
    (if negative then ['-'] else []) ++ Nat.toDigits 10 digits ++ 'e' ::
      (if exponent < 0 then ['-'] else ['+']) ++ Nat.toDigits 10 exponent.natAbs

namespace Value

mutual

/-- A value on one line, without blanks. -/
def compactChars : Value → List Char
  | .null => ['n', 'u', 'l', 'l']
  | .bool true => ['t', 'r', 'u', 'e']
  | .bool false => ['f', 'a', 'l', 's', 'e']
  | .number n => n.write
  | .string s => writeString s
  | .array [] => ['[', ']']
  | .array (v :: vs) => '[' :: (v.compactChars ++ compactItems vs)
  | .object [] => ['\x7b', '\x7d']
  | .object ((name, v) :: ms) =>
    '\x7b' :: (writeString name ++ ':' :: (v.compactChars ++ compactMembers ms))

/-- The items after the first and the closing bracket. -/
def compactItems : List Value → List Char
  | [] => [']']
  | v :: vs => ',' :: (v.compactChars ++ compactItems vs)

/-- The members after the first and the closing brace. -/
def compactMembers : List (Option String × Value) → List Char
  | [] => ['\x7d']
  | (name, v) :: ms => ',' :: (writeString name ++ ':' :: (v.compactChars ++ compactMembers ms))

end

/-- A value on one line, as a text. -/
def compact (v : Value) : String := String.ofList v.compactChars

/-- A new line at a nesting level. -/
def lineAt (level : Nat) : List Char := '\n' :: List.replicate (2 * level) ' '

mutual

/-- A value laid out over several lines, within `level` open brackets. -/
def prettyChars (level : Nat) : Value → List Char
  | .array (v :: vs) =>
    '[' :: (lineAt (level + 1) ++ (v.prettyChars (level + 1) ++ prettyItems level vs))
  | .object ((name, v) :: ms) =>
    '\x7b' :: (lineAt (level + 1) ++ (writeString name ++
      ':' :: ' ' :: (v.prettyChars (level + 1) ++ prettyMembers level ms)))
  | v => v.compactChars

/-- The items after the first and the closing bracket. -/
def prettyItems (level : Nat) : List Value → List Char
  | [] => lineAt level ++ [']']
  | v :: vs => ',' :: (lineAt (level + 1) ++ (v.prettyChars (level + 1) ++ prettyItems level vs))

/-- The members after the first and the closing brace. -/
def prettyMembers (level : Nat) : List (Option String × Value) → List Char
  | [] => lineAt level ++ ['\x7d']
  | (name, v) :: ms =>
    ',' :: (lineAt (level + 1) ++ (writeString name ++
      ':' :: ' ' :: (v.prettyChars (level + 1) ++ prettyMembers level ms)))

end

/-- A value laid out over several lines, as a text. -/
def pretty (v : Value) : String := String.ofList (v.prettyChars 0)

end Value

end VirtualTopology.Json
