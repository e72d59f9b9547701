import VirtualTopology.Text.Unprintable

/-!
# Quoted texts

How a text is shown within a message: in double quotes, with quotes, backslashes and characters
that cannot be seen written as escapes.

## Main definitions

- `hexDigits`: a number in lower-case hexadecimal.
- `quoteChar`, `quote`: the shown form of a character and of a text.
-/

namespace VirtualTopology.Text

/-- A number in lower-case hexadecimal, without leading zeros. -/
def hexDigits (n : Nat) : List Char := Nat.toDigits 16 n

/-- A character as it is shown between quotes. -/
def quoteChar (c : Char) : List Char :=
  match c with
  | '\x00' => ['\\', '0']
  | '\t' => ['\\', 't']
  | '\r' => ['\\', 'r']
  | '\n' => ['\\', 'n']
  | '"' => ['\\', '"']
  | '\\' => ['\\', '\\']
  | c => if isUnprintable c then ['\\', 'u', '\x7b'] ++ hexDigits c.toNat ++ ['\x7d'] else [c]

/-- A text as it is shown within a message. -/
def quote (s : String) : String := String.ofList ('"' :: (s.toList.flatMap quoteChar ++ ['"']))

end VirtualTopology.Text
