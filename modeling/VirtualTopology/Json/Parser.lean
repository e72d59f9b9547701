import VirtualTopology.Json.Value

/-!
# Reading JSON

A reader for JSON texts over their characters. Every step consumes input, so a number of steps
proportional to the length of the text is enough.

## Main definitions

- `Json.readString`, `Json.readNumber`: the two kinds of tokens with structure.
- `Json.readValue`: a value at the front of the input and what follows it.
- `Json.parse?`: the value of a whole text.
-/

namespace VirtualTopology.Json

/-- The characters allowed between tokens. -/
def isSpace (c : Char) : Bool := c == ' ' || c == '\n' || c == '\t' || c == '\r'

/-- Input from its next token on. -/
def skipSpace (cs : List Char) : List Char := cs.dropWhile isSpace

/-- The value of a hexadecimal digit, in either case. -/
def hexValue? (c : Char) : Option Nat :=
  if '0' ≤ c ∧ c ≤ '9' then some (c.toNat - '0'.toNat)
  else if 'a' ≤ c ∧ c ≤ 'f' then some (c.toNat - 'a'.toNat + 10)
  else if 'A' ≤ c ∧ c ≤ 'F' then some (c.toNat - 'A'.toNat + 10)
  else none

/-- What a string is made of: characters, and code units given by number. -/
inductive StringPart where
  | char (c : Char)
  | unit (n : Nat)
deriving DecidableEq, Repr

/-- The character a short escape stands for. -/
def escaped? : Char → Option Char
  | '"' => some '"'
  | '\\' => some '\\'
  | '/' => some '/'
  | 'b' => some '\x08'
  | 'f' => some '\x0c'
  | 'n' => some '\n'
  | 'r' => some '\r'
  | 't' => some '\t'
  | _ => none

/-- The parts of a string up to its closing quote, and what follows. -/
def readParts : List Char → Option (List StringPart × List Char)
  | [] => none
  | '"' :: rest => some ([], rest)
  | '\\' :: 'u' :: a :: b :: c :: d :: rest =>
    match hexValue? a, hexValue? b, hexValue? c, hexValue? d with
    | some a, some b, some c, some d =>
      (readParts rest).map fun (parts, rest) =>
        (.unit (((a * 16 + b) * 16 + c) * 16 + d) :: parts, rest)
    | _, _, _, _ => none
  | '\\' :: c :: rest =>
    match escaped? c with
    | some c => (readParts rest).map fun (parts, rest) => (.char c :: parts, rest)
    | none => none
  | c :: rest =>
    if c.toNat < 0x20 then none
    else (readParts rest).map fun (parts, rest) => (.char c :: parts, rest)

/-- Whether a code unit is the first half of a surrogate pair. -/
def isHighSurrogate (n : Nat) : Bool := 0xD800 ≤ n && n < 0xDC00

/-- Whether a code unit is the second half of a surrogate pair. -/
def isLowSurrogate (n : Nat) : Bool := 0xDC00 ≤ n && n < 0xE000

/-- The text of the parts of a string; none if half of a surrogate pair stands alone. -/
def textOfParts : List StringPart → Option (List Char)
  | [] => some []
  | .char c :: parts => (textOfParts parts).map (c :: ·)
  | .unit high :: .unit low :: parts =>
    if isHighSurrogate high then
      if isLowSurrogate low then
        (textOfParts parts).map
          (Char.ofNat (0x10000 + (high - 0xD800) * 0x400 + (low - 0xDC00)) :: ·)
      else none
    else if isLowSurrogate high then none
    else (textOfParts (.unit low :: parts)).map (Char.ofNat high :: ·)
  | .unit n :: parts =>
    if isHighSurrogate n || isLowSurrogate n then none
    else (textOfParts parts).map (Char.ofNat n :: ·)

/-- A string after its opening quote, and what follows. -/
def readString (cs : List Char) : Option (Option String × List Char) :=
  (readParts cs).map fun (parts, rest) => ((textOfParts parts).map String.ofList, rest)

/-- Whether a character is an ASCII digit. -/
def isDigit (c : Char) : Bool := '0' ≤ c && c ≤ '9'

/-- The value of ASCII digits. -/
def digitsValue (ds : List Char) : Nat := ds.foldl (fun n c => 10 * n + (c.toNat - '0'.toNat)) 0

/-- The digits of a fraction, none if there is no point; a point alone is refused. -/
def readFraction : List Char → Option (List Char × List Char)
  | '.' :: cs =>
    if (cs.takeWhile isDigit).isEmpty then none
    else some (cs.takeWhile isDigit, cs.dropWhile isDigit)
  | cs => some ([], cs)

/-- The digits of an exponent with their sign. -/
def readExponentDigits (negative : Bool) (cs : List Char) : Option (Option Int × List Char) :=
  if (cs.takeWhile isDigit).isEmpty then none
  else
    let n : Int := digitsValue (cs.takeWhile isDigit)
    some (some (if negative then -n else n), cs.dropWhile isDigit)

/-- An exponent, none if no letter announces it; a letter alone is refused. -/
def readExponent : List Char → Option (Option Int × List Char)
  | c :: cs =>
    if c == 'e' || c == 'E' then
      match cs with
      | '-' :: cs => readExponentDigits true cs
      | '+' :: cs => readExponentDigits false cs
      | cs => readExponentDigits false cs
    else some (none, c :: cs)
  | [] => some (none, [])

/-- A number without its sign: digits without needless leading zeros, a fraction, an exponent. -/
def readUnsigned (negative : Bool) (cs : List Char) : Option (Number × List Char) :=
  let digits := cs.takeWhile isDigit
  if digits.isEmpty || (digits.head? == some '0' && digits.length != 1) then none
  else
    match readFraction (cs.dropWhile isDigit) with
    | none => none
    | some (fraction, cs) =>
      match readExponent cs with
      | none => none
      | some (exponent, cs) =>
        if !negative && fraction.isEmpty && exponent.isNone then
          some (.natural (digitsValue digits), cs)
        else
          some (.decimal negative (digitsValue (digits ++ fraction))
            (exponent.getD 0 - fraction.length), cs)

/-- A number and what follows. -/
def readNumber : List Char → Option (Number × List Char)
  | '-' :: cs => readUnsigned true cs
  | cs => readUnsigned false cs

mutual

/-- A value, blanks in front of it skipped, and what follows. -/
def readValue : Nat → List Char → Option (Value × List Char)
  | 0, _ => none
  | steps + 1, cs =>
    match skipSpace cs with
    | 'n' :: 'u' :: 'l' :: 'l' :: rest => some (.null, rest)
    | 't' :: 'r' :: 'u' :: 'e' :: rest => some (.bool true, rest)
    | 'f' :: 'a' :: 'l' :: 's' :: 'e' :: rest => some (.bool false, rest)
    | '"' :: rest => (readString rest).map fun (s, rest) => (.string s, rest)
    | '[' :: rest =>
      match skipSpace rest with
      | ']' :: rest => some (.array [], rest)
      | rest => (readItems steps rest).map fun (vs, rest) => (.array vs, rest)
    | '\x7b' :: rest =>
      match skipSpace rest with
      | '\x7d' :: rest => some (.object [], rest)
      | rest => (readMembers steps rest).map fun (ms, rest) => (.object ms, rest)
    | rest => (readNumber rest).map fun (n, rest) => (.number n, rest)

/-- The items of an array up to its closing bracket. -/
def readItems : Nat → List Char → Option (List Value × List Char)
  | 0, _ => none
  | steps + 1, cs =>
    match readValue steps cs with
    | none => none
    | some (v, rest) =>
      match skipSpace rest with
      | ',' :: rest => (readItems steps rest).map fun (vs, rest) => (v :: vs, rest)
      | ']' :: rest => some ([v], rest)
      | _ => none

/-- The members of an object up to its closing brace. -/
def readMembers : Nat → List Char → Option (List (Option String × Value) × List Char)
  | 0, _ => none
  | steps + 1, cs =>
    match skipSpace cs with
    | '"' :: rest =>
      match readString rest with
      | none => none
      | some (name, rest) =>
        match skipSpace rest with
        | ':' :: rest =>
          match readValue steps rest with
          | none => none
          | some (v, rest) =>
            match skipSpace rest with
            | ',' :: rest => (readMembers steps rest).map fun (ms, rest) => ((name, v) :: ms, rest)
            | '\x7d' :: rest => some ([(name, v)], rest)
            | _ => none
        | _ => none
    | _ => none

end

/-- The value of characters that hold one JSON text. -/
def parseChars? (cs : List Char) : Option Value :=
  match readValue (2 * cs.length + 2) cs with
  | some (v, rest) => if (skipSpace rest).isEmpty then some v else none
  | none => none

/-- The value of a JSON text; nothing but blanks may stand around it. -/
def parse? (s : String) : Option Value := parseChars? s.toList

end VirtualTopology.Json
