import VirtualTopology.Json.Parser
import VirtualTopology.Json.Printer

/-!
# Reading back what is written

A value is written without blanks, and every value there is, is read back from its text: strings
with whatever characters, numbers of either kind, lists and objects nested to any depth. A reader
takes what is in front of it and leaves the rest, so each kind of token is read back in front of
anything that may follow it in a text.

The reader counts its steps. Each character is worth two of them, one for the reader of a value and
one for that of the list the value stands in, and the length of the text pays for all.

## Main definitions

- `Json.EndsValue`: what may follow a value.
- `Json.ReadsBack`: what a number of steps is enough for.
- `Json.decode`: a text as a value of a type.

## Main statements

- `Json.readString_writeString`, `Json.readNumber_write`: the tokens.
- `Json.ReadsBack.value_succ`, `Json.ReadsBack.items_succ`, `Json.ReadsBack.members_succ`: one step.
- `Json.parse?_compact`, `Json.compact_injective`: whole texts.
-/

namespace VirtualTopology.Json

variable {c : Char} {cs rest : List Char} {n steps : Nat}

/-! ### Strings -/

theorem hexValue?_hexDigit (h : n < 16) : hexValue? (hexDigit n) = some n := by
  have hall : ∀ i : Fin 16, hexValue? (hexDigit i) = some i.val := by decide
  exact hall ⟨n, h⟩

theorem textOfParts_unit (h : n < 0xD800) (parts : List StringPart) :
    textOfParts (.unit n :: parts) = (textOfParts parts).map (Char.ofNat n :: ·) := by
  have hhigh : isHighSurrogate n = false := by simp [isHighSurrogate]; omega
  have hlow : isLowSurrogate n = false := by simp [isLowSurrogate]; omega
  cases parts with
  | nil => simp [textOfParts, hhigh, hlow]
  | cons part parts => cases part <;> simp [textOfParts, hhigh, hlow]

/-- A written character is read as one part, and that part is the character. -/
theorem readParts_writeChar (c : Char) : ∃ part,
    (∀ cs, readParts (writeChar c ++ cs) =
      (readParts cs).map fun (parts, rest) => (part :: parts, rest)) ∧
    ∀ parts, textOfParts (part :: parts) = (textOfParts parts).map (c :: ·) := by
  unfold writeChar
  split
  iterate 7 exact ⟨.char _, fun cs => rfl, fun parts => rfl⟩
  next hquote hslash _ _ _ _ _ =>
    split
    next hcontrol =>
      refine ⟨.unit c.toNat, fun cs => ?_, fun parts => ?_⟩
      · have hfirst : hexValue? (hexDigit (c.toNat / 16)) = some (c.toNat / 16) :=
          hexValue?_hexDigit (by omega)
        have hsecond : hexValue? (hexDigit (c.toNat % 16)) = some (c.toNat % 16) :=
          hexValue?_hexDigit (by omega)
        have hzero : hexValue? '0' = some 0 := rfl
        have hnumber : ((0 * 16 + 0) * 16 + c.toNat / 16) * 16 + c.toNat % 16 = c.toNat := by omega
        simp only [List.cons_append, List.nil_append, readParts, hzero, hfirst, hsecond, hnumber]
      · rw [textOfParts_unit (by omega), Char.ofNat_toNat]
    next hplain =>
      refine ⟨.char c, fun cs => ?_, fun parts => rfl⟩
      rw [List.singleton_append, readParts, if_neg hplain]
      · exact hquote
      · exact fun _ _ _ _ _ hc _ => hslash hc
      · exact fun _ _ hc _ => hslash hc

theorem readParts_flatMap_writeChar (cs rest : List Char) : ∃ parts,
    readParts (cs.flatMap writeChar ++ '"' :: rest) = some (parts, rest) ∧
      textOfParts parts = some cs := by
  induction cs with
  | nil => exact ⟨[], rfl, rfl⟩
  | cons c cs ih =>
    obtain ⟨part, hread, htext⟩ := readParts_writeChar c
    obtain ⟨parts, hparts, hcs⟩ := ih
    refine ⟨part :: parts, ?_, ?_⟩
    · rw [List.flatMap_cons, List.append_assoc, hread, hparts]
      rfl
    · rw [htext, hcs]
      rfl

/-- A string is read as it was written. One without a text is half of a surrogate pair. -/
theorem readString_writeString (s : Option String) (rest : List Char) :
    ∃ cs, writeString s ++ rest = '"' :: cs ∧ readString cs = some (s, rest) := by
  cases s with
  | none => exact ⟨_, rfl, rfl⟩
  | some s =>
    refine ⟨s.toList.flatMap writeChar ++ '"' :: rest, by simp [writeString], ?_⟩
    obtain ⟨parts, hparts, htext⟩ := readParts_flatMap_writeChar s.toList rest
    simp [readString, hparts, htext]

/-! ### Numbers -/

theorem isDigit_eq (c : Char) : isDigit c = c.isDigit := by
  simp [isDigit, Char.isDigit, Char.le_def]

theorem digitsValue_toDigits (n : Nat) : digitsValue (Nat.toDigits 10 n) = n := by
  rw [digitsValue, ← Nat.ofDigitChars_eq_foldl, Nat.ofDigitChars_ten_toDigits]

theorem isDigit_of_mem_toDigits (h : c ∈ Nat.toDigits 10 n) : isDigit c = true := by
  rw [isDigit_eq]
  exact Nat.isDigit_of_mem_toDigits (by decide) (by decide) h

/-- Digits are read up to the first character that is none. -/
theorem takeWhile_isDigit (n : Nat) (h : ∀ c ∈ rest.head?, isDigit c = false) :
    (Nat.toDigits 10 n ++ rest).takeWhile isDigit = Nat.toDigits 10 n ∧
      (Nat.toDigits 10 n ++ rest).dropWhile isDigit = rest := by
  have hall : ∀ c ∈ Nat.toDigits 10 n, isDigit c = true := fun c => isDigit_of_mem_toDigits
  have hrest : rest.takeWhile isDigit = [] ∧ rest.dropWhile isDigit = rest := by
    cases rest with
    | nil => exact ⟨rfl, rfl⟩
    | cons c rest => simp [h c rfl]
  rw [List.takeWhile_append_of_pos hall, List.dropWhile_append_of_pos hall, hrest.1, hrest.2,
    List.append_nil]
  exact ⟨rfl, rfl⟩

theorem head?_toDigits_ne_zero (h : n ≠ 0) : (Nat.toDigits 10 n).head? ≠ some '0' := by
  induction n using Nat.strongRecOn with
  | ind n ih =>
    by_cases hlt : n < 10
    · have hall : ∀ i : Fin 10, i.val ≠ 0 → (Nat.toDigits 10 i).head? ≠ some '0' := by decide
      exact hall ⟨n, hlt⟩ h
    · have hfirst := ih (n / 10) (by omega) (by omega)
      rw [Nat.toDigits_of_base_le (by decide) (Nat.not_lt.1 hlt), List.head?_append]
      rw [List.head?_eq_some_head Nat.toDigits_ne_nil] at hfirst ⊢
      exact hfirst

/-- A number is written without needless zeros in front. -/
theorem length_toDigits_of_head? (h : (Nat.toDigits 10 n).head? = some '0') :
    (Nat.toDigits 10 n).length = 1 := by
  by_cases hn : n = 0
  · subst hn
    rfl
  · exact absurd h (head?_toDigits_ne_zero hn)

/-- What may follow a value in a text: nothing, or a character that ends it. -/
def EndsValue (rest : List Char) : Prop :=
  ∀ c ∈ rest.head?, c = ',' ∨ c = ']' ∨ c = '\x7d'

theorem EndsValue.isDigit_eq_false (h : EndsValue rest) : ∀ c ∈ rest.head?, isDigit c = false := by
  intro c hc
  rcases h c hc with rfl | rfl | rfl <;> rfl

theorem EndsValue.readFraction (h : EndsValue rest) : readFraction rest = some ([], rest) := by
  cases rest with
  | nil => rfl
  | cons c rest => rcases h c rfl with rfl | rfl | rfl <;> rfl

theorem EndsValue.readExponent (h : EndsValue rest) : readExponent rest = some (none, rest) := by
  cases rest with
  | nil => rfl
  | cons c rest => rcases h c rfl with rfl | rfl | rfl <;> rfl

theorem readExponentDigits_toDigits (negative : Bool) (n : Nat) (h : EndsValue rest) :
    readExponentDigits negative (Nat.toDigits 10 n ++ rest) =
      some (some (if negative then -(n : Int) else n), rest) := by
  obtain ⟨htake, hdrop⟩ := takeWhile_isDigit n h.isDigit_eq_false
  simp [readExponentDigits, htake, hdrop, digitsValue_toDigits, Nat.toDigits_ne_nil]

theorem readExponent_write (exponent : Int) (h : EndsValue rest) :
    readExponent ('e' :: ((if exponent < 0 then ['-'] else ['+']) ++
      (Nat.toDigits 10 exponent.natAbs ++ rest))) = some (some exponent, rest) := by
  by_cases hneg : exponent < 0
  · have hvalue : -(exponent.natAbs : Int) = exponent := by omega
    rw [if_pos hneg]
    show readExponentDigits true (Nat.toDigits 10 exponent.natAbs ++ rest) = _
    rw [readExponentDigits_toDigits true _ h, if_pos rfl, hvalue]
  · have hvalue : (exponent.natAbs : Int) = exponent := by omega
    rw [if_neg hneg]
    show readExponentDigits false (Nat.toDigits 10 exponent.natAbs ++ rest) = _
    rw [readExponentDigits_toDigits false _ h, if_neg Bool.false_ne_true, hvalue]

theorem readUnsigned_natural (n : Nat) (h : EndsValue rest) :
    readUnsigned false (Nat.toDigits 10 n ++ rest) = some (.natural n, rest) := by
  obtain ⟨htake, hdrop⟩ := takeWhile_isDigit n h.isDigit_eq_false
  have hzero : ¬ ((Nat.toDigits 10 n).head? = some '0' ∧ (Nat.toDigits 10 n).length ≠ 1) :=
    fun hhead => hhead.2 (length_toDigits_of_head? hhead.1)
  simp [readUnsigned, htake, hdrop, Nat.toDigits_ne_nil, hzero, h.readFraction, h.readExponent,
    digitsValue_toDigits]

theorem readUnsigned_decimal (negative : Bool) (digits : Nat) (exponent : Int)
    (h : EndsValue rest) :
    readUnsigned negative (Nat.toDigits 10 digits ++ 'e' ::
      ((if exponent < 0 then ['-'] else ['+']) ++ (Nat.toDigits 10 exponent.natAbs ++ rest))) =
        some (.decimal negative digits exponent, rest) := by
  generalize htail : 'e' :: ((if exponent < 0 then ['-'] else ['+']) ++
    (Nat.toDigits 10 exponent.natAbs ++ rest)) = tail
  have hexponent : readExponent tail = some (some exponent, rest) :=
    htail ▸ readExponent_write exponent h
  have hfraction : readFraction tail = some ([], tail) := by
    rw [← htail]
    rfl
  have htailStart : ∀ c ∈ tail.head?, isDigit c = false := by
    rintro c hc
    rw [← htail] at hc
    obtain rfl := Option.some.inj hc
    rfl
  obtain ⟨htake, hdrop⟩ := takeWhile_isDigit digits htailStart
  have hzero : ¬ ((Nat.toDigits 10 digits).head? = some '0' ∧
      (Nat.toDigits 10 digits).length ≠ 1) :=
    fun hhead => hhead.2 (length_toDigits_of_head? hhead.1)
  simp [readUnsigned, htake, hdrop, Nat.toDigits_ne_nil, hzero, hfraction, hexponent,
    digitsValue_toDigits]

/-- Without a sign a number starts with a digit. -/
theorem readNumber_toDigits (n : Nat) (cs : List Char) :
    readNumber (Nat.toDigits 10 n ++ cs) = readUnsigned false (Nat.toDigits 10 n ++ cs) := by
  obtain ⟨c, ds, hds⟩ := List.exists_cons_of_ne_nil (Nat.toDigits_ne_nil (b := 10) (n := n))
  have hdigit : isDigit c = true := isDigit_of_mem_toDigits (hds ▸ List.mem_cons_self)
  rw [hds, List.cons_append]
  unfold readNumber
  split
  · next heq =>
    obtain rfl := (List.cons.inj heq).1
    exact absurd hdigit (by decide)
  · rfl

/-- A number is read as it was written, up to what ends it. -/
theorem readNumber_write (number : Number) (h : EndsValue rest) :
    readNumber (number.write ++ rest) = some (number, rest) := by
  cases number with
  | natural n => exact (readNumber_toDigits n rest).trans (readUnsigned_natural n h)
  | decimal negative digits exponent =>
    have hdecimal := readUnsigned_decimal negative digits exponent h
    simp only [Number.write, List.append_assoc, List.cons_append]
    cases negative with
    | true => exact hdecimal
    | false => exact (readNumber_toDigits digits _).trans hdecimal

theorem head_write (number : Number) :
    ∃ c cs, number.write = c :: cs ∧ (c = '-' ∨ isDigit c = true) := by
  have hdigits : ∀ n cs, ∃ c cs', Nat.toDigits 10 n ++ cs = c :: cs' ∧ isDigit c = true := by
    intro n cs
    obtain ⟨c, ds, hds⟩ := List.exists_cons_of_ne_nil (Nat.toDigits_ne_nil (b := 10) (n := n))
    exact ⟨c, ds ++ cs, by rw [hds]; rfl, isDigit_of_mem_toDigits (hds ▸ List.mem_cons_self)⟩
  cases number with
  | natural n =>
    obtain ⟨c, cs, hcs, hdigit⟩ := hdigits n []
    exact ⟨c, cs, (List.append_nil _).symm.trans hcs, Or.inr hdigit⟩
  | decimal negative digits exponent =>
    cases negative with
    | true => exact ⟨'-', _, rfl, Or.inl rfl⟩
    | false =>
      obtain ⟨c, cs, hcs, hdigit⟩ := hdigits digits ('e' ::
        ((if exponent < 0 then ['-'] else ['+']) ++ Nat.toDigits 10 exponent.natAbs))
      refine ⟨c, cs, ?_, Or.inr hdigit⟩
      rw [← hcs]
      simp [Number.write]

/-! ### Values -/

theorem skipSpace_cons (h : isSpace c = false) : skipSpace (c :: cs) = c :: cs := by
  simp [skipSpace, h]

theorem isSpace_eq_false (h : c = '-' ∨ isDigit c = true) : isSpace c = false := by
  rw [← Bool.not_eq_true]
  intro hspace
  have hcases : ((c = ' ' ∨ c = '\n') ∨ c = '\t') ∨ c = '\r' := by simpa [isSpace] using hspace
  rcases hcases with ((rfl | rfl) | rfl) | rfl <;> exact absurd h (by decide)

/-- A digit or a sign announces a number. -/
theorem readValue_number (h : c = '-' ∨ isDigit c = true) :
    readValue (steps + 1) (c :: cs) =
      (readNumber (c :: cs)).map fun (n, rest) => (.number n, rest) := by
  have hne : ∀ d, c = d → ¬ (d = '-' ∨ isDigit d = true) → False := fun d hd hno => hno (hd ▸ h)
  rw [readValue, skipSpace_cons (isSpace_eq_false h)]
  split
  case h_7 => rfl
  all_goals
    next heq => exact (hne _ (List.cons.inj heq).1 (by decide)).elim

/-- A written value starts with a character that is no blank and closes nothing. -/
theorem head_compactChars (v : Value) : ∃ c cs, v.compactChars = c :: cs ∧
    isSpace c = false ∧ c ≠ ']' ∧ c ≠ '\x7d' := by
  cases v with
  | null => exact ⟨_, _, rfl, rfl, by decide, by decide⟩
  | bool b => cases b <;> exact ⟨_, _, rfl, rfl, by decide, by decide⟩
  | number n =>
    obtain ⟨c, cs, hcs, hc⟩ := head_write n
    refine ⟨c, cs, by rw [Value.compactChars, hcs], isSpace_eq_false hc, ?_, ?_⟩ <;>
      · rintro rfl
        exact absurd hc (by decide)
  | string s =>
    cases s <;> exact ⟨'"', _, rfl, rfl, by decide, by decide⟩
  | array items =>
    cases items <;> exact ⟨'[', _, rfl, rfl, by decide, by decide⟩
  | object members =>
    rcases members with _ | ⟨⟨name, v⟩, members⟩ <;>
      exact ⟨'\x7b', _, rfl, rfl, by decide, by decide⟩

open Value (compactItems compactMembers)

theorem head_compactItems (vs : List Value) : ∃ c cs, compactItems vs = c :: cs ∧
    (c = ',' ∨ c = ']') := by
  cases vs with
  | nil => exact ⟨_, _, rfl, Or.inr rfl⟩
  | cons v vs => exact ⟨_, _, rfl, Or.inl rfl⟩

theorem head_compactMembers (ms : List (Option String × Value)) : ∃ c cs,
    compactMembers ms = c :: cs ∧ (c = ',' ∨ c = '\x7d') := by
  cases ms with
  | nil => exact ⟨_, _, rfl, Or.inr rfl⟩
  | cons m ms => exact ⟨_, _, rfl, Or.inl rfl⟩

theorem endsValue_compactItems (vs : List Value) (rest : List Char) :
    EndsValue (compactItems vs ++ rest) := by
  obtain ⟨c, cs, hcs, hc⟩ := head_compactItems vs
  rw [hcs]
  rintro d hd
  obtain rfl := Option.some.inj hd
  exact hc.imp_right Or.inl

theorem endsValue_compactMembers (ms : List (Option String × Value)) (rest : List Char) :
    EndsValue (compactMembers ms ++ rest) := by
  obtain ⟨c, cs, hcs, hc⟩ := head_compactMembers ms
  rw [hcs]
  rintro d hd
  obtain rfl := Option.some.inj hd
  exact hc.imp_right Or.inr

theorem readValue_array (hspace : isSpace c = false) (hclose : c ≠ ']') :
    readValue (steps + 1) ('[' :: c :: cs) =
      (readItems steps (c :: cs)).map fun (vs, rest) => (.array vs, rest) := by
  have hopen : skipSpace ('[' :: c :: cs) = '[' :: c :: cs := skipSpace_cons rfl
  simp only [readValue, hopen, skipSpace_cons hspace]
  split
  · next heq => exact absurd (List.cons.inj heq).1 hclose
  · rfl

/-- A number of steps is enough to read back what is not too long. Each character is worth two: one
for the reader of the value and one for that of the list it stands in. -/
structure ReadsBack (steps : Nat) : Prop where
  value : ∀ v rest, EndsValue rest → 2 * v.compactChars.length ≤ steps →
    readValue steps (v.compactChars ++ rest) = some (v, rest)
  items : ∀ v vs rest, 2 * (v.compactChars ++ compactItems vs).length ≤ steps + 1 →
    readItems steps (v.compactChars ++ (compactItems vs ++ rest)) = some (v :: vs, rest)
  members : ∀ name v ms rest,
    2 * (writeString name ++ ':' :: (v.compactChars ++ compactMembers ms)).length ≤ steps + 1 →
    readMembers steps (writeString name ++ ':' :: (v.compactChars ++ (compactMembers ms ++ rest))) =
      some ((name, v) :: ms, rest)

namespace ReadsBack

theorem zero : ReadsBack 0 where
  value v rest _ enough := by
    obtain ⟨c, cs, hcs, _⟩ := head_compactChars v
    rw [hcs, List.length_cons] at enough
    omega
  items v vs rest enough := by
    obtain ⟨c, cs, hcs, _⟩ := head_compactItems vs
    obtain ⟨d, ds, hds, _⟩ := head_compactChars v
    rw [hcs, hds, List.length_append, List.length_cons, List.length_cons] at enough
    omega
  members name v ms rest enough := by
    obtain ⟨c, cs, hcs, _⟩ := head_compactMembers ms
    rw [hcs, List.length_append, List.length_cons, List.length_append, List.length_cons] at enough
    omega

variable (ih : ReadsBack steps)

include ih

theorem value_succ (v : Value) (rest : List Char) (h : EndsValue rest)
    (enough : 2 * v.compactChars.length ≤ steps + 1) :
    readValue (steps + 1) (v.compactChars ++ rest) = some (v, rest) := by
  match v with
  | .null => rfl
  | .bool true => rfl
  | .bool false => rfl
  | .number n =>
    obtain ⟨c, cs, hcs, hc⟩ := head_write n
    rw [Value.compactChars, hcs, List.cons_append, readValue_number hc, ← List.cons_append, ← hcs,
      readNumber_write n h]
    rfl
  | .string s =>
    obtain ⟨cs, hcs, hread⟩ := readString_writeString s rest
    rw [Value.compactChars, hcs]
    show (readString cs).map _ = _
    rw [hread]
    rfl
  | .array [] => rfl
  | .array (v :: vs) =>
    obtain ⟨c, cs, hcs, hspace, hclose, _⟩ := head_compactChars v
    have hitems := ih.items v vs rest (by
      rw [Value.compactChars, List.length_cons] at enough
      omega)
    rw [hcs, List.cons_append] at hitems
    rw [Value.compactChars, List.cons_append, hcs, List.cons_append, List.cons_append,
      List.append_assoc, readValue_array hspace hclose, hitems]
    rfl
  | .object [] => rfl
  | .object ((name, v) :: ms) =>
    have hmembers := ih.members name v ms rest (by
      rw [Value.compactChars, List.length_cons] at enough
      omega)
    obtain ⟨cs, hcs, _⟩ := readString_writeString name
      (':' :: (v.compactChars ++ (compactMembers ms ++ rest)))
    rw [hcs] at hmembers
    rw [Value.compactChars, List.cons_append, List.append_assoc, List.cons_append,
      List.append_assoc, hcs]
    show (readMembers steps ('"' :: cs)).map _ = _
    rw [hmembers]
    rfl

theorem items_succ (v : Value) (vs : List Value) (rest : List Char)
    (enough : 2 * (v.compactChars ++ compactItems vs).length ≤ steps + 2) :
    readItems (steps + 1) (v.compactChars ++ (compactItems vs ++ rest)) = some (v :: vs, rest) := by
  have hvalue := ih.value v (compactItems vs ++ rest) (endsValue_compactItems vs rest) (by
    obtain ⟨c, cs, hcs, _⟩ := head_compactItems vs
    rw [hcs, List.length_append, List.length_cons] at enough
    omega)
  rw [readItems, hvalue]
  match vs with
  | [] => rfl
  | w :: vs =>
    have hrest := ih.items w vs rest (by
      rw [compactItems, List.length_append, List.length_cons] at enough
      omega)
    rw [compactItems, List.cons_append, List.append_assoc]
    show (readItems steps (w.compactChars ++ (compactItems vs ++ rest))).map _ = _
    rw [hrest]
    rfl

theorem members_succ (name : Option String) (v : Value) (ms : List (Option String × Value))
    (rest : List Char)
    (enough : 2 * (writeString name ++ ':' :: (v.compactChars ++ compactMembers ms)).length ≤
      steps + 2) :
    readMembers (steps + 1)
        (writeString name ++ ':' :: (v.compactChars ++ (compactMembers ms ++ rest))) =
      some ((name, v) :: ms, rest) := by
  have hvalue := ih.value v (compactMembers ms ++ rest) (endsValue_compactMembers ms rest) (by
    obtain ⟨c, cs, hcs, _⟩ := head_compactMembers ms
    rw [hcs, List.length_append, List.length_cons, List.length_append, List.length_cons] at enough
    omega)
  obtain ⟨cs, hcs, hname⟩ := readString_writeString name
    (':' :: (v.compactChars ++ (compactMembers ms ++ rest)))
  rw [hcs, readMembers, skipSpace_cons (c := '"') rfl]
  simp only [hname, skipSpace_cons (c := ':') rfl, hvalue]
  match ms with
  | [] => rfl
  | (other, w) :: ms =>
    have hrest := ih.members other w ms rest (by
      rw [compactMembers, List.length_append, List.length_cons, List.length_append,
        List.length_cons] at enough
      omega)
    rw [compactMembers, List.cons_append, List.append_assoc, List.cons_append, List.append_assoc]
    show (readMembers steps
      (writeString other ++ ':' :: (w.compactChars ++ (compactMembers ms ++ rest)))).map _ = _
    rw [hrest]
    rfl

end ReadsBack

theorem readsBack (steps : Nat) : ReadsBack steps := by
  induction steps with
  | zero => exact .zero
  | succ steps ih => exact ⟨ih.value_succ, ih.items_succ, ih.members_succ⟩

/-- Every value is read back from its text. -/
theorem parse?_compact (v : Value) : parse? v.compact = some v := by
  have hread := (readsBack (2 * v.compactChars.length + 2)).value v [] (by simp [EndsValue])
    (by omega)
  rw [List.append_nil] at hread
  rw [parse?, Value.compact, String.toList_ofList, parseChars?, hread]
  rfl

/-- No two values have the same text. -/
theorem compact_injective : Function.Injective Value.compact := by
  intro v w h
  have hv := parse?_compact v
  rw [h, parse?_compact w] at hv
  exact (Option.some.inj hv).symm

/-- The value of a type that a text stands for. -/
def decode {α : Type} (read : Value → Option α) (text : String) : Option α :=
  (parse? text).bind read

@[simp] theorem decode_compact {α : Type} (read : Value → Option α) (v : Value) :
    decode read v.compact = read v := by
  rw [decode, parse?_compact, Option.bind_some]

theorem decode_eq_some_iff {α : Type} {read : Value → Option α} {text : String} {a : α} :
    decode read text = some a ↔ ∃ v, parse? text = some v ∧ read v = some a :=
  Option.bind_eq_some_iff

end VirtualTopology.Json
