import Mathlib.Data.List.Basic
import VirtualTopology.Text.Quoted

/-!
# Reading quoted texts

A quoted text says which text it quotes: every character stands for itself or is told by an escape,
and the first quote that is part of no escape ends it.

## Main definitions

- `hexNumber`: the number that hexadecimal digits write.
- `Shows`: what a character is shown as.
- `Quotes`: what stands between the quotes for a text.
- `readShown`: the first character that is shown, and what follows.

## Main statements

- `quotes_quote`: what `quote` puts between the quotes.
- `Quotes.unique`: the quoted text can be read off, whatever follows.
-/

namespace VirtualTopology.Text

/-- The value of a lower-case hexadecimal digit. -/
def hexValue (d : Char) : Nat := if d.isDigit then d.toNat - 48 else d.toNat - 87

/-- The number that hexadecimal digits write. -/
def hexNumber (digits : List Char) : Nat :=
  digits.foldl (fun value d => 16 * value + hexValue d) 0

/-- What a character is shown as between quotes. -/
inductive Shows : Char → List Char → Prop
  | itself {c} (printable : isUnprintable c = false) (quote : c ≠ '"') (backslash : c ≠ '\\') :
      Shows c [c]
  | quote : Shows '"' ['\\', '"']
  | backslash : Shows '\\' ['\\', '\\']
  | null : Shows '\x00' ['\\', '0']
  | tab : Shows '\t' ['\\', 't']
  | carriageReturn : Shows '\r' ['\\', 'r']
  | newline : Shows '\n' ['\\', 'n']
  | number {c digits} (unprintable : isUnprintable c = true)
      (hexadecimal : ∀ d ∈ digits, d ∈ "0123456789abcdef".toList)
      (value : hexNumber digits = c.toNat) :
      Shows c ('\\' :: 'u' :: '\x7b' :: digits ++ ['\x7d'])

/-- What stands between the quotes for a text: its characters, one after the other. -/
inductive Quotes : List Char → List Char → Prop
  | nil : Quotes [] []
  | cons {c shown cs rest} (first : Shows c shown) (others : Quotes cs rest) :
      Quotes (c :: cs) (shown ++ rest)

/-- The first character that is shown, and what follows. -/
def readShown : List Char → Option (Char × List Char)
  | '\\' :: '"' :: rest => some ('"', rest)
  | '\\' :: '\\' :: rest => some ('\\', rest)
  | '\\' :: '0' :: rest => some ('\x00', rest)
  | '\\' :: 't' :: rest => some ('\t', rest)
  | '\\' :: 'r' :: rest => some ('\r', rest)
  | '\\' :: 'n' :: rest => some ('\n', rest)
  | '\\' :: 'u' :: '\x7b' :: rest =>
    some (.ofNat (hexNumber (rest.takeWhile (· != '\x7d'))), (rest.dropWhile (· != '\x7d')).tail)
  | c :: rest => some (c, rest)
  | [] => none

/-! ### What is written -/

theorem hexNumber_append (digits : List Char) (d : Char) :
    hexNumber (digits ++ [d]) = 16 * hexNumber digits + hexValue d := by
  simp [hexNumber]

theorem hexValue_digitChar {n : Nat} (h : n < 16) : hexValue n.digitChar = n := by
  have hall : ∀ i : Fin 16, hexValue (Nat.digitChar i) = i := by decide
  exact hall ⟨n, h⟩

theorem digitChar_mem {n : Nat} (h : n < 16) : n.digitChar ∈ "0123456789abcdef".toList := by
  have hall : ∀ i : Fin 16, Nat.digitChar i ∈ "0123456789abcdef".toList := by decide
  exact hall ⟨n, h⟩

/-- The digits of a number are hexadecimal and write it. -/
theorem hexDigits_write (n : Nat) :
    (∀ d ∈ hexDigits n, d ∈ "0123456789abcdef".toList) ∧ hexNumber (hexDigits n) = n := by
  induction n using Nat.strongRecOn with
  | ind n ih =>
    rcases Nat.lt_or_ge n 16 with hlt | hge
    · rw [hexDigits, Nat.toDigits_of_lt_base hlt]
      refine ⟨fun d hd => List.mem_singleton.1 hd ▸ digitChar_mem hlt, ?_⟩
      simp [hexNumber, hexValue_digitChar hlt]
    · have hmod : n % 16 < 16 := Nat.mod_lt n (by decide)
      obtain ⟨hdigits, hvalue⟩ := ih (n / 16) (Nat.div_lt_self (by omega) (by decide))
      rw [hexDigits, Nat.toDigits_of_base_le (by decide) hge]
      constructor
      · intro d hd
        rcases List.mem_append.1 hd with hd | hd
        · exact hdigits d hd
        · exact List.mem_singleton.1 hd ▸ digitChar_mem hmod
      · rw [hexNumber_append, hexValue_digitChar hmod]
        change 16 * hexNumber (hexDigits (n / 16)) + n % 16 = n
        rw [hvalue]
        exact Nat.div_add_mod n 16

theorem shows_quoteChar (c : Char) : Shows c (quoteChar c) := by
  unfold quoteChar
  split
  · exact .null
  · exact .tab
  · exact .carriageReturn
  · exact .newline
  · exact .quote
  · exact .backslash
  · next hquote hbackslash =>
    split
    · next hunprintable =>
      obtain ⟨hhex, hvalue⟩ := hexDigits_write c.toNat
      exact .number hunprintable hhex hvalue
    · next hprintable => exact .itself (by simpa using hprintable) hquote hbackslash

/-- A text is shown in double quotes, character by character. -/
theorem quotes_quote (s : String) :
    ∃ shown, quote s = "\"" ++ String.ofList shown ++ "\"" ∧ Quotes s.toList shown := by
  refine ⟨s.toList.flatMap quoteChar, ?_, ?_⟩
  · apply String.toList_injective
    simp [quote]
  · induction s.toList with
    | nil => exact .nil
    | cons c cs ih => exact .cons (shows_quoteChar c) ih

/-! ### What can be read off -/

theorem takeWhile_closed {digits : List Char} (rest : List Char)
    (h : ∀ d ∈ digits, d ∈ "0123456789abcdef".toList) :
    (digits ++ '\x7d' :: rest).takeWhile (· != '\x7d') = digits ∧
      (digits ++ '\x7d' :: rest).dropWhile (· != '\x7d') = '\x7d' :: rest := by
  have hopen : ∀ d ∈ digits, (d != '\x7d') = true := by
    intro d hd
    rw [bne_iff_ne]
    rintro rfl
    exact absurd (h _ hd) (by decide)
  exact ⟨by rw [List.takeWhile_append_of_pos hopen]; simp,
    by rw [List.dropWhile_append_of_pos hopen]; simp⟩

/-- A character can be read off, whatever follows. -/
theorem Shows.read {c : Char} {shown : List Char} (h : Shows c shown) (rest : List Char) :
    readShown (shown ++ rest) = some (c, rest) := by
  cases h with
  | itself _ _ hbackslash =>
    rw [List.singleton_append]
    unfold readShown
    split <;> simp_all
  | quote | backslash | null | tab | carriageReturn | newline => rfl
  | @number _ digits _ hhex hvalue =>
    obtain ⟨htake, hdrop⟩ := takeWhile_closed rest hhex
    have hshown : '\\' :: 'u' :: '\x7b' :: digits ++ ['\x7d'] ++ rest =
        '\\' :: 'u' :: '\x7b' :: (digits ++ '\x7d' :: rest) := by simp
    rw [hshown, readShown, htake, hdrop, hvalue, Char.ofNat_toNat]
    rfl

/-- No character is shown as what begins with a quote. -/
theorem Shows.head_ne {c : Char} {shown : List Char} (h : Shows c shown) (rest : List Char) :
    ∀ cs, shown ++ rest ≠ '"' :: cs := by
  cases h <;> simp_all

/-- Whatever follows its closing quote, a quoted text is the only one that is quoted so. -/
theorem Quotes.unique {cs cs' shown shown' rest rest' : List Char} (h : Quotes cs shown)
    (h' : Quotes cs' shown') (heq : shown ++ '"' :: rest = shown' ++ '"' :: rest') :
    cs = cs' ∧ rest = rest' := by
  induction h generalizing cs' shown' with
  | nil =>
    cases h' with
    | nil => exact ⟨rfl, (List.cons.inj heq).2⟩
    | cons first _ =>
      rw [List.append_assoc] at heq
      exact absurd heq.symm (first.head_ne _ _)
  | @cons _ _ _ others first _ ih =>
    rw [List.append_assoc] at heq
    cases h' with
    | nil => exact absurd heq (first.head_ne _ _)
    | cons first' others' =>
      rw [List.append_assoc] at heq
      have hread := first.read (others ++ '"' :: rest)
      rw [heq, first'.read] at hread
      obtain ⟨hchar, hrest⟩ := Prod.mk.inj (Option.some.inj hread)
      obtain ⟨hcs, htail⟩ := ih others' hrest.symm
      exact ⟨by rw [hchar, hcs], htail⟩

end VirtualTopology.Text
