import VirtualTopology.Discovery
import VirtualTopology.Proofs.Quoting

/-!
# Counts in the environment

What a count looks like is said here without a reader: the blanks at the ends of a text are taken
off, one plus sign may lead, and what follows are digits. A text that is no count is refused for the
first place, from the left, that cannot be part of one. Reading is compared with that in both
directions, so that every text is either a count, and of one value, or refused, and for one reason.

## Main definitions

- `Text.Stripped`: a text without the blanks at its ends.
- `Text.IsCount`, `Text.Refused`: which texts are counts, and what is wrong with the others.
- `Text.Spoils`: a place that no count can have.
- `Environment.Gives`, `Environment.Lacks`: the text that a setting was made with.
- `Environment.Asks`, `Environment.Fails`: what a setting asks for, and how it fails to.
- `Environment.Complaint`: what is said about a setting that is no count.

## Main statements

- `Text.readCount_eq_ok_iff`, `Text.readCount_eq_error_iff`: reading a count.
- `Text.exists_isCount_iff`: no text is both a count and refused, and none is neither.
- `DiscoveryConfig.ofEnvironment_counts`: the overrides of an environment, and its faults.
-/

namespace VirtualTopology

namespace Text

variable {cs body : List Char} {c : Char} {value n k : Nat} {fault : CountFault}

/-! ### Blanks -/

/-- A text with the blanks at its ends taken off. -/
structure Stripped (cs body : List Char) : Prop where
  split : ∃ before after, cs = before ++ body ++ after ∧
    (∀ c ∈ before, isBlank c = true) ∧ ∀ c ∈ after, isBlank c = true
  first : ∀ c ∈ body.head?, isBlank c = false
  last : ∀ c ∈ body.getLast?, isBlank c = false

theorem dropWhile_blank_eq_self (h : ∀ c ∈ cs.head?, isBlank c = false) :
    cs.dropWhile isBlank = cs := by
  cases cs with
  | nil => rfl
  | cons c cs => rw [List.dropWhile_cons, h c rfl]; rfl

theorem head?_dropWhile_blank (cs : List Char) :
    ∀ c ∈ (cs.dropWhile isBlank).head?, isBlank c = false := by
  intro c hc
  have hfirst := List.head?_dropWhile_not isBlank cs
  rwa [Option.mem_def.1 hc] at hfirst

theorem stripped_trimBlank (cs : List Char) : Stripped cs (trimBlank cs) := by
  have hfront := List.takeWhile_append_dropWhile (p := isBlank) (l := cs)
  have hback := List.takeWhile_append_dropWhile (p := isBlank) (l := (cs.dropWhile isBlank).reverse)
  generalize hrest : cs.dropWhile isBlank = rest at hfront hback
  have hrest' : rest = trimBlank cs ++ (rest.reverse.takeWhile isBlank).reverse := by
    rw [trimBlank, hrest, ← List.reverse_append, hback, List.reverse_reverse]
  refine ⟨⟨cs.takeWhile isBlank, (rest.reverse.takeWhile isBlank).reverse, ?_, ?_, ?_⟩, ?_, ?_⟩
  · rw [List.append_assoc, ← hrest', hfront]
  · exact List.all_eq_true.1 List.all_takeWhile
  · intro c hc
    exact List.all_eq_true.1 List.all_takeWhile c (List.mem_reverse.1 hc)
  · intro c hc
    have hhead : c ∈ rest.head? := by
      rw [hrest', List.head?_append, Option.mem_def.1 hc]
      rfl
    exact head?_dropWhile_blank cs c (hrest ▸ hhead)
  · intro c hc
    rw [trimBlank, List.getLast?_reverse] at hc
    exact head?_dropWhile_blank _ c hc

theorem trimBlank_of_stripped (h : Stripped cs body) : trimBlank cs = body := by
  obtain ⟨⟨before, after, rfl, hbefore, hafter⟩, hfirst, hlast⟩ := h
  rw [trimBlank, List.append_assoc, List.dropWhile_append_of_pos hbefore]
  cases body with
  | nil =>
    have hnone : (after ++ []).dropWhile isBlank = [] := List.dropWhile_append_of_pos hafter
    rw [List.append_nil] at hnone
    rw [List.nil_append, hnone]
    rfl
  | cons c body =>
    have hbody : ∀ d ∈ ((c :: body) ++ after).head?, isBlank d = false := hfirst
    rw [dropWhile_blank_eq_self hbody, List.reverse_append,
      List.dropWhile_append_of_pos fun d hd => hafter d (List.mem_reverse.1 hd),
      dropWhile_blank_eq_self (by rwa [List.head?_reverse]), List.reverse_reverse]

/-- There is one way to take off the blanks. -/
theorem stripped_iff : Stripped cs body ↔ trimBlank cs = body :=
  ⟨trimBlank_of_stripped, fun h => h ▸ stripped_trimBlank cs⟩

/-! ### Digits -/

theorem digit?_eq (c : Char) :
    digit? c = if c.isDigit then some (c.toNat - '0'.toNat) else none := by
  have hdigit : c.isDigit = true ↔ '0' ≤ c ∧ c ≤ '9' := by
    simp [Char.isDigit, Char.le_def]
  simp only [digit?, hdigit]

/-- Further digits do not make a value smaller. -/
theorem le_ofDigitChars (cs : List Char) (value : Nat) : value ≤ Nat.ofDigitChars 10 cs value := by
  induction cs generalizing value with
  | nil => simp
  | cons c cs ih =>
    rw [Nat.ofDigitChars_cons]
    exact Nat.le_trans (by omega) (ih _)

theorem readDigits_eq_ok_iff (hvalue : value < Limits.wordBound) :
    readDigits value cs = .ok n ↔
      (∀ c ∈ cs, c.isDigit = true) ∧ Nat.ofDigitChars 10 cs value = n ∧ n < Limits.wordBound := by
  induction cs generalizing value with
  | nil =>
    simp only [readDigits, Except.ok.injEq, List.not_mem_nil, false_implies, implies_true, true_and,
      Nat.ofDigitChars_nil]
    exact ⟨fun h => ⟨h, h ▸ hvalue⟩, And.left⟩
  | cons c cs ih =>
    rw [readDigits, digit?_eq, Nat.ofDigitChars_cons]
    cases hdigit : c.isDigit with
    | false => simp [hdigit]
    | true =>
      simp only [if_true]
      generalize 10 * value + (c.toNat - '0'.toNat) = next
      split
      · next hroom => simp [ih hroom, hdigit]
      · next hfull =>
        -- The value has left the range here and does not come back.
        refine iff_of_false (by simp) ?_
        rintro ⟨_, rfl, hlt⟩
        exact hfull (Nat.lt_of_le_of_lt (le_ofDigitChars cs next) hlt)

/-- A place that no count can have behind the digits before it, and what is wrong there: the
character is no digit, or it is one and the value of the digits up to it leaves the range. -/
def Spoils (value : Nat) (digits : List Char) (k : Nat) (fault : CountFault) : Prop :=
  ∃ c, digits[k]? = some c ∧
    (c.isDigit = false ∧ fault = .invalidDigit ∨
      c.isDigit = true ∧ Limits.wordBound ≤ Nat.ofDigitChars 10 (digits.take (k + 1)) value ∧
        fault = .tooLarge)

/-- What is wrong at the first place that no count can have. -/
def Spoiled (value : Nat) (digits : List Char) (fault : CountFault) : Prop :=
  ∃ k, Spoils value digits k fault ∧ ∀ j < k, ∀ other, ¬ Spoils value digits j other

theorem spoils_cons_zero : Spoils value (c :: cs) 0 fault ↔
    c.isDigit = false ∧ fault = .invalidDigit ∨
      c.isDigit = true ∧ Limits.wordBound ≤ 10 * value + (c.toNat - '0'.toNat) ∧
        fault = .tooLarge := by
  simp [Spoils, Nat.ofDigitChars_cons]

theorem spoils_cons_succ : Spoils value (c :: cs) (k + 1) fault ↔
    Spoils (10 * value + (c.toNat - '0'.toNat)) cs k fault := by
  simp only [Spoils, List.getElem?_cons_succ, List.take_succ_cons, Nat.ofDigitChars_cons]

theorem spoiled_cons : Spoiled value (c :: cs) fault ↔
    Spoils value (c :: cs) 0 fault ∨ (∀ other, ¬ Spoils value (c :: cs) 0 other) ∧
      Spoiled (10 * value + (c.toNat - '0'.toNat)) cs fault := by
  constructor
  · rintro ⟨k, hk, hfirst⟩
    cases k with
    | zero => exact Or.inl hk
    | succ k =>
      refine Or.inr ⟨hfirst 0 (Nat.succ_pos k), k, spoils_cons_succ.1 hk, fun j hj other hother => ?_⟩
      exact hfirst (j + 1) (Nat.succ_lt_succ hj) other (spoils_cons_succ.2 hother)
  · rintro (hzero | ⟨hzero, k, hk, hfirst⟩)
    · exact ⟨0, hzero, fun j hj => absurd hj (Nat.not_lt_zero j)⟩
    · refine ⟨k + 1, spoils_cons_succ.2 hk, fun j hj other hother => ?_⟩
      cases j with
      | zero => exact hzero other hother
      | succ j => exact hfirst j (Nat.lt_of_succ_lt_succ hj) other (spoils_cons_succ.1 hother)

theorem readDigits_eq_error_iff :
    readDigits value cs = .error fault ↔ Spoiled value cs fault := by
  induction cs generalizing value with
  | nil => simp [readDigits, Spoiled, Spoils]
  | cons c cs ih =>
    rw [readDigits, digit?_eq, spoiled_cons]
    simp only [spoils_cons_zero]
    cases hdigit : c.isDigit with
    | false => simp [eq_comm]
    | true =>
      rw [if_pos rfl]
      dsimp only
      generalize 10 * value + (c.toNat - '0'.toNat) = next
      split
      · next hroom => simp [ih, Nat.not_le.2 hroom]
      · next hfull => simp [Nat.not_lt.1 hfull, eq_comm]

/-! ### Counts -/

/-- What is behind an optional plus sign. -/
def unsigned (body : List Char) : List Char :=
  if body.head? = some '+' then body.tail else body

/-- A text without blanks at its ends is a count: digits behind an optional plus sign, of a value
that is a word. -/
def IsCount (body : List Char) (n : Nat) : Prop :=
  ∃ sign digits, body = sign ++ digits ∧ (sign = [] ∨ sign = ['+']) ∧ digits ≠ [] ∧
    (∀ c ∈ digits, c.isDigit = true) ∧ Nat.ofDigitChars 10 digits 0 = n ∧ n < Limits.wordBound

/-- Why a text without blanks at its ends is no count: nothing is left, or a lone sign, or a place
behind the optional plus sign. -/
def Refused (body : List Char) (fault : CountFault) : Prop :=
  body = [] ∧ fault = .empty ∨ (body = ['+'] ∨ body = ['-']) ∧ fault = .invalidDigit ∨
    Spoiled 0 (unsigned body) fault

theorem unsigned_eq_nil_iff : unsigned body = [] ↔ body = [] ∨ body = ['+'] := by
  cases body with
  | nil => simp [unsigned]
  | cons c cs =>
    by_cases hc : c = '+'
    · simp [unsigned, hc]
    · simp [unsigned, hc]

theorem exists_sign (body : List Char) :
    ∃ sign, body = sign ++ unsigned body ∧ (sign = [] ∨ sign = ['+']) := by
  cases body with
  | nil => exact ⟨[], rfl, Or.inl rfl⟩
  | cons c cs =>
    by_cases hc : c = '+'
    · exact ⟨['+'], by simp [unsigned, hc], Or.inr rfl⟩
    · exact ⟨[], by simp [unsigned, hc], Or.inl rfl⟩

/-- A text that starts with a digit has no sign. -/
theorem unsigned_digits {digits : List Char} (h : ∀ c ∈ digits, c.isDigit = true) :
    unsigned digits = digits := by
  cases digits with
  | nil => rfl
  | cons c cs =>
    have hc : c ≠ '+' := by
      rintro rfl
      exact absurd (h '+' List.mem_cons_self) (by decide)
    simp [unsigned, hc]

theorem readWord_eq (body : List Char) : readWord body =
    if body = [] then .error .empty
    else if unsigned body = [] then .error .invalidDigit
    else readDigits 0 (unsigned body) := by
  cases body with
  | nil => rfl
  | cons c cs =>
    by_cases hc : c = '+'
    · subst hc
      cases cs with
      | nil => rfl
      | cons d cs => rfl
    · simp [readWord, unsigned, hc]

theorem readWord_eq_ok_iff : readWord body = .ok n ↔ IsCount body n := by
  rw [readWord_eq]
  constructor
  · intro h
    split at h
    · cases h
    · split at h
      · cases h
      · next hdigits =>
        obtain ⟨hall, hvalue, hlt⟩ := (readDigits_eq_ok_iff (by decide)).1 h
        obtain ⟨sign, hbody, hsign⟩ := exists_sign body
        exact ⟨sign, unsigned body, hbody, hsign, hdigits, hall, hvalue, hlt⟩
  · rintro ⟨sign, digits, rfl, hsign, hdigits, hall, hvalue, hlt⟩
    have hunsigned : unsigned (sign ++ digits) = digits := by
      rcases hsign with rfl | rfl
      · exact unsigned_digits hall
      · rfl
    rw [if_neg (List.append_ne_nil_of_right_ne_nil sign hdigits), hunsigned, if_neg hdigits]
    exact (readDigits_eq_ok_iff (by decide)).2 ⟨hall, hvalue, hlt⟩

theorem not_spoiled_nil : ¬ Spoiled value [] fault := by
  rintro ⟨k, ⟨c, hc, _⟩, _⟩
  cases hc

theorem readWord_eq_error_iff : readWord body = .error fault ↔ Refused body fault := by
  rw [readWord_eq]
  by_cases hempty : body = []
  · subst hempty
    simp [Refused, unsigned, not_spoiled_nil, eq_comm]
  · rw [if_neg hempty]
    by_cases hnone : unsigned body = []
    · obtain rfl : body = ['+'] := (unsigned_eq_nil_iff.1 hnone).resolve_left hempty
      simp [Refused, unsigned, not_spoiled_nil, eq_comm]
    · rw [if_neg hnone, readDigits_eq_error_iff, Refused]
      have hminus : (body = ['+'] ∨ body = ['-']) ∧ fault = .invalidDigit →
          Spoiled 0 (unsigned body) fault := by
        rintro ⟨rfl | rfl, rfl⟩
        · exact absurd rfl hnone
        · exact spoiled_cons.2 (Or.inl (spoils_cons_zero.2 (Or.inl ⟨rfl, rfl⟩)))
      rw [or_iff_right fun h => hempty h.1, or_iff_right_of_imp hminus]

/-- A text without blanks at its ends either is a count or is refused. -/
theorem exists_isCount_iff : (∃ n, IsCount body n) ↔ ∀ fault, ¬ Refused body fault := by
  simp only [← readWord_eq_ok_iff, ← readWord_eq_error_iff]
  cases readWord body with
  | error fault => simp
  | ok n => simp

theorem readCount_eq_ok_iff {raw : String} :
    readCount raw = .ok n ↔ ∃ body, Stripped raw.toList body ∧ IsCount body n := by
  simp only [readCount, readWord_eq_ok_iff, stripped_iff, exists_eq_left']

theorem readCount_eq_error_iff {raw : String} :
    readCount raw = .error fault ↔ ∃ body, Stripped raw.toList body ∧ Refused body fault := by
  simp only [readCount, readWord_eq_error_iff, stripped_iff, exists_eq_left']

end Text

/-! ### Settings -/

namespace Environment

variable {env : Environment} {setting : Setting} {raw : String} {answer : Option Nat}
  {fault : ConfigFault}

/-- A setting was made with a text, as such or as the bytes that encode it. -/
def Gives (env : Environment) (setting : Setting) (raw : String) : Prop :=
  env.lookup setting.name = some (.text raw) ∨
    env.lookup setting.name = some (.bytes raw.toUTF8)

/-- A setting was not made, or with bytes that encode no text. -/
def Lacks (env : Environment) (setting : Setting) : Prop :=
  env.lookup setting.name = none ∨
    ∃ bytes, env.lookup setting.name = some (.bytes bytes) ∧ ¬ bytes.IsValidUTF8

theorem fromUTF8?_eq_some_iff {bytes : ByteArray} :
    String.fromUTF8? bytes = some raw ↔ bytes = raw.toUTF8 := by
  unfold String.fromUTF8?
  split
  · constructor
    · intro h
      rw [← Option.some.inj h]
      rfl
    · rintro rfl
      rfl
  · next hinvalid =>
    refine iff_of_false (by simp) ?_
    rintro rfl
    exact hinvalid raw.isValidUTF8

theorem read?_eq_some_iff : env.read? setting = some raw ↔ env.Gives setting raw := by
  rw [read?, Gives]
  rcases env.lookup setting.name with _ | ⟨s⟩ | ⟨bytes⟩
  · simp
  · simp [RawValue.text?]
  · simp [RawValue.text?, fromUTF8?_eq_some_iff]

theorem read?_eq_none_iff : env.read? setting = none ↔ env.Lacks setting := by
  rw [read?, Lacks]
  rcases env.lookup setting.name with _ | ⟨s⟩ | ⟨bytes⟩
  · simp
  · simp [RawValue.text?]
  · simp [RawValue.text?, String.fromUTF8?]

/-- What a setting asks for: nothing, or the count that its text is without the blanks. -/
inductive Asks (env : Environment) (setting : Setting) : Option Nat → Prop
  | nothing (lacks : env.Lacks setting) : Asks env setting none
  | count {raw body n} (gives : env.Gives setting raw) (stripped : Text.Stripped raw.toList body)
      (count : Text.IsCount body n) : Asks env setting (some n)

/-- How a setting fails to ask for a count: its text without the blanks is refused. -/
inductive Fails (env : Environment) (setting : Setting) : ConfigFault → Prop
  | refused {raw body reason} (gives : env.Gives setting raw)
      (stripped : Text.Stripped raw.toList body) (refused : Text.Refused body reason) :
      Fails env setting (.notACount setting raw reason)

theorem countOf_eq_ok_iff :
    DiscoveryConfig.countOf env setting = .ok answer ↔ env.Asks setting answer := by
  constructor
  · intro h
    rw [DiscoveryConfig.countOf] at h
    split at h
    · next hraw =>
      obtain rfl := Except.ok.inj h
      exact .nothing (read?_eq_none_iff.1 hraw)
    · next raw hraw =>
      split at h
      · next n hn =>
        obtain rfl := Except.ok.inj h
        obtain ⟨body, hstripped, hcount⟩ := Text.readCount_eq_ok_iff.1 hn
        exact .count (read?_eq_some_iff.1 hraw) hstripped hcount
      · cases h
  · intro h
    cases h with
    | nothing lacks => rw [DiscoveryConfig.countOf, read?_eq_none_iff.2 lacks]
    | count gives stripped count =>
      have hread := Text.readCount_eq_ok_iff.2 ⟨_, stripped, count⟩
      simp only [DiscoveryConfig.countOf, read?_eq_some_iff.2 gives, hread]

theorem countOf_eq_error_iff :
    DiscoveryConfig.countOf env setting = .error fault ↔ env.Fails setting fault := by
  constructor
  · intro h
    rw [DiscoveryConfig.countOf] at h
    split at h
    · cases h
    · next raw hraw =>
      split at h
      · cases h
      · next reason hreason =>
        obtain rfl := Except.error.inj h
        obtain ⟨body, hstripped, hrefused⟩ := Text.readCount_eq_error_iff.1 hreason
        exact .refused (read?_eq_some_iff.1 hraw) hstripped hrefused
  · intro h
    cases h with
    | refused gives stripped refused =>
      have hread := Text.readCount_eq_error_iff.2 ⟨_, stripped, refused⟩
      simp only [DiscoveryConfig.countOf, read?_eq_some_iff.2 gives, hread]

end Environment

namespace DiscoveryConfig

variable {env : Environment} {images pes : Option Nat} {fault : ConfigFault}

theorem ofEnvironment_eq_ok_iff : (∃ compat, ofEnvironment env = .ok ⟨images, pes, compat⟩) ↔
    env.Asks .images images ∧ env.Asks .pesPerImage pes := by
  rw [← Environment.countOf_eq_ok_iff, ← Environment.countOf_eq_ok_iff, ofEnvironment]
  cases countOf env .images with
  | error fault => simp
  | ok images' =>
    cases countOf env .pesPerImage with
    | error fault => simp
    | ok pes' => simp

/-- A fault in the number of images comes first. -/
theorem ofEnvironment_eq_error_iff : ofEnvironment env = .error fault ↔
    env.Fails .images fault ∨
      (∃ images, env.Asks .images images) ∧ env.Fails .pesPerImage fault := by
  simp only [← Environment.countOf_eq_ok_iff, ← Environment.countOf_eq_error_iff]
  rw [ofEnvironment]
  cases countOf env .images with
  | error fault => simp
  | ok images =>
    cases countOf env .pesPerImage with
    | error fault => simp
    | ok pes => simp

end DiscoveryConfig

/-- Only nothing is refused for being empty. -/
theorem Text.Refused.eq_empty_iff {body : List Char} {reason : CountFault}
    (h : Refused body reason) : reason = .empty ↔ body = [] := by
  rcases h with ⟨rfl, rfl⟩ | ⟨rfl | rfl, rfl⟩ | hspoiled
  · simp
  · simp
  · simp
  · refine iff_of_false ?_ ?_
    · obtain ⟨k, ⟨c, _, ⟨_, rfl⟩ | ⟨_, _, rfl⟩⟩, _⟩ := hspoiled
      · simp
      · simp
    · rintro rfl
      exact not_spoiled_nil hspoiled

/-- The words for a reason. -/
inductive Text.CountFault.Worded : CountFault → String → Prop
  | empty : Worded .empty "cannot parse integer from empty string"
  | invalidDigit : Worded .invalidDigit "invalid digit found in string"
  | tooLarge : Worded .tooLarge "number too large to fit in target type"

theorem Text.CountFault.worded_message (reason : CountFault) : reason.Worded reason.message := by
  cases reason
  · exact .empty
  · exact .invalidDigit
  · exact .tooLarge

/-- What is said of a setting whose text, without the blanks, is refused: the setting by its name, the
text as it was given in quotes, and the reason. The text can be read off what is said. -/
inductive Environment.Complaint (env : Environment) (e : VmError) : Prop
  | mk {setting name raw body reason shown words}
      (known : setting = .images ∧ name = "PETVM_IMAGES" ∨
        setting = .pesPerImage ∧ name = "PETVM_PES_PER_IMAGE")
      (gives : env.Gives setting raw) (stripped : Text.Stripped raw.toList body)
      (refused : Text.Refused body reason) (empty : reason = .empty ↔ body = [])
      (quotes : Text.Quotes raw.toList shown) (worded : reason.Worded words)
      (text : e = .configuration (name ++ "=" ++ ("\"" ++ String.ofList shown ++ "\"") ++ ": " ++ words))
      (legible : ∀ raw' shown' rest rest', Text.Quotes raw' shown' →
        shown ++ '"' :: rest = shown' ++ '"' :: rest' → raw' = raw.toList ∧ rest' = rest)

/-- A setting that fails is complained about. -/
theorem Environment.Fails.complaint {env : Environment} {setting : Setting} {fault : ConfigFault}
    (h : env.Fails setting fault) (known : setting = .images ∨ setting = .pesPerImage) :
    env.Complaint fault.toVmError := by
  cases h with
  | @refused raw body reason gives stripped refused =>
    obtain ⟨shown, hquote, hquotes⟩ := Text.quotes_quote raw
    have hknown : setting = .images ∧ setting.name = "PETVM_IMAGES" ∨
        setting = .pesPerImage ∧ setting.name = "PETVM_PES_PER_IMAGE" := by
      rcases known with rfl | rfl
      · exact Or.inl ⟨rfl, rfl⟩
      · exact Or.inr ⟨rfl, rfl⟩
    have htext : (ConfigFault.notACount setting raw reason).toVmError = .configuration
        (setting.name ++ "=" ++ ("\"" ++ String.ofList shown ++ "\"") ++ ": " ++
          reason.message) := by
      rw [← hquote]
      rfl
    refine .mk hknown gives stripped refused refused.eq_empty_iff hquotes reason.worded_message htext
      fun _ _ _ _ h' heq => ?_
    obtain ⟨hraw, hrest⟩ := hquotes.unique h' heq
    exact ⟨hraw.symm, hrest.symm⟩

namespace DiscoveryConfig

/-- The overrides that an environment asks for are the counts that its two settings say, or none
where a setting was not made with a text. It is refused if and only if a setting has a text that is no
count, the number of images first. The error names the setting and quotes its text as it was given,
and says that nothing is left of it without the blanks, or what is wrong at a lone sign or at the first
place behind the sign that no count can have. -/
theorem ofEnvironment_counts (env : Environment) :
    (∀ images pes, (∃ compat, ofEnvironment env = .ok ⟨images, pes, compat⟩) ↔
      env.Asks .images images ∧ env.Asks .pesPerImage pes) ∧
    (∀ fault, ofEnvironment env = .error fault ↔
      env.Fails .images fault ∨
        (∃ images, env.Asks .images images) ∧ env.Fails .pesPerImage fault) ∧
    ∀ fault, ofEnvironment env = .error fault → env.Complaint fault.toVmError := by
  refine ⟨fun _ _ => ofEnvironment_eq_ok_iff, fun _ => ofEnvironment_eq_error_iff,
    fun fault h => ?_⟩
  rcases ofEnvironment_eq_error_iff.1 h with hfails | ⟨_, hfails⟩
  · exact hfails.complaint (Or.inl rfl)
  · exact hfails.complaint (Or.inr rfl)

/-- The largest word behind zeros and blanks, with bytes that are no text; and one more than that,
found out before the letter behind it and before the empty text of the other setting. -/
theorem ofEnvironment_counts_boundary :
    let env : Environment := [("PETVM_IMAGES", .text "\u2003+0018446744073709551615\n"),
      ("PETVM_PES_PER_IMAGE", .bytes ⟨#[0xff]⟩)]
    let wrong : Environment := [("PETVM_IMAGES", .text "\t+18446744073709551616x"),
      ("PETVM_PES_PER_IMAGE", .text "")]
    env.Asks .images (some 18446744073709551615) ∧ env.Asks .pesPerImage none ∧
    ofEnvironment wrong = .error (.notACount .images "\t+18446744073709551616x" .tooLarge) ∧
    wrong.Complaint
      (ConfigFault.notACount .images "\t+18446744073709551616x" .tooLarge).toVmError := by
  intro env wrong
  have hok : ofEnvironment env = .ok ⟨some 18446744073709551615, none, false⟩ := rfl
  have hwrong : ofEnvironment wrong =
      .error (.notACount .images "\t+18446744073709551616x" .tooLarge) := rfl
  obtain ⟨himages, hpes⟩ := ((ofEnvironment_counts env).1 _ _).1 ⟨false, hok⟩
  exact ⟨himages, hpes, hwrong, (ofEnvironment_counts wrong).2.2 _ hwrong⟩

end DiscoveryConfig

end VirtualTopology
