import Mathlib.Data.List.Nodup
import Mathlib.Data.Option.Basic
import VirtualTopology.Json.Record
import VirtualTopology.Proofs.Scanning

/-!
# Values spelled otherwise

What a record stands for does not depend on the order of its members, nor on members that it does
not know. A shape says where in a value the records are and which fields they have; a value is
spelled otherwise if the members of its records are in another order, and members of other names
are added. Members of some records are held back before they are looked at, and what is added there
has to be of a kind that can be.

## Main definitions

- `Json.Shape`, `Json.Shape.Varies`: what is known of a value, and its other spellings.
- `Json.Slot`, `Json.written`: the fields of a record, and the members they are written as.
- `Json.Lossless`: what is written is read back in whatever spelling.

## Main statements

- `Json.spelt_of_varies`, `Json.fields_of_varies`: what a reader finds in another spelling.
- `Json.listOf_of_varies`: lists.
- `Json.Value.fitsBuffer_of_isHoldable`: what is held back without loss.
- `Json.Lossless.of_fields`: records, from what is said of their fields.
- `Json.Lossless.faithful`: what this means for texts.
-/

namespace VirtualTopology.Json

/-! ### Values spelled otherwise -/

/-- A value without parts. -/
def Value.isScalar : Value → Bool
  | .array _ | .object _ => false
  | _ => true

/-- A value without parts that can be held back: a string has a text, a number is finite. -/
def Value.isHoldable (v : Value) : Bool := v.isScalar && v.fitsBuffer 0

/-- What is known of a value: nothing, or that it is a list of values of one shape, or that it is a
record with fields of these names. Members of other names may have values that are `free`. -/
inductive Shape where
  | plain
  | list (items : Shape)
  | record (free : Value → Bool) (fields : List (String × Shape))

/-- Members that a record does not know. -/
def Unknown (free : Value → Bool) (fields : List (String × Shape))
    (members : List (Option String × Value)) : Prop :=
  ∀ m ∈ members, free m.2 = true ∧ ∃ name, m.1 = some name ∧ name ∉ fields.map Prod.fst

mutual

/-- The second value is the first one spelled otherwise: with the members of each record in another
order, and with members added that the record does not know. -/
inductive Shape.Varies : Shape → Value → Value → Prop
  | plain (v : Value) : Shape.Varies .plain v v
  | list {s : Shape} {vs ws : List Value} (items : ItemsVary s vs ws) :
      Shape.Varies (.list s) (.array vs) (.array ws)
  | record {free : Value → Bool} {fields : List (String × Shape)}
      {ms own added ws : List (Option String × Value)} (known : MembersVary fields ms own)
      (unknown : Unknown free fields added) (order : ws.Perm (own ++ added)) :
      Shape.Varies (.record free fields) (.object ms) (.object ws)

/-- Each item is spelled otherwise. -/
inductive ItemsVary : Shape → List Value → List Value → Prop
  | nil {s : Shape} : ItemsVary s [] []
  | cons {s : Shape} {v w : Value} {vs ws : List Value} (first : Shape.Varies s v w)
      (rest : ItemsVary s vs ws) : ItemsVary s (v :: vs) (w :: ws)

/-- Each member is one of the fields, and its value is spelled otherwise. -/
inductive MembersVary : List (String × Shape) → List (Option String × Value) →
    List (Option String × Value) → Prop
  | nil {fields : List (String × Shape)} : MembersVary fields [] []
  | cons {fields : List (String × Shape)} {name : String} {s : Shape} {v w : Value}
      {ms ws : List (Option String × Value)} (field : (name, s) ∈ fields)
      (first : Shape.Varies s v w) (rest : MembersVary fields ms ws) :
      MembersVary fields ((some name, v) :: ms) ((some name, w) :: ws)

end

variable {free : Value → Bool} {fields : List (String × Shape)} {s : Shape} {name : String}
  {ms own added ws : List (Option String × Value)} {v w : Value} {vs : List Value}

/-! ### Members by name -/

theorem valuesOf_append (ms ws : List (Option String × Value)) (name : String) :
    valuesOf (ms ++ ws) name = valuesOf ms name ++ valuesOf ws name := List.filterMap_append

theorem valuesOf_perm (name : String) (h : ms.Perm ws) :
    (valuesOf ms name).Perm (valuesOf ws name) := h.filterMap _

theorem valuesOf_eq_nil (h : some name ∉ ms.map Prod.fst) : valuesOf ms name = [] := by
  rw [valuesOf, List.filterMap_eq_nil_iff]
  rintro ⟨n, v⟩ hm
  have hne : n ≠ some name := fun heq => h (heq ▸ List.mem_map_of_mem hm)
  simp [hne]

theorem mem_valuesOf : v ∈ valuesOf ms name ↔ (some name, v) ∈ ms := by
  simp only [valuesOf, List.mem_filterMap, Prod.exists]
  constructor
  · rintro ⟨n, x, hm, hx⟩
    split at hx
    · next hn =>
      obtain rfl := Option.some.inj hx
      rwa [eq_of_beq hn] at hm
    · cases hx
  · exact fun hm => ⟨some name, v, hm, by simp⟩

theorem valuesOf_filter {p : Option String × Value → Bool}
    (h : ∀ v, p (some name, v) = true) : valuesOf (ms.filter p) name = valuesOf ms name := by
  rw [valuesOf, List.filterMap_filter, valuesOf]
  congr 1
  funext ⟨n, v⟩
  by_cases hn : n = some name
  · simp [hn, h]
  · simp [hn]

theorem only?_filter {p : Option String × Value → Bool}
    (h : ∀ v, p (some name, v) = true) : only? (ms.filter p) name = only? ms name := by
  rw [only?, valuesOf_filter h, only?]

theorem only?_eq_some_iff {a : Option Value} :
    only? ms name = some a ↔ valuesOf ms name = a.toList := by
  rw [only?]
  split
  · next h => cases a <;> simp [h]
  · next x h => cases a <;> simp [h]
  · next x h1 h2 =>
    cases a with
    | none => simpa using h1
    | some a => simpa using h2 a

/-! ### The fields of a record -/

/-- A field of a record: what it is called, what is known of its value, and its value if it is
written. -/
structure Slot where
  name : String
  shape : Shape
  value : Option Value

/-- The member a field is written as. -/
def Slot.members (slot : Slot) : List (Option String × Value) :=
  slot.value.toList.map (some slot.name, ·)

/-- The members of a record that are written. -/
def written (slots : List Slot) : List (Option String × Value) := slots.flatMap Slot.members

/-- The shape of a record that has these fields. -/
def shapeOf (free : Value → Bool) (slots : List Slot) : Shape :=
  .record free (slots.map fun slot => (slot.name, slot.shape))

variable {slot : Slot} {slots : List Slot}

theorem Slot.valuesOf_members (slot : Slot) :
    valuesOf slot.members slot.name = slot.value.toList := by
  cases h : slot.value <;> simp [Slot.members, valuesOf, h]

theorem Slot.valuesOf_members_of_ne (h : slot.name ≠ name) : valuesOf slot.members name = [] := by
  refine valuesOf_eq_nil fun hmem => ?_
  simp only [Slot.members, List.map_map, List.mem_map, Function.comp_apply] at hmem
  obtain ⟨_, _, heq⟩ := hmem
  exact h (Option.some.inj heq)

theorem written_cons (slot : Slot) (slots : List Slot) :
    written (slot :: slots) = slot.members ++ written slots := List.flatMap_cons

theorem valuesOf_written_of_notMem (h : name ∉ slots.map Slot.name) :
    valuesOf (written slots) name = [] := by
  induction slots with
  | nil => rfl
  | cons first slots ih =>
    rw [List.map_cons, List.mem_cons, not_or] at h
    rw [written_cons, valuesOf_append, Slot.valuesOf_members_of_ne (Ne.symm h.1), ih h.2]
    rfl

/-- Under the name of a field stands its value, and nothing else. -/
theorem valuesOf_written (distinct : (slots.map Slot.name).Nodup) (h : slot ∈ slots) :
    valuesOf (written slots) slot.name = slot.value.toList := by
  induction slots with
  | nil => cases h
  | cons first slots ih =>
    obtain ⟨hfirst, hrest⟩ := List.nodup_cons.1 distinct
    rw [written_cons, valuesOf_append]
    rcases List.mem_cons.1 h with rfl | h
    · rw [Slot.valuesOf_members, valuesOf_written_of_notMem hfirst, List.append_nil]
    · have hne : first.name ≠ slot.name := fun heq => hfirst (heq ▸ List.mem_map_of_mem h)
      rw [Slot.valuesOf_members_of_ne hne, ih hrest h, List.nil_append]

theorem ItemsVary.eq_nil (h : ItemsVary s [] vs) : vs = [] := by
  cases h
  rfl

theorem ItemsVary.exists_eq_singleton (h : ItemsVary s [v] vs) : ∃ w, vs = [w] ∧ s.Varies v w := by
  cases h with
  | cons first rest => exact ⟨_, by rw [rest.eq_nil], first⟩

theorem mem_fields_of_membersVary (h : MembersVary fields ms ws) {m : Option String × Value}
    (hm : m ∈ ws) : ∃ name s v, m.1 = some name ∧ (name, s) ∈ fields ∧ s.Varies v m.2 := by
  induction ms generalizing ws with
  | nil =>
    cases h
    cases hm
  | cons _ ms ih =>
    cases h with
    | @cons _ name s v w ms ws field first rest =>
      rcases List.mem_cons.1 hm with rfl | hm
      · exact ⟨name, s, v, rfl, field, first⟩
      · exact ih rest hm

theorem valuesOf_membersVary (distinct : (fields.map Prod.fst).Nodup) (field : (name, s) ∈ fields)
    (h : MembersVary fields ms ws) : ItemsVary s (valuesOf ms name) (valuesOf ws name) := by
  induction ms generalizing ws with
  | nil =>
    cases h
    exact .nil
  | cons _ ms ih =>
    cases h with
    | @cons _ other t v w ms ws field' first rest =>
      by_cases hname : other = name
      · subst hname
        have hshape : (other, s) = (other, t) :=
          List.inj_on_of_nodup_map distinct field field' rfl
        obtain rfl := (Prod.mk.inj hshape).2
        simpa [valuesOf] using ItemsVary.cons first (ih rest)
      · simpa [valuesOf, hname] using ih rest

/-- What a reader finds in a record that is spelled otherwise: under the name of each field its
value, spelled otherwise, or nothing if it was not written. -/
structure Spelt (free : Value → Bool) (slots : List Slot) (ws : List (Option String × Value)) :
    Prop where
  named : ∀ m ∈ ws, m.1.isSome = true
  field : ∀ slot ∈ slots, ∃ a, only? ws slot.name = some a ∧
    Option.Rel slot.shape.Varies slot.value a
  other : ∀ name v, (some name, v) ∈ ws → name ∉ slots.map Slot.name → free v = true

theorem spelt_of_varies (free : Value → Bool) (slots : List Slot)
    (distinct : (slots.map Slot.name).Nodup)
    (h : (shapeOf free slots).Varies (.object (written slots)) w) :
    ∃ ws, w = .object ws ∧ Spelt free slots ws := by
  have hnames : (slots.map fun slot => (slot.name, slot.shape)).map Prod.fst =
      slots.map Slot.name := by
    rw [List.map_map]
    rfl
  cases h with
  | @record _ _ _ own added ws known unknown order =>
    refine ⟨ws, rfl, ?_, ?_, ?_⟩
    · intro m hm
      rcases List.mem_append.1 (order.mem_iff.1 hm) with hm | hm
      · obtain ⟨name, _, _, hname, _⟩ := mem_fields_of_membersVary known hm
        rw [hname]
        rfl
      · obtain ⟨_, name, hname, _⟩ := unknown m hm
        rw [hname]
        rfl
    · intro slot hslot
      have hown := valuesOf_membersVary (hnames ▸ distinct)
        (List.mem_map_of_mem (f := fun slot : Slot => (slot.name, slot.shape)) hslot) known
      have hadded : valuesOf added slot.name = [] := by
        refine valuesOf_eq_nil fun hmem => ?_
        obtain ⟨m, hm, hname⟩ := List.mem_map.1 hmem
        obtain ⟨_, other, hother, hnot⟩ := unknown m hm
        obtain rfl := Option.some.inj (hother.symm.trans hname)
        exact hnot (hnames ▸ List.mem_map_of_mem hslot)
      have hperm : (valuesOf ws slot.name).Perm (valuesOf own slot.name) := by
        have hvalues := valuesOf_perm slot.name order
        rwa [valuesOf_append, hadded, List.append_nil] at hvalues
      rw [valuesOf_written distinct hslot] at hown
      cases hvalue : slot.value with
      | none =>
        rw [hvalue] at hown
        rw [hown.eq_nil] at hperm
        exact ⟨none, only?_eq_some_iff.2 hperm.eq_nil, .none⟩
      | some v =>
        rw [hvalue] at hown
        obtain ⟨w, hw, hvaries⟩ := hown.exists_eq_singleton
        rw [hw] at hperm
        exact ⟨some w, only?_eq_some_iff.2 hperm.eq_singleton, .some hvaries⟩
    · intro name v hm hnot
      rcases List.mem_append.1 (order.mem_iff.1 hm) with hm | hm
      · obtain ⟨other, s, _, hname, hfield, _⟩ := mem_fields_of_membersVary known hm
        obtain rfl := Option.some.inj hname
        exact absurd (hnames ▸ List.mem_map_of_mem hfield) hnot
      · exact (unknown _ hm).1

/-- The fields of a record are found whatever it is spelled like. -/
theorem Spelt.fields_eq (h : Spelt free slots ws) : ∃ answers,
    (Value.object ws).fields (slots.map Slot.name) = some answers ∧
    List.Forall₂ (fun slot a => Option.Rel slot.shape.Varies slot.value a) slots answers := by
  have hnamed : ws.all (·.1.isSome) = true := List.all_eq_true.2 h.named
  rw [Value.fields, if_pos hnamed]
  have hfield := h.field
  clear h hnamed
  induction slots with
  | nil => exact ⟨[], rfl, .nil⟩
  | cons slot slots ih =>
    obtain ⟨a, ha, hrel⟩ := hfield slot List.mem_cons_self
    obtain ⟨answers, hanswers, hall⟩ := ih fun slot hslot =>
      hfield slot (List.mem_cons_of_mem _ hslot)
    refine ⟨a :: answers, ?_, .cons hrel hall⟩
    simp [ha, hanswers]

theorem fields_of_varies (free : Value → Bool) (slots : List Slot) (names : List String)
    (hnames : slots.map Slot.name = names) (distinct : names.Nodup)
    (h : (shapeOf free slots).Varies (.object (written slots)) w) :
    ∃ answers, w.fields names = some answers ∧
      List.Forall₂ (fun slot a => Option.Rel slot.shape.Varies slot.value a) slots answers := by
  subst hnames
  obtain ⟨ws, rfl, hspelt⟩ := spelt_of_varies free slots distinct h
  exact hspelt.fields_eq

@[simp] theorem varies_plain_iff : Shape.plain.Varies v w ↔ w = v := by
  constructor
  · rintro ⟨⟩
    rfl
  · rintro rfl
    exact .plain w

@[simp] theorem rel_plain_iff {o a : Option Value} : Option.Rel Shape.plain.Varies o a ↔ a = o := by
  cases o <;> cases a <;> simp

theorem Spelt.only?_plain (h : Spelt free slots ws) {o : Option Value}
    (hslot : ⟨name, .plain, o⟩ ∈ slots) : only? ws name = some o := by
  obtain ⟨a, ha, hrel⟩ := h.field _ hslot
  exact ha.trans (congrArg some (rel_plain_iff.1 hrel))

/-- What stands under the name of a field is its value, spelled otherwise. -/
theorem Spelt.of_mem (h : Spelt free slots ws) (hslot : slot ∈ slots)
    (hmem : (some slot.name, w) ∈ ws) : ∃ v, slot.value = some v ∧ slot.shape.Varies v w := by
  obtain ⟨a, ha, hrel⟩ := h.field slot hslot
  have hw : w ∈ a.toList := only?_eq_some_iff.1 ha ▸ mem_valuesOf.2 hmem
  obtain rfl := Option.mem_toList.1 hw
  cases hvalue : slot.value with
  | none =>
    rw [hvalue] at hrel
    cases hrel
  | some v =>
    rw [hvalue] at hrel
    cases hrel with
    | some hvaries => exact ⟨v, rfl, hvaries⟩

/-- A list is read if its items are. -/
theorem listOf_of_varies {α : Type} {write : α → Value} {read : Value → Option α} {as : List α}
    (h : s.list.Varies (.array (as.map write)) w)
    (items : ∀ a ∈ as, ∀ w, s.Varies (write a) w → read w = some a) : w.listOf read = some as := by
  cases h with
  | list hitems =>
    rename_i ws
    show ws.mapM read = some as
    induction as generalizing ws with
    | nil =>
      cases hitems
      rfl
    | cons a as ih =>
      cases hitems with
      | cons first rest =>
        have hrest := ih (fun a ha => items a (List.mem_cons_of_mem _ ha)) rest
        simp [items a List.mem_cons_self _ first, hrest]

/-- The members of a record in another order, and none added. -/
theorem varies_of_perm (known : MembersVary fields ms own) (order : ws.Perm own) :
    (Shape.record free fields).Varies (.object ms) (.object ws) := by
  have hnone : Unknown free fields [] := by simp [Unknown]
  exact .record known hnone (by rwa [List.append_nil])

/-! ### What is written is a spelling of itself -/

theorem itemsVary_self {α : Type} {write : α → Value} {as : List α}
    (h : ∀ a, s.Varies (write a) (write a)) : ItemsVary s (as.map write) (as.map write) := by
  induction as with
  | nil => exact .nil
  | cons a as ih => exact .cons (h a) ih

theorem membersVary_written (field : ∀ slot ∈ slots, (slot.name, slot.shape) ∈ fields)
    (h : ∀ slot ∈ slots, ∀ v ∈ slot.value, slot.shape.Varies v v) :
    MembersVary fields (written slots) (written slots) := by
  induction slots with
  | nil => exact .nil
  | cons slot slots ih =>
    have hrest := ih (fun slot hslot => field slot (List.mem_cons_of_mem _ hslot))
      fun slot hslot => h slot (List.mem_cons_of_mem _ hslot)
    rw [written_cons, Slot.members]
    cases hvalue : slot.value with
    | none => exact hrest
    | some v =>
      exact .cons (field slot List.mem_cons_self) (h slot List.mem_cons_self v hvalue) hrest

/-- What is written with members added that the record does not know. -/
theorem varies_written_append (free : Value → Bool) (slots : List Slot)
    (added : List (Option String × Value))
    (h : ∀ slot ∈ slots, ∀ v ∈ slot.value, slot.shape.Varies v v)
    (unknown : Unknown free (slots.map fun slot => (slot.name, slot.shape)) added) :
    (shapeOf free slots).Varies (.object (written slots)) (.object (written slots ++ added)) :=
  .record (membersVary_written (fun _ hslot =>
    List.mem_map_of_mem (f := fun slot : Slot => (slot.name, slot.shape)) hslot) h) unknown
    (.refl _)

theorem varies_written (free : Value → Bool) (slots : List Slot)
    (h : ∀ slot ∈ slots, ∀ v ∈ slot.value, slot.shape.Varies v v) :
    (shapeOf free slots).Varies (.object (written slots)) (.object (written slots)) := by
  have hvaries := varies_written_append free slots [] h (by simp [Unknown])
  rwa [List.append_nil] at hvaries

/-! ### Kinds of fields -/

section Fields

variable {n bound : Nat} {a : Option Value}

/-- A number is a word of 64 bits. -/
def IsWord (n : Nat) : Prop := n < Limits.wordBound

instance (n : Nat) : Decidable (IsWord n) := inferInstanceAs (Decidable (n < Limits.wordBound))

theorem Value.natBelow_nat (h : n < bound) : (Value.nat n).natBelow bound = some n := if_pos h

theorem Value.lt_of_natBelow (h : v.natBelow bound = some n) : n < bound := by
  unfold Value.natBelow at h
  split at h
  · split at h
    · next hlt => exact Option.some.inj h ▸ hlt
    · cases h
  · cases h

theorem required_word (h : IsWord n) : required Value.word (some (.nat n)) = some n :=
  Value.natBelow_nat h

theorem isWord_of_required (h : required Value.word a = some n) : IsWord n := by
  obtain ⟨v, _, hv⟩ := Option.bind_eq_some_iff.1 h
  exact Value.lt_of_natBelow hv

theorem required_name (s : String) : required Value.name (some (.text s)) = some s := rfl

theorem required_flag (b : Bool) : required Value.flag (some (.bool b)) = some b := rfl

theorem nullable_word {o : Option Nat} (h : ∀ n ∈ o, IsWord n) :
    nullable Value.word (o.map Value.nat) = some o := by
  cases o with
  | none => rfl
  | some n =>
    show (Value.word (.nat n)).map some = _
    rw [Value.word, Value.natBelow_nat (h n rfl)]
    rfl

theorem isWord_of_nullable {o : Option Nat} (h : nullable Value.word a = some o) :
    ∀ n ∈ o, IsWord n := by
  rintro n rfl
  unfold nullable at h
  split at h
  · cases h
  · cases h
  · obtain ⟨m, hm, heq⟩ := Option.map_eq_some_iff.1 h
    obtain rfl := Option.some.inj heq
    exact Value.lt_of_natBelow hm

/-- A number that is left out when it is zero. -/
theorem orDefault_halfWord (h : n < Limits.depthBound) :
    orDefault 0 Value.halfWord (if isZero n then none else some (.nat n)) = some n := by
  cases n with
  | zero => rfl
  | succ n => exact Value.natBelow_nat h

theorem lt_of_orDefault_halfWord (h : orDefault 0 Value.halfWord a = some n) :
    n < Limits.depthBound := by
  cases a with
  | none =>
    obtain rfl := Option.some.inj h
    decide
  | some v => exact Value.lt_of_natBelow h

/-- A switch that is left out when it is off. -/
theorem orDefault_flag (b : Bool) :
    orDefault false Value.flag (if isOff b then none else some (.bool b)) = some b := by
  cases b <;> rfl

theorem forall_of_mapM {α : Type} {read : Value → Option α} {P : α → Prop} {ws : List Value}
    {as : List α} (items : ∀ w a, read w = some a → P a) (h : ws.mapM read = some as) :
    ∀ a ∈ as, P a := by
  induction ws generalizing as with
  | nil =>
    obtain rfl := Option.some.inj h
    simp
  | cons w ws ih =>
    rw [List.mapM_cons] at h
    obtain ⟨a, ha, h⟩ := Option.bind_eq_some_iff.1 h
    obtain ⟨as, has, h⟩ := Option.bind_eq_some_iff.1 h
    obtain rfl := Option.some.inj h
    exact List.forall_mem_cons.2 ⟨items w a ha, ih has⟩

/-- What is read of a list are values that were read of its items. -/
theorem forall_of_required_listOf {α : Type} {read : Value → Option α} {P : α → Prop} {as : List α}
    (items : ∀ w a, read w = some a → P a) (h : required (Value.listOf read) a = some as) :
    ∀ a ∈ as, P a := by
  obtain ⟨v, _, h⟩ := Option.bind_eq_some_iff.1 h
  unfold Value.listOf at h
  split at h
  · exact forall_of_mapM items h
  · cases h

/-! ### Values that are held back -/

/-- Rounding does not take a word far. -/
theorem nearestDouble_le (h : IsWord n) : nearestDouble n ≤ n + 1 <<< 11 := by
  have hlog : n.log2 - 52 ≤ 12 := by
    rcases Nat.eq_zero_or_pos n with rfl | hpos
    · simp
    · have hlt : n.log2 < 64 := (Nat.log2_lt (Nat.ne_of_gt hpos)).2 h
      omega
  have hunit : 1 <<< (n.log2 - 52) ≤ 2 ^ 12 := by
    rw [Nat.one_shiftLeft]
    exact Nat.pow_le_pow_right (by decide) hlog
  have hround := roundDiv_mul_le n (1 <<< (n.log2 - 52))
  show roundDiv n (1 <<< (n.log2 - 52)) * (1 <<< (n.log2 - 52)) ≤ _
  omega

theorem isFinite_natural (h : IsWord n) : (Number.natural n).isFinite = true := by
  have hdigits : leadingDigits n = (n, 0) := by
    rw [leadingDigits, if_pos (show n < 1 <<< 64 from h)]
  have hone : nearestDouble 1 = 1 := nearestDouble_of_lt (by decide)
  have hlt : nearestDouble n < doubleLimit := by
    have hle := nearestDouble_le h
    have hword : n < 2 ^ 64 := h
    have hlimit : 2 ^ 65 ≤ doubleLimit := by decide
    omega
  simp [Number.isFinite, doubleIsFinite, hdigits, hone, hlt]

theorem Value.fitsBuffer_nat (h : IsWord n) (levels : Nat) :
    (Value.nat n).fitsBuffer levels = true :=
  isFinite_natural h

theorem leadingDigits_fst_pos (h : 0 < n) : 0 < (leadingDigits n).1 := by
  induction n using leadingDigits.induct with
  | case1 n hfits => rwa [leadingDigits, if_pos hfits]
  | case2 n hlarge ih =>
    rw [leadingDigits, if_neg hlarge]
    exact ih (by omega)

/-- A number that is not zero is too large with a power of ten above the 308th. -/
theorem not_isFinite_decimal {exponent : Int} (negative : Bool) (hdigits : 0 < n)
    (hexponent : 308 < exponent) : (Number.decimal negative n exponent).isFinite = false := by
  have hpos := leadingDigits_fst_pos hdigits
  have hne : (leadingDigits n).1 ≠ 0 := by omega
  have hlow : ¬ exponent + (leadingDigits n).2 < 0 := by omega
  have hhigh : ¬ exponent + (leadingDigits n).2 ≤ 308 := by omega
  simp [Number.isFinite, doubleIsFinite, hne, hlow, hhigh]

/-- A value without parts that can be held back can be so at any depth. -/
theorem Value.fitsBuffer_of_isHoldable (h : v.isHoldable = true) (levels : Nat) :
    v.fitsBuffer levels = true := by
  obtain ⟨hscalar, hfits⟩ := Bool.and_eq_true_iff.1 h
  cases v with
  | null | bool | number | string => exact hfits
  | array | object => cases hscalar

end Fields

/-! ### Codecs -/

/-- Values of a type that fit are read back in whatever spelling, and no others are ever read. -/
structure Lossless {α : Type} (shape : Shape) (write : α → Value) (read : Value → Option α)
    (fits : α → Prop) : Prop where
  varies_self : ∀ a, shape.Varies (write a) (write a)
  read_varies : ∀ {a w}, fits a → shape.Varies (write a) w → read w = some a
  fits_of_read : ∀ {w a}, read w = some a → fits a

/-- Codecs of records. What is written are the fields; what is read of the fields, spelled otherwise
or left out as they may be, is what was written; and nothing that does not fit is read of any. -/
theorem Lossless.of_fields {α : Type} {write : α → Value} {read : Value → Option α}
    {fits : α → Prop} {free : Value → Bool} {shape : Shape}
    {readFields : List (Option Value) → Option α} (slots : α → List Slot) (names : List String)
    (distinct : names.Nodup)
    (record : ∀ a, (slots a).map Slot.name = names ∧ shape = shapeOf free (slots a) ∧
      write a = .object (written (slots a)))
    (reader : ∀ w, read w = (w.fields names).bind readFields)
    (self : ∀ a, ∀ slot ∈ slots a, ∀ v ∈ slot.value, slot.shape.Varies v v)
    (back : ∀ a answers, fits a →
      List.Forall₂ (fun slot b => Option.Rel slot.shape.Varies slot.value b) (slots a) answers →
        readFields answers = some a)
    (only : ∀ answers a, readFields answers = some a → fits a) :
    Lossless shape write read fits where
  varies_self a := by
    obtain ⟨_, hshape, hwrite⟩ := record a
    rw [hshape, hwrite]
    exact varies_written free (slots a) (self a)
  read_varies {a w} hfits h := by
    obtain ⟨hnames, hshape, hwrite⟩ := record a
    rw [hshape, hwrite] at h
    obtain ⟨answers, hfields, hanswers⟩ := fields_of_varies free (slots a) names hnames distinct h
    rw [reader, hfields]
    exact back a answers hfits hanswers
  fits_of_read {w a} h := by
    rw [reader] at h
    obtain ⟨answers, _, hread⟩ := Option.bind_eq_some_iff.1 h
    exact only answers a hread

/-- What a codec promises of texts: a value is read back from the text it is written as, so no two
values have the same text; it is read from every text of another spelling; and whatever a text is
read as is the same after it is written and read once more. -/
structure Faithful {α : Type} (shape : Shape) (write : α → Value) (read : Value → Option α)
    (fits : α → Prop) : Prop where
  back : ∀ a, fits a → decode read (write a).compact = some a
  apart : ∀ a b, fits a → fits b → (write a).compact = (write b).compact → a = b
  otherwise : ∀ a w, fits a → shape.Varies (write a) w →
    decode read w.compact = some a ∧ ∀ text, parse? text = some w → decode read text = some a
  again : ∀ text a, decode read text = some a →
    fits a ∧ decode read (write a).compact = some a

theorem Lossless.faithful {α : Type} {shape : Shape} {write : α → Value} {read : Value → Option α}
    {fits : α → Prop} (h : Lossless shape write read fits) : Faithful shape write read fits := by
  have hback : ∀ a, fits a → decode read (write a).compact = some a := by
    intro a ha
    rw [decode_compact]
    exact h.read_varies ha (h.varies_self a)
  refine ⟨hback, fun a b ha hb heq => ?_, fun a w ha hw => ?_, fun text a htext => ?_⟩
  · have hread := hback a ha
    rw [heq, hback b hb] at hread
    exact (Option.some.inj hread).symm
  · have hread := h.read_varies ha hw
    refine ⟨(decode_compact read w).trans hread, fun text htext => ?_⟩
    exact decode_eq_some_iff.2 ⟨w, htext, hread⟩
  · obtain ⟨v, _, hread⟩ := decode_eq_some_iff.1 htext
    have ha := h.fits_of_read hread
    exact ⟨ha, hback a ha⟩

end VirtualTopology.Json
