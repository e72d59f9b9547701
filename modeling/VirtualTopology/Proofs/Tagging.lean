import VirtualTopology.Codec.Error
import VirtualTopology.Proofs.Spelling

/-!
# Tags and details

An error is written as its tag and its details. It is read back whichever of the two comes first,
with members of other names among them, with the members of the details in another order, and from
an array of the two; an error without details is also read if its details are null.

Details that come before the tag are held back until it is known what they are details of, so what
is added to them has to be of a kind that can be held back. Behind the tag they are read as they
come, and any scalar may be added. The tag of an object is read as a choice, that is as a string or
as an object of one member that is null, the tag of an array only as a string; a text with any other
tag is never read.

## Main definitions

- `Json.taggedWith`, `Json.taggedShape`: a tag with details, and what is known of it.
- `Json.Value.Carries`: the tag a value has.
- `Json.Tagging`: what a reader of tags and details has to do for each error.
- `Json.Legible`: what that means for texts.

## Main statements

- `Json.tagged_of_varies`, `Json.carries_of_tagged`: what is found in a value with a tag.
- `VmError.tagging`, `TransportError.tagging`: the two kinds of errors.
- `errors_legible`: what this means for texts.
- `crowded_details_refused`: details that cannot be held back, and a tag that is no string.
-/

namespace VirtualTopology

open Json

namespace Json

variable {free : Value → Bool} {tag : String} {details a : Option Value} {v w : Value}
  {fields : List (String × Value)} {ws : List (Option String × Value)}

/-! ### Details -/

/-- Details are nothing, a value that can be held back, or a record of such values. -/
inductive Flat : Option Value → Prop
  | none : Flat none
  | scalar {v : Value} (holdable : v.isHoldable = true) : Flat (some v)
  | record {fields : List (String × Value)} (distinct : (fields.map Prod.fst).Nodup)
      (holdable : ∀ f ∈ fields, f.2.isHoldable = true) : Flat (some (.record fields))

/-- What is known of details: the names of their members, if they are an object. -/
def detailsShape (free : Value → Bool) : Option Value → Shape
  | some (.object members) => .record free (members.filterMap fun (name, _) => name.map (·, .plain))
  | _ => .plain

/-- What may stand for details: the details, or null if there are none. -/
inductive StandsFor : Option Value → Option Value → Prop
  | self (details : Option Value) : StandsFor details details
  | null : StandsFor none (some .null)

theorem StandsFor.flat {d : Option Value} (h : StandsFor details d) (flat : Flat details) :
    Flat d := by
  cases h with
  | self => exact flat
  | null => exact .scalar rfl

@[simp] theorem Value.isHoldable_text (s : String) : (Value.text s).isHoldable = true := rfl

theorem Value.isHoldable_nat {n : Nat} (h : IsWord n) : (Value.nat n).isHoldable = true :=
  Value.fitsBuffer_nat h 0

/-- The members of details as fields. -/
def detailSlots (fields : List (String × Value)) : List Slot :=
  fields.map fun (name, v) => ⟨name, .plain, some v⟩

theorem record_eq_written (fields : List (String × Value)) :
    Value.record fields = .object (written (detailSlots fields)) := by
  rw [Value.record, written, detailSlots, List.flatMap_map]
  congr 1
  exact List.map_eq_flatMap

theorem map_name_detailSlots (fields : List (String × Value)) :
    (detailSlots fields).map Slot.name = fields.map Prod.fst := by
  rw [detailSlots, List.map_map]
  rfl

theorem detailsShape_record (free : Value → Bool) (fields : List (String × Value)) :
    detailsShape free (some (.record fields)) = shapeOf free (detailSlots fields) := by
  simp [Value.record, detailsShape, shapeOf, detailSlots, List.filterMap_map, Function.comp_def]

/-- Details without parts are found as they are. -/
theorem eq_of_rel_detailsShape (hscalar : v.isScalar = true)
    (h : Option.Rel (detailsShape free (some v)).Varies (some v) a) : a = some v := by
  have hplain : detailsShape free (some v) = .plain := by
    cases v with
    | object => cases hscalar
    | _ => rfl
  rw [hplain] at h
  exact rel_plain_iff.1 h

/-- Of details that are a record the fields are found. -/
theorem detailFields_of_rel (distinct : (fields.map Prod.fst).Nodup)
    (h : Option.Rel (detailsShape free (some (.record fields))).Varies (some (.record fields)) a) :
    Value.detailFields (fields.map Prod.fst) a = some (fields.map fun f => some f.2) := by
  rw [detailsShape_record] at h
  obtain ⟨h⟩ := h
  rw [record_eq_written] at h
  rw [← map_name_detailSlots] at distinct ⊢
  obtain ⟨ws, rfl, hspelt⟩ := spelt_of_varies free (detailSlots fields) distinct h
  obtain ⟨answers, hfields, hanswers⟩ := hspelt.fields_eq
  have heq : answers = fields.map fun f => some f.2 := by
    clear hfields hspelt h distinct
    induction fields generalizing answers with
    | nil =>
      cases hanswers
      rfl
    | cons f fields ih =>
      cases hanswers with
      | cons first rest => rw [List.map_cons, rel_plain_iff.1 first, ih _ rest]
  rw [← heq]
  exact hfields

theorem membersFitBuffer_of_forall {levels : Nat}
    (h : ∀ m ∈ ws, m.1.isSome = true ∧ m.2.fitsBuffer levels = true) :
    Value.membersFitBuffer levels ws = true := by
  induction ws with
  | nil => rfl
  | cons m ws ih =>
    obtain ⟨hname, hfits⟩ := h m List.mem_cons_self
    rw [Value.membersFitBuffer, hname, hfits, ih fun m hm => h m (List.mem_cons_of_mem _ hm)]
    rfl

/-- Details can be held back, whatever they are spelled like. -/
theorem Flat.fitsBuffer (flat : Flat details)
    (h : Option.Rel (detailsShape Value.isHoldable details).Varies details a) (levels : Nat) :
    a.all (·.fitsBuffer (levels + 1)) = true := by
  cases flat with
  | none =>
    cases h
    rfl
  | @scalar v holdable =>
    obtain rfl := eq_of_rel_detailsShape (Bool.and_eq_true_iff.1 holdable).1 h
    exact Value.fitsBuffer_of_isHoldable holdable _
  | @record fields distinct holdable =>
    rw [detailsShape_record] at h
    obtain ⟨h⟩ := h
    rw [record_eq_written] at h
    obtain ⟨ws, rfl, hspelt⟩ := spelt_of_varies Value.isHoldable (detailSlots fields)
      (map_name_detailSlots fields ▸ distinct) h
    have hmembers : ∀ m ∈ ws, m.1.isSome = true ∧ m.2.fitsBuffer levels = true := by
      rintro ⟨name, v⟩ hm
      refine ⟨hspelt.named _ hm, Value.fitsBuffer_of_isHoldable ?_ levels⟩
      obtain ⟨name, rfl⟩ := Option.isSome_iff_exists.1 (hspelt.named _ hm)
      by_cases hname : name ∈ (detailSlots fields).map Slot.name
      · obtain ⟨slot, hslot, rfl⟩ := List.mem_map.1 hname
        obtain ⟨w, hw, hvaries⟩ := hspelt.of_mem hslot hm
        obtain ⟨f, hf, rfl⟩ := List.mem_map.1 hslot
        obtain rfl := Option.some.inj hw
        obtain rfl := varies_plain_iff.1 hvaries
        exact holdable f hf
      · exact hspelt.other name v hm hname
    simp [Value.fitsBuffer, membersFitBuffer_of_forall hmembers]

/-! ### Tags -/

/-- A tag with details, or alone. -/
def taggedWith (tag : String) : Option Value → Value
  | some details => tagWith tag details
  | none => .record [("error_type", .text tag)]

/-- What is known of a tag with details. Scalars may be added beside the two; what may be added to
the details is another matter. -/
def taggedShape (free : Value → Bool) (details : Option Value) : Shape :=
  .record Value.isScalar [("error_type", .plain), ("details", detailsShape free details)]

def taggedSlots (free : Value → Bool) (tag : String) (details : Option Value) : List Slot :=
  [⟨"error_type", .plain, some (.text tag)⟩, ⟨"details", detailsShape free details, details⟩]

theorem taggedWith_eq (free : Value → Bool) (tag : String) (details : Option Value) :
    taggedWith tag details = .object (written (taggedSlots free tag details)) := by
  cases details <;> rfl

/-- The tag and the details of a value are found if the details can be held back, or need not be. -/
theorem tagged_of_varies (h : (taggedShape free details).Varies (taggedWith tag details) w)
    (held : (∀ ws, w = .object ws → detailsFirst ws = false) ∨
      free = Value.isHoldable ∧ Flat details) :
    ∃ a, w.tagged = some (tag, a) ∧ Option.Rel (detailsShape free details).Varies details a := by
  rw [taggedWith_eq free] at h
  obtain ⟨ws, rfl, hspelt⟩ := spelt_of_varies Value.isScalar (taggedSlots free tag details)
    (by simp [taggedSlots]) h
  have hnamed : ws.all (·.1.isSome) = true := List.all_eq_true.2 hspelt.named
  have htag : only? ws "error_type" = some (some (.text tag)) :=
    hspelt.only?_plain (by simp [taggedSlots])
  obtain ⟨a, hdetails, hrel⟩ := hspelt.field ⟨"details", detailsShape free details, details⟩
    (by simp [taggedSlots])
  have hguard : (!detailsFirst ws || a.all (·.fitsBuffer (nestingLimit - 1))) = true := by
    rcases held with hfirst | ⟨rfl, hflat⟩
    · simp [hfirst ws rfl]
    · have hfits : a.all (·.fitsBuffer (nestingLimit - 1)) = true := hflat.fitsBuffer hrel 125
      rw [hfits, Bool.or_true]
  refine ⟨a, ?_, hrel⟩
  have hchoice : (some (Value.text tag)).bind Value.choice = some tag := rfl
  simp only [Value.tagged, hnamed, htag, hdetails, hchoice, Option.bind_eq_bind, Option.bind_some,
    hguard]
  rfl

/-- The tag a value has: in an object a string or a choice, in an array a string. -/
inductive Value.Carries (tag : String) : Value → Prop
  | text {ws : List (Option String × Value)} (h : valuesOf ws "error_type" = [.text tag]) :
      Carries tag (.object ws)
  | choice {ws : List (Option String × Value)}
      (h : valuesOf ws "error_type" = [.record [(tag, .null)]]) : Carries tag (.object ws)
  | first (details : Value) : Carries tag (.array [.text tag, details])

theorem carries_of_tagged (h : v.tagged = some (tag, a)) : v.Carries tag := by
  unfold Value.tagged at h
  split at h
  · next ws =>
    obtain ⟨_, _, h⟩ := Option.bind_eq_some_iff.1 h
    obtain ⟨field, hfield, h⟩ := Option.bind_eq_some_iff.1 h
    obtain ⟨found, hfound, h⟩ := Option.bind_eq_some_iff.1 h
    obtain ⟨_, _, h⟩ := Option.bind_eq_some_iff.1 h
    obtain ⟨_, _, h⟩ := Option.bind_eq_some_iff.1 h
    obtain rfl := (Prod.mk.inj (Option.some.inj h)).1
    obtain ⟨x, rfl, hchoice⟩ := Option.bind_eq_some_iff.1 hfound
    have hvalues : valuesOf ws "error_type" = [x] := only?_eq_some_iff.1 hfield
    unfold Value.choice at hchoice
    split at hchoice
    · subst hchoice
      exact .text hvalues
    · subst hchoice
      exact .choice hvalues
    · cases hchoice
  · next t details =>
    obtain ⟨name, hname, h⟩ := Option.bind_eq_some_iff.1 h
    obtain rfl := (Prod.mk.inj (Option.some.inj h)).1
    unfold Value.name at hname
    split at hname
    · subst hname
      exact .first details
    · cases hname
  · cases h

/-! ### Readers -/

/-- What a reader of tags and details does for each error that fits: its details can be held back,
it is read from whatever stands for them, and it is read for no tags but these. -/
structure Tagging {ε : Type} (tag : ε → String) (details : ε → Option Value)
    (ofTag? : String → Option Value → Option ε) (fits : ε → Prop) (tags : List String) : Prop where
  flat : ∀ {e}, fits e → Flat (details e)
  read : ∀ {e free d a}, fits e → StandsFor (details e) d →
    Option.Rel (detailsShape free d).Varies d a → ofTag? (tag e) a = some e
  known : ∀ {name a e}, ofTag? name a = some e → name ∈ tags

/-- What the reader of errors promises of texts. An error is read back from the text it is written
as; from the object of its tag and of what stands for its details in whatever order and spelling, if
what is added to the details can be held back, or if they come after the tag; and from the array of
the two. No text with another tag is read. -/
structure Legible {ε : Type} (write : ε → Value) (tag : ε → String) (details : ε → Option Value)
    (read : Value → Option ε) (fits : ε → Prop) (tags : List String) : Prop where
  back : ∀ e, fits e → decode read (write e).compact = some e
  held : ∀ e d w, fits e → StandsFor (details e) d →
    (taggedShape Value.isHoldable d).Varies (taggedWith (tag e) d) w →
    ∀ text, parse? text = some w → decode read text = some e
  direct : ∀ e d ws, fits e → StandsFor (details e) d →
    (taggedShape Value.isScalar d).Varies (taggedWith (tag e) d) (.object ws) →
    detailsFirst ws = false → ∀ text, parse? text = some (.object ws) → decode read text = some e
  pair : ∀ e v w, fits e → StandsFor (details e) (some v) →
    (detailsShape Value.isScalar (some v)).Varies v w →
    ∀ text, parse? text = some (.array [.text (tag e), w]) → decode read text = some e
  stranger : ∀ text v, parse? text = some v → (∀ name ∈ tags, ¬ v.Carries name) →
    decode read text = none

section Readers

variable {ε : Type} {write : ε → Value} {nameOf : ε → String} {detailsOf : ε → Option Value}
  {ofTag? : String → Option Value → Option ε} {fits : ε → Prop} {tags : List String}

theorem varies_taggedWith_self (free : Value → Bool) (tag : String) (flat : Flat details) :
    (taggedShape free details).Varies (taggedWith tag details) (taggedWith tag details) := by
  rw [taggedWith_eq free]
  refine varies_written Value.isScalar (taggedSlots free tag details) ?_
  have hdetails : ∀ v ∈ details, (detailsShape free details).Varies v v := by
    rintro v rfl
    cases flat with
    | scalar holdable =>
      cases v with
      | object => cases holdable
      | _ => exact .plain _
    | @record fields distinct _ =>
      rw [detailsShape_record, record_eq_written]
      refine varies_written free (detailSlots fields) fun slot hslot => ?_
      obtain ⟨f, _, rfl⟩ := List.mem_map.1 hslot
      exact fun v _ => .plain v
  simpa [taggedSlots] using hdetails

theorem Tagging.legible (h : Tagging nameOf detailsOf ofTag? fits tags)
    (written : ∀ e, write e = taggedWith (nameOf e) (detailsOf e)) :
    Legible write nameOf detailsOf (fun v => v.tagged.bind fun (tag, a) => ofTag? tag a) fits
      tags := by
  have hheld : ∀ e d w, fits e → StandsFor (detailsOf e) d →
      (taggedShape Value.isHoldable d).Varies (taggedWith (nameOf e) d) w →
      (w.tagged.bind fun (tag, a) => ofTag? tag a) = some e := by
    intro e d w he hd hw
    obtain ⟨a, ha, hrel⟩ := tagged_of_varies hw (.inr ⟨rfl, hd.flat (h.flat he)⟩)
    rw [ha]
    exact h.read he hd hrel
  refine ⟨fun e he => ?_, fun e d w he hd hw text htext => ?_,
    fun e d ws he hd hws hfirst text htext => ?_, fun e v w he hv hw text htext => ?_,
    fun text v htext hstranger => ?_⟩
  · rw [decode_compact, written]
    exact hheld e _ _ he (.self _) (varies_taggedWith_self _ _ (h.flat he))
  · exact decode_eq_some_iff.2 ⟨w, htext, hheld e d w he hd hw⟩
  · refine decode_eq_some_iff.2 ⟨.object ws, htext, ?_⟩
    obtain ⟨a, ha, hrel⟩ := tagged_of_varies hws (.inl fun ws' heq => by cases heq; exact hfirst)
    rw [ha]
    exact h.read he hd hrel
  · exact decode_eq_some_iff.2 ⟨_, htext, h.read he hv (.some hw)⟩
  · rw [decode, htext, Option.bind_some, Option.bind_eq_none_iff]
    rintro ⟨name, a⟩ htagged
    show ofTag? name a = none
    cases hread : ofTag? name a with
    | none => rfl
    | some e => exact absurd (carries_of_tagged htagged) (hstranger name (h.known hread))

end Readers

end Json

/-! ### Errors of transports -/

namespace TransportError

/-- The numbers of an error are words. -/
def Fits : TransportError → Prop
  | unavailable _ => True
  | invalidSize size max => IsWord size ∧ IsWord max
  | invalidRank rank size => IsWord rank ∧ IsWord size
  | closed communicator => IsWord communicator

/-- The details an error is written with. -/
def details : TransportError → Option Value
  | unavailable reason => some (.text reason)
  | invalidSize size max => some (.record [("size", .nat size), ("max", .nat max)])
  | invalidRank rank size => some (.record [("rank", .nat rank), ("size", .nat size)])
  | closed communicator => some (.nat communicator)

/-- The names of the causes. -/
def tags : List String := ["unavailable", "invalid_size", "invalid_rank", "closed"]

theorem toJson_eq (e : TransportError) : e.toJson = taggedWith e.kind e.details := by
  cases e <;> rfl

theorem flat_details {e : TransportError} (fits : e.Fits) : Flat e.details := by
  cases e with
  | unavailable reason => exact .scalar rfl
  | invalidSize size max =>
    exact .record (by simp) (by simp [Value.isHoldable_nat fits.1, Value.isHoldable_nat fits.2])
  | invalidRank rank size =>
    exact .record (by simp) (by simp [Value.isHoldable_nat fits.1, Value.isHoldable_nat fits.2])
  | closed communicator => exact .scalar (Value.isHoldable_nat fits)

theorem ofTag?_kind {e : TransportError} {free : Value → Bool} {d a : Option Value} (fits : e.Fits)
    (hd : StandsFor e.details d) (h : Option.Rel (detailsShape free d).Varies d a) :
    ofTag? e.kind a = some e := by
  cases e with
  | unavailable reason =>
    cases hd
    obtain rfl := eq_of_rel_detailsShape rfl h
    rfl
  | invalidSize size max =>
    cases hd
    have hfields : Value.detailFields ["size", "max"] a =
        some [some (.nat size), some (.nat max)] :=
      detailFields_of_rel (by simp) h
    simp [ofTag?, kind, hfields, required_word fits.1, required_word fits.2]
  | invalidRank rank size =>
    cases hd
    have hfields : Value.detailFields ["rank", "size"] a =
        some [some (.nat rank), some (.nat size)] :=
      detailFields_of_rel (by simp) h
    simp [ofTag?, kind, hfields, required_word fits.1, required_word fits.2]
  | closed communicator =>
    have hcommunicator : IsWord communicator := fits
    cases hd
    obtain rfl := eq_of_rel_detailsShape rfl h
    simp [ofTag?, kind, required_word hcommunicator]

theorem mem_tags_of_ofTag? {name : String} {a : Option Value} {e : TransportError}
    (h : ofTag? name a = some e) : name ∈ tags := by
  unfold ofTag? at h
  split at h
  iterate 4 decide
  cases h

theorem tagging : Tagging kind details ofTag? Fits tags :=
  ⟨flat_details, ofTag?_kind, mem_tags_of_ofTag?⟩

end TransportError

/-! ### Errors of the topology layer -/

namespace VmError

/-- The numbers of an error are words. -/
def Fits : VmError → Prop
  | alreadyInitialized global => IsWord global
  | outOfRange vm pet petCount => IsWord vm ∧ IsWord pet ∧ IsWord petCount
  | bufferTooSmall needed capacity => IsWord needed ∧ IsWord capacity
  | insufficientResources requested available => IsWord requested ∧ IsWord available
  | invalidSpawnCount count => IsWord count
  | launch slot _ => IsWord slot
  | entryPanicked slot pet _ => IsWord slot ∧ IsWord pet
  | outstandingChildren count => IsWord count
  | notInitialized | transportInit _ | noContext _ | configuration _ => True

/-- The names of the causes. -/
def tags : List String :=
  ["already_initialized", "not_initialized", "transport_init", "no_context", "out_of_range",
    "buffer_too_small", "insufficient_resources", "invalid_spawn_count", "launch_error",
    "entry_panicked", "outstanding_children", "config"]

theorem toJson_eq (e : VmError) : e.toJson = taggedWith e.tag e.details := by
  cases e <;> rfl

theorem flat_details {e : VmError} (fits : e.Fits) : Flat e.details := by
  cases e with
  | alreadyInitialized global =>
    have hglobal : IsWord global := fits
    exact .record (by simp) (by simp [Value.isHoldable_nat, hglobal])
  | notInitialized => exact .none
  | transportInit reason => exact .scalar rfl
  | noContext context =>
    exact .record (by simp) (by simp)
  | outOfRange vm pet petCount =>
    obtain ⟨hvm, hpet, hpetCount⟩ : IsWord vm ∧ IsWord pet ∧ IsWord petCount := fits
    exact .record (by simp) (by simp [Value.isHoldable_nat, hvm, hpet, hpetCount])
  | bufferTooSmall needed capacity =>
    obtain ⟨hneeded, hcapacity⟩ : IsWord needed ∧ IsWord capacity := fits
    exact .record (by simp) (by simp [Value.isHoldable_nat, hneeded, hcapacity])
  | insufficientResources requested available =>
    obtain ⟨hrequested, havailable⟩ : IsWord requested ∧ IsWord available := fits
    exact .record (by simp) (by simp [Value.isHoldable_nat, hrequested, havailable])
  | invalidSpawnCount count => exact .scalar (Value.isHoldable_nat fits)
  | launch slot reason =>
    have hslot : IsWord slot := fits
    exact .record (by simp) (by simp [Value.isHoldable_nat, hslot])
  | entryPanicked slot pet message =>
    obtain ⟨hslot, hpet⟩ : IsWord slot ∧ IsWord pet := fits
    exact .record (by simp) (by simp [Value.isHoldable_nat, hslot, hpet])
  | outstandingChildren count =>
    have hcount : IsWord count := fits
    exact .record (by simp) (by simp [Value.isHoldable_nat, hcount])
  | configuration reason => exact .scalar rfl

theorem ofTag?_tag {e : VmError} {free : Value → Bool} {d a : Option Value} (fits : e.Fits)
    (hd : StandsFor e.details d) (h : Option.Rel (detailsShape free d).Varies d a) :
    ofTag? e.tag a = some e := by
  cases e with
  | alreadyInitialized global =>
    have hglobal : IsWord global := fits
    cases hd
    have hfields : Value.detailFields ["global"] a = some [some (.nat global)] :=
      detailFields_of_rel (by simp) h
    simp [ofTag?, tag, kind, hfields, required_word hglobal]
  | notInitialized =>
    cases hd with
    | self =>
      cases h
      rfl
    | null =>
      obtain rfl := eq_of_rel_detailsShape rfl h
      rfl
  | transportInit reason =>
    cases hd
    obtain rfl := eq_of_rel_detailsShape rfl h
    rfl
  | noContext context =>
    cases hd
    have hfields : Value.detailFields ["context"] a = some [some (.text context)] :=
      detailFields_of_rel (by simp) h
    simp [ofTag?, tag, kind, hfields, required_name]
  | outOfRange vm pet petCount =>
    obtain ⟨hvm, hpet, hpetCount⟩ : IsWord vm ∧ IsWord pet ∧ IsWord petCount := fits
    cases hd
    have hfields : Value.detailFields ["vm", "pet", "pet_count"] a =
        some [some (.nat vm), some (.nat pet), some (.nat petCount)] :=
      detailFields_of_rel (by simp) h
    simp [ofTag?, tag, kind, hfields, required_word hvm, required_word hpet,
      required_word hpetCount]
  | bufferTooSmall needed capacity =>
    obtain ⟨hneeded, hcapacity⟩ : IsWord needed ∧ IsWord capacity := fits
    cases hd
    have hfields : Value.detailFields ["needed", "capacity"] a =
        some [some (.nat needed), some (.nat capacity)] :=
      detailFields_of_rel (by simp) h
    simp [ofTag?, tag, kind, hfields, required_word hneeded, required_word hcapacity]
  | insufficientResources requested available =>
    obtain ⟨hrequested, havailable⟩ : IsWord requested ∧ IsWord available := fits
    cases hd
    have hfields : Value.detailFields ["requested", "available"] a =
        some [some (.nat requested), some (.nat available)] :=
      detailFields_of_rel (by simp) h
    simp [ofTag?, tag, kind, hfields, required_word hrequested, required_word havailable]
  | invalidSpawnCount count =>
    have hcount : IsWord count := fits
    cases hd
    obtain rfl := eq_of_rel_detailsShape rfl h
    simp [ofTag?, tag, kind, required_word hcount]
  | launch slot reason =>
    have hslot : IsWord slot := fits
    cases hd
    have hfields : Value.detailFields ["slot", "reason"] a =
        some [some (.nat slot), some (.text reason)] :=
      detailFields_of_rel (by simp) h
    simp [ofTag?, tag, kind, hfields, required_word hslot, required_name]
  | entryPanicked slot pet message =>
    obtain ⟨hslot, hpet⟩ : IsWord slot ∧ IsWord pet := fits
    cases hd
    have hfields : Value.detailFields ["slot", "pet", "message"] a =
        some [some (.nat slot), some (.nat pet), some (.text message)] :=
      detailFields_of_rel (by simp) h
    simp [ofTag?, tag, kind, hfields, required_word hslot, required_word hpet, required_name]
  | outstandingChildren count =>
    have hcount : IsWord count := fits
    cases hd
    have hfields : Value.detailFields ["count"] a = some [some (.nat count)] :=
      detailFields_of_rel (by simp) h
    simp [ofTag?, tag, kind, hfields, required_word hcount]
  | configuration reason =>
    cases hd
    obtain rfl := eq_of_rel_detailsShape rfl h
    rfl

theorem mem_tags_of_ofTag? {name : String} {a : Option Value} {e : VmError}
    (h : ofTag? name a = some e) : name ∈ tags := by
  unfold ofTag? at h
  split at h
  iterate 12 decide
  cases h

theorem tagging : Tagging tag details ofTag? Fits tags :=
  ⟨flat_details, ofTag?_tag, mem_tags_of_ofTag?⟩

end VmError

/-! ### Texts -/

/-- Errors are read back from their texts and from every other spelling of them that is a tag with
details. What is added to details that come before their tag has to be of a kind that can be held
back, and a text with another tag is never read. -/
theorem errors_legible :
    Legible VmError.toJson VmError.tag VmError.details VmError.ofJson? VmError.Fits VmError.tags ∧
    Legible TransportError.toJson TransportError.kind TransportError.details TransportError.ofJson?
      TransportError.Fits TransportError.tags :=
  ⟨VmError.tagging.legible VmError.toJson_eq,
    TransportError.tagging.legible TransportError.toJson_eq⟩

/-- An error whose details come first, with a load among them that is larger than every
floating-point number. -/
def crowdedDetails : Value :=
  .record [("details", .record [("count", .nat 1), ("load", .number (.decimal false 1 400))]),
    ("error_type", .text "outstanding_children")]

/-- An error whose tag is no string but an object. -/
def chosenTag : Value := .record [("error_type", .record [("not_initialized", .null)])]

theorem varies_crowdedDetails :
    (taggedShape Value.isScalar (VmError.outstandingChildren 1).details).Varies
      (VmError.outstandingChildren 1).toJson crowdedDetails := by
  have hdetails : (detailsShape Value.isScalar (some (.record [("count", .nat 1)]))).Varies
      (.record [("count", .nat 1)])
      (.record [("count", .nat 1), ("load", .number (.decimal false 1 400))]) := by
    rw [detailsShape_record, record_eq_written]
    refine varies_written_append Value.isScalar (detailSlots [("count", .nat 1)])
      [(some "load", .number (.decimal false 1 400))] ?_ ?_
    · simp [detailSlots]
    · simp [Unknown, detailSlots, Value.isScalar]
  rw [VmError.toJson_eq, taggedWith_eq Value.isScalar]
  have hfields : MembersVary [("error_type", .plain),
      ("details", detailsShape Value.isScalar (VmError.outstandingChildren 1).details)]
      [(some "error_type", .text "outstanding_children"),
        (some "details", .record [("count", .nat 1)])]
      [(some "error_type", .text "outstanding_children"),
        (some "details", .record [("count", .nat 1), ("load", .number (.decimal false 1 400))])] :=
    .cons (by simp) (.plain _) (.cons (by simp [VmError.details]) hdetails .nil)
  exact varies_of_perm hfields (.swap _ _ [])

theorem ofJson?_crowdedDetails : VmError.ofJson? crowdedDetails = none := by
  have hload : Number.isFinite (.decimal false 1 400) = false :=
    not_isFinite_decimal false (by decide) (by decide)
  simp [VmError.ofJson?, Value.tagged, crowdedDetails, Value.record, only?, valuesOf, detailsFirst,
    tagName, detailsName, Value.fitsBuffer, Value.membersFitBuffer, hload]

/-- Not every scalar may be added to details that come before their tag, and not every tag that is
read is a string. -/
theorem crowded_details_refused :
    (taggedShape Value.isScalar (VmError.outstandingChildren 1).details).Varies
        (VmError.outstandingChildren 1).toJson crowdedDetails ∧
      decode VmError.ofJson? crowdedDetails.compact = none ∧
      decode VmError.ofJson? chosenTag.compact = some .notInitialized := by
  rw [decode_compact, decode_compact]
  exact ⟨varies_crowdedDetails, ofJson?_crowdedDetails, rfl⟩

end VirtualTopology
