import VirtualTopology.Proofs.Tagging

/-!
# Kinds and tags

There are two forms of an error for programs: it is written as its tag and its details, and it is
reported by its kind and its message. The kind of an error is also its tag, unless the error is
about the configuration. So of most errors it is enough to keep the kind and the details: what is
kept is what would have been written, and is read back. The kind of an error about the configuration
is the tag of no error at all, and what is kept of it is never read.

The same kind always means the same cause, and so does the same tag.

## Main definitions

- `VmError.kinds`: the kinds, in the order of the causes.
- `VmError.kept`: the kind of an error from its report, beside its details from what it is written
  as.
- `VmError.Keeps`: the spellings of what is kept.

## Main statements

- `VmError.kind_eq_kind_iff`, `VmError.tag_eq_tag_iff`: errors with the same kind or tag.
- `VmError.kind_eq_tag_iff`: the errors whose kind is their tag.
- `VmError.decode_of_keeps`, `VmError.decode_of_keeps_configuration`: what is read of what is kept.
- `VmError.restored_iff`: the errors that can be rebuilt from what is kept of them.
- `VmError.not_always_restored`: one that cannot.
-/

namespace VirtualTopology

open Json

/-- The members of an object that have a name. -/
def Json.Value.membersNamed (name : String) : Value → List (Option String × Value)
  | .object members => members.filter (·.1 == some name)
  | _ => []

namespace VmError

/-- The kinds, in the order of the causes. They are the tags but for the last. -/
def kinds : List String := tags.dropLast ++ ["configuration_error"]

/-- What is kept of an error: its kind as reported, and its details as written, if it has any. -/
def kept (e : VmError) : Value :=
  .object (e.report.toJson.membersNamed "error_type" ++ e.toJson.membersNamed "details")

/-- The value is what is kept of an error, with the members in whatever order, and perhaps with
members added that the reader of errors does not know; details that are missing may be null. -/
def Keeps (e : VmError) (w : Value) : Prop :=
  ∃ d, StandsFor e.details d ∧ (taggedShape Value.isHoldable d).Varies (taggedWith e.kind d) w

variable {e e' : VmError} {w : Value} {text : String}

/-! ### The same kind, the same tag -/

theorem getElem?_kinds (e : VmError) : kinds[e.ctorIdx]? = some e.kind := by cases e <;> rfl

theorem getElem?_tags (e : VmError) : tags[e.ctorIdx]? = some e.tag := by cases e <;> rfl

/-- Of distinct names, two are the same if and only if they stand at the same place. -/
theorem eq_iff_of_getElem? {names : List String} {i j : Nat} {a b : String}
    (distinct : names.Nodup) (ha : names[i]? = some a) (hb : names[j]? = some b) :
    a = b ↔ i = j := by
  obtain ⟨hi, _⟩ := List.getElem?_eq_some_iff.1 ha
  rw [← List.getElem?_inj hi distinct, ha, hb, Option.some.injEq]

theorem kind_eq_kind_iff : e.kind = e'.kind ↔ e.ctorIdx = e'.ctorIdx :=
  eq_iff_of_getElem? (by decide) (getElem?_kinds e) (getElem?_kinds e')

theorem tag_eq_tag_iff : e.tag = e'.tag ↔ e.ctorIdx = e'.ctorIdx :=
  eq_iff_of_getElem? (by decide) (getElem?_tags e) (getElem?_tags e')

/-! ### Kinds that are tags -/

theorem kind_configuration_notMem_tags (reason : String) : (configuration reason).kind ∉ tags := by
  show "configuration_error" ∉ tags
  decide

theorem tag_mem_tags (e : VmError) : e.tag ∈ tags := List.mem_of_getElem? (getElem?_tags e)

theorem kind_eq_tag_iff : e.kind = e.tag ↔ ∀ reason, e ≠ configuration reason := by
  constructor
  · rintro h reason rfl
    exact kind_configuration_notMem_tags reason (h ▸ tag_mem_tags _)
  · intro h
    cases e with
    | configuration reason => exact absurd rfl (h reason)
    | _ => rfl

/-! ### What is read of what is kept -/

theorem kept_eq (e : VmError) : e.kept = taggedWith e.kind e.details := by
  cases e <;> rfl

theorem keeps_kept (fits : e.Fits) : e.Keeps e.kept := by
  refine ⟨e.details, .self _, ?_⟩
  rw [kept_eq]
  exact varies_taggedWith_self _ _ (flat_details fits)

/-- What is kept of an error that is not about the configuration is a spelling of what the error is
written as, and is read. -/
theorem decode_of_keeps (fits : e.Fits) (h : e.Keeps w) (htext : parse? text = some w)
    (hkind : e.kind = e.tag) : decode ofJson? text = some e := by
  obtain ⟨d, hd, hw⟩ := h
  rw [hkind] at hw
  exact (tagging.legible toJson_eq).held e d w fits hd hw text htext

/-- What is kept of an error about the configuration has a tag that is not known. -/
theorem decode_of_keeps_configuration {reason : String} (h : (configuration reason).Keeps w)
    (htext : parse? text = some w) : decode ofJson? text = none := by
  obtain ⟨d, hd, hw⟩ := h
  have hflat : Flat d := hd.flat (flat_details (e := configuration reason) trivial)
  obtain ⟨a, ha, _⟩ := tagged_of_varies hw (.inr ⟨rfl, hflat⟩)
  have hread : ofTag? (configuration reason).kind a = none := by
    rw [Option.eq_none_iff_forall_ne_some]
    exact fun _ hsome => kind_configuration_notMem_tags reason (mem_tags_of_ofTag? hsome)
  rw [decode, htext, Option.bind_some, ofJson?, ha]
  exact hread

/-- An error is rebuilt from its kind and its details, in whatever spelling, if and only if it is
not about the configuration; if it is, nothing is read at all. Errors that are reported as of the
same kind, or written with the same tag, have the same cause. -/
theorem restored_iff (fits : e.Fits) :
    e.Keeps e.kept ∧
      (∀ w text, e.Keeps w → parse? text = some w →
        (decode ofJson? text = some e ↔ ∀ reason, e ≠ configuration reason) ∧
        (decode ofJson? text = none ↔ ∃ reason, e = configuration reason)) ∧
      ∀ e' : VmError, (e.kind = e'.kind ↔ e.ctorIdx = e'.ctorIdx) ∧
        (e.tag = e'.tag ↔ e.ctorIdx = e'.ctorIdx) := by
  refine ⟨keeps_kept fits, fun w text h htext => ?_, fun e' => ⟨kind_eq_kind_iff, tag_eq_tag_iff⟩⟩
  by_cases hconfiguration : ∃ reason, e = configuration reason
  · obtain ⟨reason, rfl⟩ := hconfiguration
    rw [decode_of_keeps_configuration h htext]
    simp
  · rw [not_exists] at hconfiguration
    rw [decode_of_keeps fits h htext (kind_eq_tag_iff.2 hconfiguration)]
    simp [hconfiguration]

/-- What is kept of the failure of a launch, with all members in the order of their names: the
details come before the kind. -/
def sortedLaunch : Value :=
  .record [("details", .record [("reason", .text "busy"), ("slot", .nat 1)]),
    ("error_type", .text "launch_error")]

theorem keeps_sortedLaunch : (launch 1 "busy").Keeps sortedLaunch := by
  have hdetails : (detailsShape Value.isHoldable (launch 1 "busy").details).Varies
      (.record [("slot", .nat 1), ("reason", .text "busy")])
      (.record [("reason", .text "busy"), ("slot", .nat 1)]) :=
    varies_of_perm (.cons (by simp) (.plain _) (.cons (by simp) (.plain _) .nil)) (.swap _ _ [])
  exact ⟨_, .self _, varies_of_perm
    (.cons (by simp) (.plain _) (.cons (by simp) hdetails .nil)) (.swap _ _ [])⟩

theorem restored_iff_sortedLaunch : (launch 1 "busy").Fits ∧ (launch 1 "busy").Keeps sortedLaunch ∧
    decode ofJson? (launch 1 "busy").kept.compact = some (launch 1 "busy") ∧
    decode ofJson? sortedLaunch.compact = some (launch 1 "busy") := by
  have hfits : (launch 1 "busy").Fits := (by decide : IsWord 1)
  obtain ⟨hkept, hread, _⟩ := restored_iff hfits
  refine ⟨hfits, keeps_sortedLaunch, ?_, ?_⟩
  · exact (hread _ _ hkept (parse?_compact _)).1.2 (by simp)
  · exact (hread _ _ keeps_sortedLaunch (parse?_compact _)).1.2 (by simp)

/-- Not every error can be rebuilt from its kind and its details. -/
theorem not_always_restored :
    ¬ ∀ e : VmError, e.Fits → decode ofJson? e.kept.compact = some e := by
  intro h
  have hread := h (configuration "images must be in 1..=1024, got 0") trivial
  rw [decode_of_keeps_configuration (keeps_kept trivial) (parse?_compact _)] at hread
  cases hread

end VmError

end VirtualTopology
