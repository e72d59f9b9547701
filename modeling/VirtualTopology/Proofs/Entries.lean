import Mathlib.Data.List.Forall2
import VirtualTopology.Session.Run

/-!
# The entries of the PETs of a launch

The PETs of a launch go through their phases in turns, and between two phases of one PET the others
may do whatever they like to the world. What one of them came to is told all the same by its own
phases: each is gone through once, in order, from the objects that the phase before it left, until
the last one or a panic.

## Main definitions

- `Runner.Entry`: how the entry of a PET ends.
- `Kids.Becomes`: what the children of a launch may have become.

## Main statements

- `Runner.Ran.of_runPhases`: after a release every PET that was let in has run its entry.
-/

namespace VirtualTopology

/-! ### Ends and outcomes -/

namespace EntryEnd

variable {ρ : Type}

/-- The end of an entry that was run. -/
def ofRun : Except PanicPayload ρ → EntryEnd ρ
  | .ok value => .returned value
  | .error payload => .panicked payload

end EntryEnd

namespace ChildOutcome

variable {ρ : Type} {o : ChildOutcome ρ} {pet : Nat}

end ChildOutcome

namespace Session

/-- Where the entry of a PET is run. -/
def PetRun.frame (cargo : Json.Value) (p : PetRun) : Frame :=
  ⟨p.context, some (p.slot, p.handle.localPet, cargo)⟩

/-- Phases that are run one after the other in a frame, from the objects of a scope and in whatever
worlds they find, end with the answers of all of them or with the panic of one. The turns are what was
run: one for every phase up to the last or a panic. -/
inductive Runner.Entry (inner : Runner) (frame : Frame) :
    List (List Step) → Scope → List Turn → Except PanicPayload (List (List Answer)) → Prop
  | finished (scope : Scope) : Entry inner frame [] scope [] (.ok [])
  | panics {phase phases scope w answers payload s}
      (run : inner.steps frame phase ⟨scope, w⟩ = ((answers, some payload), s)) :
      Entry inner frame (phase :: phases) scope
        [⟨frame, phase, scope, answers, some payload, s.scope⟩] (.error payload)
  | goesOn {phase phases scope w answers s turns ended}
      (run : inner.steps frame phase ⟨scope, w⟩ = ((answers, none), s))
      (rest : Entry inner frame phases s.scope turns ended) :
      Entry inner frame (phase :: phases) scope
        (⟨frame, phase, scope, answers, none, s.scope⟩ :: turns) (ended.map (answers :: ·))

namespace Runner.Entry

variable {inner : Runner} {frame : Frame} {phases : List (List Step)} {scope : Scope}
  {turns : List Turn} {ended : Except PanicPayload (List (List Answer))}
  {value : List (List Answer)} {payload : PanicPayload}

theorem frame_eq (h : inner.Entry frame phases scope turns ended) : ∀ t ∈ turns, t.frame = frame := by
  induction h with
  | finished => exact fun _ ht => nomatch ht
  | panics => simp
  | goesOn _ _ ih => exact List.forall_mem_cons.2 ⟨rfl, ih⟩

/-- An entry that returns has run all of its phases, and returns what they answered. -/
theorem of_ok (h : inner.Entry frame phases scope turns (.ok value)) :
    turns.map Turn.phase = phases ∧ turns.map Turn.answers = value ∧
      ∀ t ∈ turns, t.panicked = none := by
  generalize hended : Except.ok value = ended at h
  induction h generalizing value with
  | finished =>
    obtain rfl := Except.ok.inj hended
    simp
  | panics => cases hended
  | @goesOn _ _ _ _ answers _ turns ended _ _ ih =>
    cases ended with
    | error payload => cases hended
    | ok rest =>
      obtain rfl : value = answers :: rest := Except.ok.inj hended
      obtain ⟨hphases, hanswers, hnone⟩ := ih rfl
      refine ⟨?_, ?_, List.forall_mem_cons.2 ⟨rfl, hnone⟩⟩
      · rw [List.map_cons, hphases]
      · rw [List.map_cons, hanswers]

/-- An entry that panics has run its phases up to the one that panicked, and none after it. -/
theorem of_error (h : inner.Entry frame phases scope turns (.error payload)) :
    ∃ done last rest, turns = done ++ [last] ∧ last.panicked = some payload ∧
      phases = done.map Turn.phase ++ last.phase :: rest ∧ ∀ t ∈ done, t.panicked = none := by
  generalize hended : Except.error payload = ended at h
  induction h generalizing payload with
  | finished => cases hended
  | @panics _ phases =>
    obtain rfl := Except.error.inj hended
    exact ⟨[], _, phases, rfl, rfl, rfl, fun _ ht => nomatch ht⟩
  | @goesOn phase _ _ _ _ _ turns ended _ _ ih =>
    cases ended with
    | ok value => cases hended
    | error payload' =>
      obtain rfl : payload = payload' := Except.error.inj hended
      obtain ⟨done, last, rest, rfl, hlast, rfl, hnone⟩ := ih rfl
      exact ⟨_ :: done, last, rest, rfl, hlast, rfl, List.forall_mem_cons.2 ⟨rfl, hnone⟩⟩

end Runner.Entry

/-! ### One PET -/

variable {inner : Runner} {cargo : Json.Value} {phase : List Step} {phases : List (List Step)}
  {p p' : PetRun} {pets pets' : List PetRun} {w : World}

/-- What became of a PET by some phases. -/
structure Runner.Ran (inner : Runner) (cargo : Json.Value) (phases : List (List Step))
    (p p' : PetRun) : Prop where
  slot : p'.slot = p.slot
  handle : p'.handle = p.handle
  idle : p.goesOn = false → p' = p
  ending : p.goesOn = true → ∃ turns ended,
    inner.Entry (p.frame cargo) phases p.scope turns ended ∧
    p'.turns = p.turns ++ turns ∧ p'.ending = .ofRun (ended.map (p.phases ++ ·))

theorem PetRun.goesOn_eq_true_iff : p.goesOn = true ↔ p.letIn = true ∧ p.panicked = none := by
  simp [goesOn]

theorem runPet_of_not_goesOn (h : p.goesOn = false) : runPet inner cargo phase p w = (p, w) := by
  simp [runPet, h]

/-- A phase of a PET that goes on. -/
theorem runPet_of_goesOn (h : p.goesOn = true) : runPet inner cargo phase p w =
    match inner.steps (p.frame cargo) phase ⟨p.scope, w⟩ with
    | ((answers, none), s) =>
      ({ p with
        scope := s.scope
        turns := p.turns ++ [⟨p.frame cargo, phase, p.scope, answers, none, s.scope⟩]
        phases := p.phases ++ [answers] }, s.world)
    | ((answers, some payload), s) =>
      ({ p with
        scope := ∅
        turns := p.turns ++ [⟨p.frame cargo, phase, p.scope, answers, some payload, s.scope⟩]
        panicked := some payload },
        (dropScope inner s.scope s.world).forget p.context) := by
  rw [runPet, if_pos h]
  rfl

namespace Runner.Ran

theorem context_eq (h : inner.Ran cargo phases p p') : p'.context = p.context :=
  congrArg VmHandle.context h.handle

/-- What a PET has done it did in its own context. -/
theorem own (h : inner.Ran cargo phases p p') (idle : p.turns = []) :
    ∀ t ∈ p'.turns, t.frame.context = p'.context := by
  intro t ht
  cases hgoes : p.goesOn with
  | false =>
    rw [h.idle hgoes, idle] at ht
    cases ht
  | true =>
    obtain ⟨turns, _, hentry, hturns, _⟩ := h.ending hgoes
    rw [hturns, idle, List.nil_append] at ht
    rw [hentry.frame_eq t ht, h.context_eq]
    rfl

theorem nil (p : PetRun) : inner.Ran cargo [] p p where
  slot := rfl
  handle := rfl
  idle _ := rfl
  ending h := by
    obtain ⟨hlet, hpanicked⟩ := PetRun.goesOn_eq_true_iff.1 h
    refine ⟨[], .ok [], .finished _, (List.append_nil _).symm, ?_⟩
    simp [PetRun.ending, hlet, hpanicked, EntryEnd.ofRun, Except.map]

/-- A phase before the others. -/
theorem cons (h : inner.Ran cargo phases (runPet inner cargo phase p w).1 p') :
    inner.Ran cargo (phase :: phases) p p' := by
  cases hp : p.goesOn with
  | false =>
    rw [runPet_of_not_goesOn hp] at h
    exact ⟨h.slot, h.handle, h.idle, fun hgoes => nomatch hp.symm.trans hgoes⟩
  | true =>
    obtain ⟨hlet, hpanicked⟩ := PetRun.goesOn_eq_true_iff.1 hp
    rw [runPet_of_goesOn hp] at h
    rcases hrun : inner.steps (p.frame cargo) phase ⟨p.scope, w⟩ with ⟨⟨answers, _ | payload⟩, s⟩
    · rw [hrun] at h
      refine ⟨h.slot, h.handle, (fun hgoes => nomatch hp.symm.trans hgoes), fun _ => ?_⟩
      obtain ⟨turns, ended, hentry, hturns, hending⟩ :=
        h.ending (PetRun.goesOn_eq_true_iff.2 ⟨hlet, hpanicked⟩)
      refine ⟨_, _, .goesOn hrun hentry, ?_, hending.trans (congrArg EntryEnd.ofRun ?_)⟩
      · rw [hturns, List.append_assoc, List.singleton_append]
      · cases ended <;> simp [Except.map]
    · -- What is left of the phases is not gone through.
      rw [hrun] at h
      refine ⟨h.slot, h.handle, (fun hgoes => nomatch hp.symm.trans hgoes), fun _ => ?_⟩
      rw [h.idle (by simp [PetRun.goesOn])]
      exact ⟨_, .error payload, .panics hrun, rfl, by
        simp [PetRun.ending, hlet, EntryEnd.ofRun, Except.map]⟩

/-! ### All PETs -/

theorem of_runPhase
    (h : List.Forall₂ (inner.Ran cargo phases) (runPhase inner cargo phase pets w).1 pets') :
    List.Forall₂ (inner.Ran cargo (phase :: phases)) pets pets' := by
  induction pets generalizing w pets' with
  | nil => cases h; exact .nil
  | cons pet pets ih =>
    obtain ⟨first, rest, hfirst, hrest, rfl⟩ := List.forall₂_cons_left_iff.1 h
    exact .cons hfirst.cons (ih hrest)

/-- Every PET goes through all phases, whatever the others do in between. -/
theorem of_runPhases (inner : Runner) (cargo : Json.Value) (phases : List (List Step))
    (pets : List PetRun) (w : World) : List.Forall₂ (inner.Ran cargo phases) pets
      (runPhases inner cargo phases pets w).1 := by
  induction phases generalizing pets w with
  | nil => exact List.forall₂_same.2 fun p _ => nil p
  | cons phase phases ih => exact of_runPhase (ih _ _)

theorem contexts_eq (h : List.Forall₂ (inner.Ran cargo phases) pets pets') :
    pets'.map PetRun.context = pets.map PetRun.context := by
  induction h with
  | nil => rfl
  | cons hp _ ih => rw [List.map_cons, List.map_cons, hp.context_eq, ih]

theorem own_of_forall₂ (h : List.Forall₂ (inner.Ran cargo phases) pets pets')
    (idle : ∀ p ∈ pets, p.turns = []) : ∀ p ∈ pets', ∀ t ∈ p.turns, t.frame.context = p.context := by
  induction h with
  | nil => exact fun _ hp => nomatch hp
  | cons hp _ ih =>
    obtain ⟨hidle, hrest⟩ := List.forall_mem_cons.1 idle
    exact List.forall_mem_cons.2 ⟨hp.own hidle, ih hrest⟩

end Runner.Ran

/-! ### The children of a launch -/

/-- What the children of a launch may have become before they are ended: the same, or children whose
PETs have run their entries, by a runner with `enough` levels at least. -/
inductive Kids.Becomes (enough : Nat) (k : Kids) : Kids → Prop
  | rest : Becomes enough k k
  | released {n pets} (levels : enough ≤ n) (unreleased : k.released = false)
      (ran : List.Forall₂ ((Runner.levels n).Ran k.cargo k.entry) k.pets pets) :
      Becomes enough k { k with pets, released := true }

namespace Kids.Becomes

variable {enough enough' : Nat} {k k' k'' : Kids}

theorem mono (hle : enough' ≤ enough) : k.Becomes enough k' → k.Becomes enough' k'
  | rest => rest
  | released levels unreleased ran => released (Nat.le_trans hle levels) unreleased ran

theorem trans (h : k.Becomes enough k') (h' : k'.Becomes enough k'') : k.Becomes enough k'' := by
  cases h with
  | rest => exact h'
  | released levels unreleased ran =>
    cases h' with
    | rest => exact .released levels unreleased ran
    | released _ again => cases again

end Kids.Becomes

end Session

end VirtualTopology
