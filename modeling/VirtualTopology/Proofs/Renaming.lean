import Mathlib.Logic.Function.Basic
import VirtualTopology.Proofs.Stage

/-!
# Renaming VMs and threads

The ids of VMs and the numbers of threads are given out by the process, one after the other, and
nothing but whether two of them are equal matters to a registry. So an injective renaming of both can
be carried through all that registries keep and answer: it changes the ids and numbers, and the texts
that mention them, and nothing else.

## Main definitions

- `Renaming`: other ids for VMs, and other numbers for threads.
- `ExecutionContext.rename`, `Vm.rename`, `Owners.rename`, `Registry.rename` and so on: what things
  become when ids are renamed.
- `VmError.Renamed`: an error, and the same error with ids renamed.

## Main statements

- `Owners.claim_rename`, `Owners.release_rename`: ownership goes over into ownership.
- `Bindings.current?_rename`: so do the current VMs of contexts.
- `SpawnPlan.build_rename`: so do plans.
-/

namespace VirtualTopology

/-- Other ids for VMs and other numbers for threads, such that what was told apart still is. -/
structure Renaming where
  vm : Nat → Nat
  thread : Nat → Nat
  vm_injective : Function.Injective vm
  thread_injective : Function.Injective thread

/-! ### Things with ids -/

section Things

variable {σ τ : Type} (f : Renaming)

/-- The thread of a PET goes by the id of the VM, others by their numbers. -/
def ExecutionContext.rename : ExecutionContext → ExecutionContext
  | main => main
  | pet vm number => pet (f.vm vm) number
  | thread number name => thread (f.thread number) name

def Vm.rename (vm : Vm) : Vm := { vm with id := f.vm vm.id, parent := vm.parent.map f.vm }

def VmHandle.rename (h : VmHandle) : VmHandle := { h with vm := h.vm.rename f }

def Binding.rename (b : Binding) : Binding :=
  { b with context := b.context.rename f, handle := b.handle.rename f }

def Owners.rename (o : Owners) : Owners := o.map (Prod.map id f.vm)

def ClaimRefusal.rename : ClaimRefusal → ClaimRefusal
  | held pe owner => held pe (f.vm owner)
  | unknown pe => unknown pe

def LaunchFault.rename : LaunchFault → LaunchFault
  | wrongCaller caller planned => wrongCaller (f.vm caller) (f.vm planned)
  | tooDeep depth => tooDeep depth
  | claim refusal => claim (refusal.rename f)
  | transport e => transport e
  | thread reason => thread reason

def ChildRecord.rename (r : ChildRecord) : ChildRecord :=
  { r with vm := f.vm r.vm, parent := f.vm r.parent }

def LaunchedChild.rename (c : LaunchedChild) : LaunchedChild := { c with vm := c.vm.rename f }

def LaunchedPet.rename (p : LaunchedPet) : LaunchedPet := { p with handle := p.handle.rename f }

def Spawned.rename (s : Spawned) : Spawned :=
  { s with children := s.children.map (LaunchedChild.rename f) }

def SpawnPlan.rename (p : SpawnPlan) : SpawnPlan := { p with parent := p.parent.rename f }

/-- A registry with ids renamed, over a transport that may be another. -/
def Registry.rename (t : Transport τ) (r : Registry σ) : Registry τ where
  id := r.id
  transport := t
  config := r.config
  detected := r.detected
  state := r.state
  generation := r.generation
  global := r.global.map (VmHandle.rename f)
  topology := r.topology
  owners := Owners.rename f r.owners
  children := r.children.map (ChildRecord.rename f)

/-- What a host has for a PET is found under the new id of its VM; whoever goes by no new id gets a
thread. -/
noncomputable def ThreadHost.rename (host : ThreadHost) : ThreadHost :=
  Function.extend (ExecutionContext.rename f) host ThreadHost.ample

/-- The errors that can tell of VMs, and the same errors with ids renamed. The context that is
without a VM can be no other than the caller. -/
inductive VmError.Renamed (caller : ExecutionContext) : VmError → VmError → Prop
  | alreadyInitialized (global : Nat) :
      Renamed caller (.alreadyInitialized global) (.alreadyInitialized (f.vm global))
  | noContext : Renamed caller (.noContext caller.label) (.noContext (caller.rename f).label)
  | launch (slot : Nat) (fault : LaunchFault) :
      Renamed caller (fault.toVmError slot) ((fault.rename f).toVmError slot)
  | notInitialized : Renamed caller .notInitialized .notInitialized
  | transportInit (reason : String) :
      Renamed caller (.transportInit reason) (.transportInit reason)
  | outstandingChildren (count : Nat) :
      Renamed caller (.outstandingChildren count) (.outstandingChildren count)
  | configuration (reason : String) :
      Renamed caller (.configuration reason) (.configuration reason)

/-- Answers to a caller that are the same but for the ids of VMs: both are given, or both are
refused for the same reason. -/
inductive Answers {α : Type} (caller : ExecutionContext) (rename : α → α) :
    Except VmError α → Except VmError α → Prop
  | ok (a : α) : Answers caller rename (.ok a) (.ok (rename a))
  | error {e e' : VmError} (h : e.Renamed f caller e') :
      Answers caller rename (.error e) (.error e')

end Things

section Answers

variable {f : Renaming} {α : Type} {caller : ExecutionContext} {rename : α → α} {a : α}
  {e : VmError} {r : Except VmError α}

theorem Answers.of_ok (h : Answers f caller rename (.ok a) r) : r = .ok (rename a) := by
  cases h
  rfl

theorem Answers.of_error (h : Answers f caller rename (.error e) r) :
    ∃ e', r = .error e' ∧ e.Renamed f caller e' := by
  cases h with
  | error h => exact ⟨_, rfl, h⟩

theorem Answers.toOption_eq {r' : Except VmError α} (h : Answers f caller rename r r') :
    r'.toOption = r.toOption.map rename := by
  cases h <;> rfl

end Answers

/-! ### Parts of what is renamed -/

section Parts

variable {σ τ : Type} {f : Renaming}

theorem ExecutionContext.child?_rename (c : ExecutionContext) :
    (c.rename f).child? = c.child?.map f.vm := by
  cases c <;> rfl

theorem LaunchedChild.pets_rename (c : LaunchedChild) :
    (c.rename f).pets = c.pets.map (LaunchedPet.rename f) := by
  rw [pets, pets, List.map_map]
  rfl

theorem LaunchedChild.flatMap_pets_rename (children : List LaunchedChild) :
    (children.map (rename f)).flatMap pets = (children.flatMap pets).map (LaunchedPet.rename f) := by
  rw [List.flatMap_map, List.map_flatMap]
  exact List.flatMap_congr fun c _ => c.pets_rename

theorem Spawned.vmIds_rename (s : Spawned) : (s.rename f).vmIds = s.vmIds.map f.vm := by
  simp [vmIds, rename, LaunchedChild.rename, Vm.rename, Function.comp_def]

/-- A plan depends on what a VM has, not on what it is called. -/
theorem SpawnPlan.build_rename (h : VmHandle) (count : Nat) (policy : SpawnPolicy) :
    build (h.rename f) count policy = (build h count policy).map (SpawnPlan.rename f) := by
  unfold build
  split
  · rfl
  · dsimp only
    show (if h.vm.pes.length < count then _ else _) = _
    split <;> rfl

theorem Registry.isUp_rename (t : Transport τ) (r : Registry σ) :
    (r.rename f t).isUp = r.isUp := by
  simp [Registry.rename, isUp]

theorem Registry.outstanding_rename (t : Transport τ) (r : Registry σ) :
    (r.rename f t).outstanding = r.outstanding := by
  simp [Registry.rename, outstanding]

end Parts

/-! ### Different ids stay different -/

section Injective

variable {σ τ : Type} {f : Renaming}

theorem ExecutionContext.rename_injective : Function.Injective (ExecutionContext.rename f) := by
  intro c c' h
  cases c <;> cases c' <;>
    simp_all [ExecutionContext.rename, f.vm_injective.eq_iff, f.thread_injective.eq_iff]

theorem ExecutionContext.decide_rename_eq (c c' : ExecutionContext) :
    decide (c.rename f = c'.rename f) = decide (c = c') :=
  decide_eq_decide.2 rename_injective.eq_iff

theorem ThreadHost.rename_apply (host : ThreadHost) (c : ExecutionContext) :
    host.rename f (c.rename f) = host c :=
  ExecutionContext.rename_injective.extend_apply host ThreadHost.ample c

theorem VmHandle.sameVm_rename (a b : VmHandle) :
    (a.rename f).sameVm (b.rename f) = a.sameVm b := by
  rw [Bool.eq_iff_iff]
  simp [sameVm, VmHandle.rename, Vm.rename, f.vm_injective.eq_iff]

/-! ### Ownership -/

namespace Owners

theorem owner?_rename (o : Owners) (pe : Pe) : (rename f o).owner? pe = (o.owner? pe).map f.vm := by
  induction o with
  | nil => rfl
  | cons entry o ih =>
    obtain ⟨p, v⟩ := entry
    simp only [rename, owner?, List.map_cons, Prod.map_apply, id_eq, List.lookup_cons] at ih ⊢
    split
    · rfl
    · exact ih

theorem assign_rename (o : Owners) (pe : Pe) (vm : Nat) :
    (rename f o).assign pe (f.vm vm) = rename f (o.assign pe vm) := by
  rw [assign, assign, rename, rename, List.map_map, List.map_map]
  apply List.map_congr_left
  intro entry _
  by_cases h : entry.1 = pe <;> simp [h]

theorem giveBack_rename (child parent : Nat) (o : Owners) (pe : Pe) :
    giveBack (f.vm child) (f.vm parent) (rename f o) pe = rename f (giveBack child parent o pe) := by
  have hheld : (rename f o).owner? pe = some (f.vm child) ↔ o.owner? pe = some child := by
    rw [owner?_rename]
    exact (Option.map_injective f.vm_injective).eq_iff' rfl
  unfold giveBack
  by_cases h : o.owner? pe = some child
  · rw [if_pos h, if_pos (hheld.2 h), assign_rename]
  · rw [if_neg h, if_neg fun h' => h (hheld.1 h')]

theorem release_rename (child parent : Nat) (pes : List Pe) (o : Owners) :
    (rename f o).release (f.vm child) (f.vm parent) pes = rename f (o.release child parent pes) := by
  induction pes generalizing o with
  | nil => rfl
  | cons pe pes ih =>
    show Owners.release _ _ pes (giveBack (f.vm child) (f.vm parent) (rename f o) pe) = _
    rw [giveBack_rename, ih]
    rfl

theorem claimFrom_rename (parent child : Nat) (taken pes : List Pe) (o : Owners) :
    claimFrom (f.vm parent) (f.vm child) taken pes (rename f o) =
      ((claimFrom parent child taken pes o).1.mapError (ClaimRefusal.rename f),
        rename f (claimFrom parent child taken pes o).2) := by
  induction pes generalizing taken o with
  | nil => rfl
  | cons pe pes ih =>
    rw [claimFrom, claimFrom, owner?_rename]
    cases howner : o.owner? pe with
    | none =>
      show (_, _) = (_, _)
      rw [release_rename]
      rfl
    | some owner =>
      simp only [Option.map_some, f.vm_injective.eq_iff]
      split
      · rw [assign_rename, ih]
      · rw [release_rename]
        rfl

/-- A claim is granted under new names exactly if it is granted under the old ones. -/
theorem claim_rename (parent child : Nat) (pes : List Pe) (o : Owners) :
    claim (f.vm parent) (f.vm child) pes (rename f o) =
      ((claim parent child pes o).1.mapError (ClaimRefusal.rename f),
        rename f (claim parent child pes o).2) :=
  claimFrom_rename parent child [] pes o

end Owners

/-! ### Children -/

theorem Registry.child?_rename (t : Transport τ) (r : Registry σ) (vm : Nat) :
    (r.rename f t).child? (f.vm vm) = (r.child? vm).map (ChildRecord.rename f) := by
  rw [child?, child?, Registry.rename, List.find?_map]
  congr 2
  funext x
  rw [Bool.eq_iff_iff]
  simp [ChildRecord.rename, f.vm_injective.eq_iff]

theorem ChildRecord.reparent_rename (vm parent : Nat) (r : ChildRecord) :
    (r.rename f).reparent (f.vm vm) (f.vm parent) = (r.reparent vm parent).rename f := by
  by_cases h : r.parent = vm <;> simp [ChildRecord.reparent, ChildRecord.rename, f.vm_injective.eq_iff, h]

/-- The records that are left when a child goes. -/
theorem ChildRecord.filter_reparent_rename (vm parent : Nat) (records : List ChildRecord) :
    (((records.map (ChildRecord.rename f)).filter (·.vm != f.vm vm)).map
        (reparent (f.vm vm) (f.vm parent))) =
      ((records.filter (·.vm != vm)).map (reparent vm parent)).map (ChildRecord.rename f) := by
  rw [List.filter_map, List.map_map, List.map_map]
  have hkeep : ((fun r : ChildRecord => r.vm != f.vm vm) ∘ ChildRecord.rename f) =
      fun r => r.vm != vm := by
    funext r
    rw [Bool.eq_iff_iff]
    simp [ChildRecord.rename, f.vm_injective.eq_iff]
  rw [hkeep]
  exact List.map_congr_left fun r _ => ChildRecord.reparent_rename vm parent r

/-! ### Bindings -/

namespace Bindings

theorem find_rename (b : Bindings) (c : ExecutionContext) (registry : Nat) :
    Bindings.find (b.map (Binding.rename f)) (c.rename f) registry =
      (b.find c registry).map (Binding.rename f) := by
  rw [find, find, List.find?_map]
  congr 2
  funext x
  exact congrArg (· && decide (x.registry = registry))
    (ExecutionContext.decide_rename_eq x.context c)

/-- A context is bound under its new name to what it was bound to. -/
theorem current?_rename (b : Bindings) (c : ExecutionContext) (registry generation : Nat) :
    Bindings.current? (b.map (Binding.rename f)) (c.rename f) registry generation =
      (b.current? c registry generation).map (VmHandle.rename f) := by
  rw [current?, current?, find_rename]
  cases b.find c registry with
  | none => rfl
  | some x =>
    by_cases h : x.generation = generation <;> simp [Binding.rename, Option.filter, h]

theorem unbind_rename (b : Bindings) (c : ExecutionContext) (registry : Nat) :
    Bindings.unbind (b.map (Binding.rename f)) (c.rename f) registry =
      (b.unbind c registry).map (Binding.rename f) := by
  rw [unbind, unbind, List.filter_map]
  congr 2
  funext x
  exact congrArg (fun own => !(own && decide (x.registry = registry)))
    (ExecutionContext.decide_rename_eq x.context c)

theorem forget_rename (b : Bindings) (c : ExecutionContext) :
    Bindings.forget (b.map (Binding.rename f)) (c.rename f) =
      (b.forget c).map (Binding.rename f) := by
  rw [forget, forget, List.filter_map]
  congr 2
  funext x
  rw [Bool.eq_iff_iff]
  simp [Binding.rename, ExecutionContext.rename_injective.eq_iff]

end Bindings

end Injective

end VirtualTopology
