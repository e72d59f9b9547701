import VirtualTopology.Spawn.Policy
import VirtualTopology.Vm.Basic

/-!
# Spawn plans

A plan cuts the processing elements of a VM into contiguous parts of nearly equal size, one for
each child to be.

## Main definitions

- `ChildState`: the life of a child.
- `Partition`, `ChildSlot`: the part of one child, and its state.
- `SpawnPlan.build`: the plan for a number of children.
-/

namespace VirtualTopology

/-- The life of a child VM. -/
inductive ChildState where
  /-- Its processing elements are set apart in a plan. -/
  | planned
  /-- The VM is built and holds its processing elements. -/
  | created
  /-- All of its PETs were launched. -/
  | running
  /-- Its processing elements went back to the parent. -/
  | retired
deriving DecidableEq, Repr, Inhabited

/-- The name of a state in descriptions. -/
def ChildState.label : ChildState → String
  | planned => "Planned"
  | created => "Created"
  | running => "Running"
  | retired => "Retired"

/-- The name of a state in reports. -/
def ChildState.name : ChildState → String
  | planned => "planned"
  | created => "created"
  | running => "running"
  | retired => "retired"

/-- The processing elements set apart for one child. -/
structure Partition where
  slot : Nat
  pes : List Pe
deriving DecidableEq, Repr, Inhabited

def Partition.peCount (p : Partition) : Nat := p.pes.length

/-- A place for a child in a plan. -/
structure ChildSlot where
  partition : Partition
  state : ChildState := .planned
deriving DecidableEq, Repr, Inhabited

/-- A plan for the children of a VM. -/
structure SpawnPlan where
  parent : VmHandle
  policy : SpawnPolicy
  slots : List ChildSlot
deriving DecidableEq, Repr, Inhabited

namespace SpawnPlan

/-- Cuts a list into `count` parts from `slot` on, of `base` elements and one more in the slots
below `extra`. -/
def cut (base extra : Nat) : (count slot : Nat) → List Pe → List Partition
  | 0, _, _ => []
  | count + 1, slot, pes =>
    let size := base + if slot < extra then 1 else 0
    ⟨slot, pes.take size⟩ :: cut base extra count (slot + 1) (pes.drop size)

@[simp] theorem length_cut (base extra count slot : Nat) (pes : List Pe) :
    (cut base extra count slot pes).length = count := by
  induction count generalizing slot pes with
  | zero => rfl
  | succ count ih => simp [cut, ih]

/-- Parts are numbered from `slot` on. -/
theorem map_slot_cut (base extra count slot : Nat) (pes : List Pe) :
    (cut base extra count slot pes).map Partition.slot = List.range' slot count := by
  induction count generalizing slot pes with
  | zero => rfl
  | succ count ih => simp [cut, ih, List.range'_succ]

/-- The plan for `count` children of a VM. -/
def build (parent : VmHandle) (count : Nat) (policy : SpawnPolicy) : Except VmError SpawnPlan :=
  if count = 0 then .error (.invalidSpawnCount count)
  else
    let pes := parent.vm.pes
    if pes.length < count then .error (.insufficientResources count pes.length)
    else
      let parts := cut (pes.length / count) (pes.length % count) count 0 pes
      .ok ⟨parent, policy, parts.map fun part => { partition := part }⟩

/-- A plan as `build` makes it. -/
def IsBuilt (p : SpawnPlan) : Prop := ∃ count, build p.parent count p.policy = .ok p

theorem IsBuilt.of_build {parent : VmHandle} {count : Nat} {policy : SpawnPolicy} {p : SpawnPlan}
    (h : build parent count policy = .ok p) : p.IsBuilt := by
  have hp : p.parent = parent ∧ p.policy = policy := by
    unfold build at h
    dsimp only at h
    split at h
    · cases h
    · split at h
      · cases h
      · obtain rfl := Except.ok.inj h
        exact ⟨rfl, rfl⟩
  exact ⟨count, by rw [hp.1, hp.2, h]⟩

/-- The number of children. -/
def childCount (p : SpawnPlan) : Nat := p.slots.length

/-- The parts in slot order. -/
def partitions (p : SpawnPlan) : List Partition := p.slots.map ChildSlot.partition

/-- The part of a slot. -/
def partition? (p : SpawnPlan) (slot : Nat) : Option Partition :=
  p.slots[slot]?.map ChildSlot.partition

/-- The state of a slot. -/
def state? (p : SpawnPlan) (slot : Nat) : Option ChildState := p.slots[slot]?.map ChildSlot.state

/-- The number of PETs that the child of a slot will have. -/
def childPetCount? (p : SpawnPlan) (slot : Nat) : Option Nat :=
  (p.partition? slot).map fun part => (p.policy.petGroups part.pes).length

/-- The number of processing elements that the plan covers. -/
def totalPes (p : SpawnPlan) : Nat := (p.slots.map (·.partition.peCount)).foldr (· + ·) 0

/-- The description of a processing element. -/
def describePe (pe : Pe) : String :=
  Text.record "PeId" [("image", toString pe.image), ("core", toString pe.core)]

/-- The description of a slot. -/
def describeSlot (s : ChildSlot) : String :=
  Text.record "ChildSlot"
    [("partition", Text.record "Partition"
      [("slot", toString s.partition.slot), ("pes", Text.list (s.partition.pes.map describePe))]),
     ("state", s.state.label)]

/-- The description of a plan. -/
def describe (p : SpawnPlan) : String :=
  Text.record "SpawnPlan"
    [("parent", p.parent.describe), ("policy", p.policy.label),
     ("slots", Text.list (p.slots.map describeSlot))]

end SpawnPlan

end VirtualTopology
