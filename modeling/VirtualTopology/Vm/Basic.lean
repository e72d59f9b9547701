import Std.Data.TreeMap
import VirtualTopology.Topology
import VirtualTopology.Transport.Fabric
import VirtualTopology.Vm.Matching

/-!
# Virtual machines

A virtual machine (VM) is a directory of PETs with a communicator and a place in the spawn tree;
it never changes once built. Every PET has a handle of its own on its VM.

## Main definitions

- `Vm`, built from groups of processing elements by `Vm.ofGroups`, one PET for each group.
- `Vm.ofTopology`: the Global VM of a host, one PET for each processing element.
- `VmHandle`: a VM as one of its PETs sees it.
-/

namespace VirtualTopology

/-- A virtual machine. -/
structure Vm where
  id : Nat
  /-- The VM it was spawned from; none for a Global VM. -/
  parent : Option Nat
  /-- Its level in the spawn tree. -/
  depth : Nat
  pets : List PetRecord
  peCount : Nat
  /-- Whether threads within a PET are permitted. -/
  threadCompat : Bool
  communicator : Communicator
deriving DecidableEq, Repr, Inhabited

namespace Vm

/-- The processing element that decides where the PET of a group runs: its first. -/
def anchor (group : List Pe) : Pe := group.headD ⟨0, 0⟩

/-- How many groups are anchored on each image. -/
def groupsPerImage (groups : List (List Pe)) : Std.TreeMap Nat Nat :=
  groups.foldl (fun counts g => counts.alter (anchor g).image fun n => some (n.getD 0 + 1)) ∅

/-- The directory with one PET for each group, in order. -/
def directoryOf (groups : List (List Pe)) : List PetRecord :=
  let counts := groupsPerImage groups
  groups.mapIdx fun pet pes =>
    { pet, location := (anchor pes).location
      threadGroupSize := counts.getD (anchor pes).image 0, pes }

/-- A VM with one PET for each group; groups are not empty and have no element in common. -/
def ofGroups (id : Nat) (parent : Option Nat) (depth : Nat) (groups : List (List Pe))
    (threadCompat : Bool) (communicator : Communicator) : Vm :=
  let pets := directoryOf groups
  let peCount := (pets.map (·.pes.length)).foldr (· + ·) 0
  { id, parent, depth, pets, peCount, threadCompat, communicator }

/-- The Global VM of a host. -/
def ofTopology (id : Nat) (t : Topology) (world : Communicator) : Vm :=
  ofGroups id none 0 (t.pes.map fun pe => [pe]) t.threadCompat world

/-- The processing elements of a VM in PET order. -/
def pes (vm : Vm) : List Pe := vm.pets.flatMap PetRecord.pes

def petCount (vm : Vm) : Nat := vm.pets.length

/-- The directory of a VM, as it is matched against others. -/
def directory (vm : Vm) : PetDirectory := ⟨vm.id, vm.pets⟩

end Vm

/-- A VM as one of its PETs sees it. -/
structure VmHandle where
  vm : Vm
  localPet : Nat
deriving DecidableEq, Repr, Inhabited

namespace VmHandle

/-- A Global VM was not spawned. -/
def isGlobal (h : VmHandle) : Bool := h.vm.parent.isNone

/-- Whether two handles are on one VM; no two VMs of a process have one id. -/
def sameVm (a b : VmHandle) : Bool := a.vm.id == b.vm.id

/-- The endpoint of the handle's own PET. -/
def endpoint (h : VmHandle) : Except TransportError Endpoint :=
  h.vm.communicator.endpoint h.localPet

/-- The description of a handle. -/
def describe (h : VmHandle) : String :=
  Text.record "VirtualMachine"
    [("id", toString h.vm.id), ("parent", Text.option (h.vm.parent.map toString)),
     ("local_pet", toString h.localPet), ("pet_count", toString h.vm.petCount),
     ("pe_count", toString h.vm.peCount)]

end VmHandle

end VirtualTopology
