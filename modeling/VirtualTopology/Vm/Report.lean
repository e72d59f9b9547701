import VirtualTopology.Vm.Basic

/-!
# Reports

Snapshots of PETs and VMs for diagnosis, meant to be written down and read back.

## Main definitions

- `PetReport`, `VmReport`.
- `VmHandle.report`: the report of a VM as one of its PETs gives it.
-/

namespace VirtualTopology

/-- A snapshot of a PET. -/
structure PetReport where
  pet : Nat
  placement : Placement
  pes : List Pe
deriving DecidableEq, Repr, Inhabited

/-- A snapshot of a VM. -/
structure VmReport where
  vm : Nat
  parent : Option Nat
  depth : Nat
  localPet : Nat
  petCount : Nat
  peCount : Nat
  threadCompat : Bool
  communicator : Nat
  pets : List PetReport
deriving DecidableEq, Repr, Inhabited

/-- The snapshot of a directory entry. -/
def PetRecord.report (r : PetRecord) : PetReport := ⟨r.pet, r.placement, r.pes⟩

/-- The snapshot of a VM from one of its PETs. -/
def VmHandle.report (h : VmHandle) : VmReport where
  vm := h.vm.id
  parent := h.vm.parent
  depth := h.vm.depth
  localPet := h.localPet
  petCount := h.vm.petCount
  peCount := h.vm.peCount
  threadCompat := h.vm.threadCompat
  communicator := h.vm.communicator.id
  pets := h.vm.pets.map PetRecord.report

end VirtualTopology
