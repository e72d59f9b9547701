import VirtualTopology.Pe
import VirtualTopology.VmError

/-!
# PET directories

The directory of a virtual machine lists its PETs: where each runs and which processing elements
it holds. PETs are found by position; the number written in a record is what matching reports.

## Main definitions

- `Placement`: what a PET learns about the place it runs at.
- `PetRecord`: the entry of a PET.
- `PetDirectory`: the records of a VM, with the id that errors name.
-/

namespace VirtualTopology

/-- The physical placement of a PET. -/
structure Placement where
  peCount : Nat
  imageId : Nat
  /-- The number of PETs of the same VM on the same image. -/
  threadGroupSize : Nat
  threadId : Nat
deriving DecidableEq, Repr, Inhabited

/-- Where a placement is. -/
def Placement.location (p : Placement) : Location := ⟨p.imageId, p.threadId⟩

/-- The entry of a PET in the directory of its VM. -/
structure PetRecord where
  pet : Nat
  location : Location
  threadGroupSize : Nat
  pes : List Pe
deriving DecidableEq, Repr, Inhabited

/-- The placement an entry tells of. -/
def PetRecord.placement (r : PetRecord) : Placement :=
  ⟨r.pes.length, r.location.image, r.threadGroupSize, r.location.thread⟩

/-- PET records under the id of the VM they are asked for. -/
structure PetDirectory where
  vm : Nat
  records : List PetRecord
deriving DecidableEq, Repr, Inhabited

namespace PetDirectory

def petCount (d : PetDirectory) : Nat := d.records.length

/-- The number of processing elements of all PETs. -/
def peCount (d : PetDirectory) : Nat := (d.records.map (·.pes.length)).foldr (· + ·) 0

/-- The entry of a PET. -/
def record (d : PetDirectory) (pet : Nat) : Except VmError PetRecord :=
  match d.records[pet]? with
  | some r => .ok r
  | none => .error (.outOfRange d.vm pet d.petCount)

end PetDirectory

end VirtualTopology
