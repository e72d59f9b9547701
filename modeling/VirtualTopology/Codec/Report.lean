import VirtualTopology.Codec.Topology
import VirtualTopology.Vm.Report

/-!
# Reports in JSON

The report of a PET has the fields of its placement among its own. While it is read, everything
but its own two fields is held back until all members are known. The report of a VM leaves out a
missing parent, a depth of zero, and a switch that is off.

## Main definitions

- `Placement.toJson`, `PetReport.toJson`, `VmReport.toJson` and the readers beside them.
-/

namespace VirtualTopology

open Json

namespace Placement

/-- The members a placement is written as. -/
def members (p : Placement) : List (String × Value) :=
  [("pe_count", .nat p.peCount), ("image_id", .nat p.imageId),
   ("thread_group_size", .nat p.threadGroupSize), ("thread_id", .nat p.threadId)]

/-- The names of those members. -/
def memberNames : List String := ["pe_count", "image_id", "thread_group_size", "thread_id"]

def toJson (p : Placement) : Value := .record p.members

def ofJson? (v : Value) : Option Placement := do
  let [peCount, imageId, size, threadId] ← v.fields memberNames | none
  return ⟨← required Value.word peCount, ← required Value.word imageId,
    ← required Value.word size, ← required Value.word threadId⟩

end Placement

namespace PetReport

def toJson (r : PetReport) : Value :=
  .record ([("pet", .nat r.pet)] ++ r.placement.members ++ [("pes", .array (r.pes.map Pe.toJson))])

/-- The names of the fields that are not held back. -/
def ownNames : List (Option String) := [some "pet", some "pes"]

/-- Reads a report that stands `depth` levels deep in its text. -/
def ofJsonAt? (depth : Nat) : Value → Option PetReport
  | .object members => do
    let own := members.filter fun (name, _) => ownNames.contains name
    let others := members.filter fun (name, _) => !ownNames.contains name
    guard (others.all fun (name, v) => name.isSome && v.fitsBuffer (nestingLimit - depth))
    return ⟨← (← only? own "pet").bind Value.word, ← Placement.ofJson? (.object others),
      ← (← only? own "pes").bind (Value.listOf Pe.ofJson?)⟩
  | _ => none

def ofJson? : Value → Option PetReport := ofJsonAt? 1

end PetReport

namespace VmReport

def toJson (r : VmReport) : Value :=
  .record ([("vm", .nat r.vm)] ++ natMember "parent" r.parent ++
    (if isZero r.depth then [] else [("depth", .nat r.depth)]) ++
    [("local_pet", .nat r.localPet), ("pet_count", .nat r.petCount),
      ("pe_count", .nat r.peCount)] ++
    (if isOff r.threadCompat then [] else [("thread_compat", .bool r.threadCompat)]) ++
    [("communicator", .nat r.communicator), ("pets", .array (r.pets.map PetReport.toJson))])

def ofJson? (v : Value) : Option VmReport := do
  let [vm, parent, depth, localPet, petCount, peCount, threadCompat, communicator, pets] ←
    v.fields ["vm", "parent", "depth", "local_pet", "pet_count", "pe_count", "thread_compat",
      "communicator", "pets"] | none
  return {
    vm := ← required Value.word vm
    parent := ← nullable Value.word parent
    depth := ← orDefault 0 Value.halfWord depth
    localPet := ← required Value.word localPet
    petCount := ← required Value.word petCount
    peCount := ← required Value.word peCount
    threadCompat := ← orDefault false Value.flag threadCompat
    communicator := ← required Value.word communicator
    pets := ← required (Value.listOf (PetReport.ofJsonAt? 3)) pets }

end VmReport

end VirtualTopology
