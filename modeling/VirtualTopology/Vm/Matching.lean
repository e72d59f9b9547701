import VirtualTopology.Vm.Directory

/-!
# Matching PETs by location

Two PETs of different VMs match when they run at one location. The matches of a PET are written
into a buffer that may be too short for them.

## Main definitions

- `PetDirectory.matchInto`: writes as many matches as fit and counts them all.
- `PetDirectory.matchAll`: every match, in a buffer that is always long enough.
-/

namespace VirtualTopology.PetDirectory

/-- Writes a match to the next place of the buffer, if there is one, and counts it. -/
def noteMatch {β : Type} (entry : Nat → β) (target : Location) (state : List β × Nat)
    (candidate : PetRecord) : List β × Nat :=
  if candidate.location = target then
    (state.1.set state.2 (entry candidate.pet), state.2 + 1)
  else state

/-- Writes the PETs of `other` at the location of a PET of `d` into a buffer, in the order of the
directory. The answer is their number, or that the buffer was too short for them; what fits is
written either way, and what is beyond the matches stays as it was. -/
def matchInto {β : Type} (entry : Nat → β) (d : PetDirectory) (pet : Nat) (other : PetDirectory)
    (buffer : List β) : Except VmError Nat × List β :=
  match d.record pet with
  | .error e => (.error e, buffer)
  | .ok r =>
    let (written, count) := other.records.foldl (noteMatch entry r.location) (buffer, 0)
    if buffer.length < count then (.error (.bufferTooSmall count buffer.length), written)
    else (.ok count, written)

/-- Every PET of `other` at the location of a PET of `d`. -/
def matchAll (d : PetDirectory) (pet : Nat) (other : PetDirectory) : Except VmError (List Nat) :=
  match matchInto id d pet other (List.replicate other.petCount 0) with
  | (.error e, _) => .error e
  | (.ok count, written) => .ok (written.take count)

end VirtualTopology.PetDirectory
