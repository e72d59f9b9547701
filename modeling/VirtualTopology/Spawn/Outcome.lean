import VirtualTopology.VmError

/-!
# Outcomes of children

What the entries of a child's PETs came to, as the parent gets to know it.

## Main definitions

- `PanicPayload`: what an entry panicked with.
- `EntryEnd`: how an entry ended.
- `ChildOutcome`: the results of a child, PET by PET.
-/

namespace VirtualTopology

/-- What an entry panicked with. -/
inductive PanicPayload where
  | text (s : String)
  /-- A value that is no text. -/
  | other
deriving DecidableEq, Repr, Inhabited

/-- The text a panic is reported with. -/
def PanicPayload.message : PanicPayload → String
  | text s => s
  | other => "non-string panic payload"

/-- How the entry of a PET ended. -/
inductive EntryEnd (ρ : Type) where
  | returned (value : ρ)
  | panicked (payload : PanicPayload)
  /-- The thread of the PET ended at the gate, and its entry never began. -/
  | turnedAway
deriving DecidableEq, Repr, Inhabited

/-- The result of a PET as its parent gets it. -/
def EntryEnd.result {ρ : Type} (slot pet : Nat) : EntryEnd ρ → Except VmError ρ
  | returned value => .ok value
  | panicked payload => .error (.entryPanicked slot pet payload.message)
  | turnedAway => .error (.launch slot s!"PET {pet} exited before running entry")

/-- The results of a child VM. -/
structure ChildOutcome (ρ : Type) where
  slot : Nat
  vm : Nat
  /-- The result of each PET, in PET order. -/
  results : List (Except VmError ρ)

namespace ChildOutcome

variable {ρ : Type}

/-- The outcome of a child from the ends of its entries. -/
def ofEnds (slot vm : Nat) (ends : List (EntryEnd ρ)) : ChildOutcome ρ :=
  ⟨slot, vm, ends.mapIdx fun pet e => e.result slot pet⟩

/-- Whether every entry returned. -/
def isSuccess (o : ChildOutcome ρ) : Bool := o.results.all (·.isOk)

/-- The PETs whose entries did not return. -/
def failedPets (o : ChildOutcome ρ) : List Nat :=
  (o.results.zipIdx.filter fun (r, _) => !r.isOk).map (·.2)

end ChildOutcome

end VirtualTopology
