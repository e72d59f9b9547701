import VirtualTopology.Pe

/-!
# Ownership of processing elements

Every processing element of the host is held by one VM. A child takes its processing elements
from its parent one after the other, all of them or none, and gives them back when it retires.

## Main definitions

- `Owners`: the holder of each processing element, looked at through `pes` and `owner?`.
- `Owners.claim`: all or nothing; the refusal names the first element that cannot be taken.
- `Owners.release`: gives back what is still held.
-/

namespace VirtualTopology

/-- Why a processing element cannot be taken. -/
inductive ClaimRefusal where
  | held (pe : Pe) (owner : Nat)
  | unknown (pe : Pe)
deriving DecidableEq, Repr

/-- The wording of a refusal. -/
def ClaimRefusal.message : ClaimRefusal → String
  | held pe owner => s!"{pe.text} is held by VM {owner}"
  | unknown pe => s!"{pe.text} is not known to this registry"

/-- The VM that holds each processing element. -/
abbrev Owners := List (Pe × Nat)

namespace Owners

/-- All processing elements of a list in one hand. -/
def allHeldBy (vm : Nat) (pes : List Pe) : Owners := pes.map fun pe => (pe, vm)

/-- The processing elements that have a holder. -/
def pes (o : Owners) : List Pe := o.map Prod.fst

/-- The holder of a processing element. -/
def owner? (o : Owners) (pe : Pe) : Option Nat := o.lookup pe

/-- Hands a processing element over. -/
def assign (o : Owners) (pe : Pe) (vm : Nat) : Owners :=
  o.map fun (p, v) => if p = pe then (p, vm) else (p, v)

/-- Hands a processing element from `child` to `parent`, if `child` holds it. -/
def giveBack (child parent : Nat) (o : Owners) (pe : Pe) : Owners :=
  if o.owner? pe = some child then o.assign pe parent else o

/-- Hands those processing elements of a list to `parent` that `child` holds. -/
def release (child parent : Nat) (pes : List Pe) (o : Owners) : Owners :=
  pes.foldl (giveBack child parent) o

/-- Takes processing elements one by one; `taken` are those that this claim took before. At the
first that `parent` does not hold, what was taken is given back. -/
def claimFrom (parent child : Nat) (taken : List Pe) :
    List Pe → Owners → Except ClaimRefusal Unit × Owners
  | [], o => (.ok (), o)
  | pe :: pes, o =>
    match o.owner? pe with
    | some owner =>
      if owner = parent then claimFrom parent child (pe :: taken) pes (o.assign pe child)
      else (.error (.held pe owner), o.release child parent taken)
    | none => (.error (.unknown pe), o.release child parent taken)

/-- Moves processing elements from `parent` to `child`, all or none. -/
def claim (parent child : Nat) (pes : List Pe) (o : Owners) : Except ClaimRefusal Unit × Owners :=
  claimFrom parent child [] pes o

/-! ### What the operations do to the two views -/

@[simp] theorem pes_allHeldBy (vm : Nat) (pes : List Pe) : (allHeldBy vm pes).pes = pes := by
  simp [allHeldBy, Owners.pes, Function.comp_def]

@[simp] theorem pes_assign (o : Owners) (pe : Pe) (vm : Nat) : (o.assign pe vm).pes = o.pes := by
  simp only [assign, Owners.pes, List.map_map]
  exact List.map_congr_left fun x _ => by simp only [Function.comp_apply]; split <;> rfl

@[simp] theorem pes_giveBack (child parent : Nat) (o : Owners) (pe : Pe) :
    (giveBack child parent o pe).pes = o.pes := by
  unfold giveBack
  split
  · exact pes_assign o pe parent
  · rfl

@[simp] theorem pes_release (child parent : Nat) (pes : List Pe) (o : Owners) :
    (o.release child parent pes).pes = o.pes := by
  induction pes generalizing o with
  | nil => rfl
  | cons pe pes ih => exact (ih _).trans (pes_giveBack child parent o pe)

/-- Handing over an element changes its holder, if it had one, and no other. -/
theorem owner?_assign (o : Owners) (pe q : Pe) (vm : Nat) :
    (o.assign pe vm).owner? q =
      if q = pe then (o.owner? q).map fun _ => vm else o.owner? q := by
  induction o with
  | nil => simp [assign, owner?]
  | cons entry o ih =>
    obtain ⟨p, v⟩ := entry
    simp only [assign, owner?, List.map_cons] at ih ⊢
    by_cases hp : p = pe <;> by_cases hq : q = p <;>
      simp_all [List.lookup_cons, beq_eq_false_iff_ne.2]

/-- After a release the elements of the list that `child` held belong to `parent`. -/
theorem owner?_release (child parent : Nat) (pes : List Pe) (o : Owners) (q : Pe) :
    (o.release child parent pes).owner? q =
      if q ∈ pes ∧ o.owner? q = some child then some parent else o.owner? q := by
  induction pes generalizing o with
  | nil => simp [release]
  | cons pe pes ih =>
    rw [show o.release child parent (pe :: pes) =
      (giveBack child parent o pe).release child parent pes from rfl, ih]
    unfold giveBack
    by_cases hpe : o.owner? pe = some child
    · rw [if_pos hpe, owner?_assign]
      by_cases hq : q = pe
      · subst hq
        simp_all
      · simp [hq]
    · rw [if_neg hpe]
      by_cases hq : q = pe
      · subst hq
        simp [hpe]
      · simp [hq]

end Owners

end VirtualTopology
