/-!
# Processing elements

A processing element is one core of one shared-memory image. A location is the place a thread
of execution (a PET) runs at; two PETs of different VMs at one location share a hardware thread.

## Main definitions

- `Pe`, `Location` and their texts.
- `Pe.le`, `Location.le`: image first, then core or thread.
- `Pe.sortDistinct`: the processing elements of a list in order, each once.
-/

namespace VirtualTopology

/-- One core of one image. -/
structure Pe where
  image : Nat
  core : Nat
deriving DecidableEq, Repr, Inhabited

/-- Where a PET runs: a thread slot of an image. -/
structure Location where
  image : Nat
  thread : Nat
deriving DecidableEq, Repr, Inhabited

namespace Pe

/-- The text of a processing element, such as `ssi0:pe3`. -/
def text (pe : Pe) : String := s!"ssi{pe.image}:pe{pe.core}"

/-- By image, and by core within an image. -/
def le (a b : Pe) : Bool := a.image < b.image || (a.image == b.image && a.core ≤ b.core)

/-- The hardware thread that belongs to a processing element. -/
def location (pe : Pe) : Location := ⟨pe.image, pe.core⟩

/-- The processing elements of a list in ascending order, repetitions left out. -/
def sortDistinct (pes : List Pe) : List Pe := (pes.mergeSort le).eraseDups

end Pe

namespace Location

/-- The text of a location, such as `(0, 3)`. -/
def text (l : Location) : String := s!"({l.image}, {l.thread})"

/-- By image, and by thread within an image. -/
def le (a b : Location) : Bool := a.image < b.image || (a.image == b.image && a.thread ≤ b.thread)

end Location

end VirtualTopology
