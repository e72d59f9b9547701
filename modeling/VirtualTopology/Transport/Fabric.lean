import VirtualTopology.Text.Record
import VirtualTopology.Transport.Error

/-!
# Communicators and their mailboxes

A communicator is a handle on a set of mailboxes, one for each of its ranks. All handles on one
set share it: what one sends another receives, and once the set is closed it is closed for all.
The fabric holds the mailboxes of every communicator that was ever made.

## Main definitions

- `Communicator`: a number, a size, and the mailboxes it stands for.
- `Mesh`: the messages of a communicator that are under way, or that it is closed.
- `Fabric`: every mesh; `allocate`, `close`, `isClosed`.
- `Endpoint`: a communicator as one of its ranks; `send`, `receive`.
-/

namespace VirtualTopology

/-- A handle on the mailboxes of a communicator. Its number is unique within one transport. -/
structure Communicator where
  id : Nat
  size : Nat
  /-- Which mailboxes the handle stands for. -/
  mesh : Nat
deriving DecidableEq, Repr, Inhabited

/-- Handles are the same communicator when number and mailboxes agree. -/
def Communicator.same (a b : Communicator) : Bool := a.id == b.id && a.mesh == b.mesh

/-- The content of a message: bytes. -/
abbrev Payload := List UInt8

/-- A message as it is received. -/
structure Envelope where
  source : Nat
  payload : Payload
deriving DecidableEq, Repr, Inhabited

/-- A message under way to a rank. -/
structure Delivery where
  target : Nat
  envelope : Envelope
deriving DecidableEq, Repr, Inhabited

/-- The mailboxes of a communicator. -/
inductive Mesh where
  /-- Open, with what is under way to any rank, oldest first. -/
  | live (pending : List Delivery)
  | closed
deriving DecidableEq, Repr, Inhabited

namespace Mesh

/-- What is under way to one rank, oldest first. -/
def mailbox (rank : Nat) : Mesh → List Envelope
  | live pending => (pending.filter (·.target = rank)).map Delivery.envelope
  | closed => []

/-- Takes the oldest delivery for a rank out of those under way. -/
def takeFirst (rank : Nat) : List Delivery → Option (Envelope × List Delivery)
  | [] => none
  | d :: ds =>
    if d.target = rank then some (d.envelope, ds)
    else (takeFirst rank ds).map fun (e, rest) => (e, d :: rest)

/-- Taking fails on an empty mailbox only. -/
theorem takeFirst_eq_none_iff {rank : Nat} {ds : List Delivery} :
    takeFirst rank ds = none ↔ (live ds).mailbox rank = [] := by
  induction ds with
  | nil => simp [takeFirst, mailbox]
  | cons d ds ih =>
    by_cases h : d.target = rank
    · simp [takeFirst, mailbox, h]
    · simpa [takeFirst, mailbox, h] using ih

/-- What is taken is the first of the mailbox, and the rest stays. -/
theorem mailbox_of_takeFirst {rank : Nat} {ds rest : List Delivery} {e : Envelope}
    (h : takeFirst rank ds = some (e, rest)) :
    (live ds).mailbox rank = e :: (live rest).mailbox rank := by
  induction ds generalizing rest with
  | nil => simp [takeFirst] at h
  | cons d ds ih =>
    by_cases hd : d.target = rank
    · simp only [takeFirst, hd, if_true, Option.some.injEq, Prod.mk.injEq] at h
      obtain ⟨rfl, rfl⟩ := h
      simp [mailbox, hd]
    · simp only [takeFirst, hd, if_false, Option.map_eq_some_iff] at h
      obtain ⟨⟨e', rest'⟩, h, heq⟩ := h
      obtain ⟨rfl, rfl⟩ := Prod.mk.inj heq
      simpa [mailbox, hd] using ih h

/-- The mailboxes of other ranks are not touched. -/
theorem mailbox_of_takeFirst_of_ne {rank other : Nat} {ds rest : List Delivery} {e : Envelope}
    (h : takeFirst rank ds = some (e, rest)) (hne : other ≠ rank) :
    (live rest).mailbox other = (live ds).mailbox other := by
  induction ds generalizing rest with
  | nil => simp [takeFirst] at h
  | cons d ds ih =>
    by_cases hd : d.target = rank
    · simp only [takeFirst, hd, if_true, Option.some.injEq, Prod.mk.injEq] at h
      obtain ⟨rfl, rfl⟩ := h
      simp [mailbox, hd, Ne.symm hne]
    · simp only [takeFirst, hd, if_false, Option.map_eq_some_iff] at h
      obtain ⟨⟨e', rest'⟩, h, heq⟩ := h
      obtain ⟨rfl, rfl⟩ := Prod.mk.inj heq
      by_cases ho : d.target = other <;> simpa [mailbox, ho] using ih h

end Mesh

/-- The mailboxes of every communicator ever made, by the order they were made in. -/
structure Fabric where
  meshes : Array Mesh := #[]
deriving Inhabited

namespace Fabric

/-- A communicator with fresh mailboxes. -/
def allocate (f : Fabric) (id size : Nat) : Communicator × Fabric :=
  (⟨id, size, f.meshes.size⟩, ⟨f.meshes.push (.live [])⟩)

/-- The mailboxes of a communicator. -/
def meshOf (f : Fabric) (c : Communicator) : Mesh := f.meshes.getD c.mesh .closed

/-- Changes the mailboxes of a communicator. -/
def setMesh (f : Fabric) (c : Communicator) (m : Mesh) : Fabric :=
  ⟨f.meshes.setIfInBounds c.mesh m⟩

/-- Whether a communicator was closed. -/
def isClosed (f : Fabric) (c : Communicator) : Bool := f.meshOf c == .closed

/-- Closes a communicator; what was under way on it is lost. -/
def close (f : Fabric) (c : Communicator) : Fabric := f.setMesh c .closed

/-- Closes every communicator of a list. -/
def closeAll (f : Fabric) (cs : List Communicator) : Fabric := cs.foldl close f

/-- The description of a communicator. -/
def describe (f : Fabric) (c : Communicator) : String :=
  Text.record "Communicator"
    [("id", toString c.id), ("size", toString c.size), ("closed", toString (f.isClosed c))]

end Fabric

/-- A communicator as one of its ranks. -/
structure Endpoint where
  rank : Nat
  communicator : Communicator
deriving DecidableEq, Repr, Inhabited

/-- The endpoint of a rank. -/
def Communicator.endpoint (c : Communicator) (rank : Nat) : Except TransportError Endpoint :=
  if rank < c.size then .ok ⟨rank, c⟩ else .error (.invalidRank rank c.size)

namespace Endpoint

/-- Sends a message to a rank. A closed communicator is noticed before a wrong rank. -/
def send (e : Endpoint) (target : Nat) (payload : Payload) (f : Fabric) :
    Except TransportError Unit × Fabric :=
  match f.meshOf e.communicator with
  | .closed => (.error (.closed e.communicator.id), f)
  | .live pending =>
    if target < e.communicator.size then
      (.ok (), f.setMesh e.communicator (.live (pending ++ [⟨target, ⟨e.rank, payload⟩⟩])))
    else (.error (.invalidRank target e.communicator.size), f)

/-- Takes the oldest message for the endpoint's rank, if there is one. -/
def receive (e : Endpoint) (f : Fabric) : Except TransportError (Option Envelope) × Fabric :=
  match f.meshOf e.communicator with
  | .closed => (.error (.closed e.communicator.id), f)
  | .live pending =>
    match Mesh.takeFirst e.rank pending with
    | none => (.ok none, f)
    | some (envelope, rest) => (.ok (some envelope), f.setMesh e.communicator (.live rest))

/-- The description of an endpoint. -/
def describe (e : Endpoint) (f : Fabric) : String :=
  Text.record "Endpoint" [("rank", toString e.rank), ("comm", f.describe e.communicator)]

end Endpoint

end VirtualTopology
