import VirtualTopology.Json.Value
import VirtualTopology.Registry.Basic
import VirtualTopology.Spawn.Outcome
import VirtualTopology.Transport.Network
import VirtualTopology.Vm.Report

/-!
# Answers of a session

## Main definitions

- `Answer`: what a step came to.
- `VmStatus`, `ChildStatus`: a VM and a child with what may change about them.
-/

namespace VirtualTopology.Session

/-- A VM, and whether its communicator is closed. -/
structure VmStatus where
  handle : VmHandle
  closed : Bool
deriving Repr, Inhabited

/-- A child, and what its registry knows about it. -/
structure ChildStatus where
  state : Option ChildState
  vm : VmStatus
deriving Repr, Inhabited

/-- One entry of the list of a nest. -/
inductive NestItem where
  /-- A PET's VM, and whether that was its current VM. -/
  | record (vm : Vm) (isCurrent : Bool)
  | refused (e : VmError)
deriving Repr

/-- What a step came to. -/
inductive Answer where
  | ok
  | absent
  | skipped
  /-- No object of the right kind has this name. -/
  | missing (name : String)
  | unknownStep
  | refused (e : VmError)
  | transportRefused (e : TransportError)
  | flag (b : Bool)
  | text (s : String)
  | registry (id : Nat)
  | vm (status : VmStatus)
  | registryState (state : RegistryState) (isUp : Bool) (outstanding : Nat)
      (owners : List (Pe × Option Nat))
  | topology (t : Topology)
  | childState (state : Option ChildState)
  | owner (vm : Option Nat)
  | vmInfo (status : VmStatus) (sameCommunicator : Bool)
  | report (r : VmReport)
  | pet (r : PetRecord)
  | viewPet (r : PetRecord)
  | pets (pets : List Nat)
  | buffer (written : List (Option Nat)) (result : Except VmError Nat)
  | view (petCount peCount : Nat)
  | plan (p : SpawnPlan)
  | planSlot (part : Option Partition) (state : Option ChildState) (petCount : Option Nat)
  | kids (children : List ChildStatus)
  | child (status : Option ChildStatus)
  | outcomes (outcomes : List (ChildOutcome (List (List Answer))))
  | nest (items : List NestItem)
  | steps (answers : List Answer)
  | cargo (v : Json.Value)
  | liveCount (n : Nat)
  | calls (calls : List TransportCall)
  | communicator (c : Communicator) (closed : Bool)
  | endpoint (e : Endpoint) (closed : Bool)
  | envelope (e : Envelope)
deriving Inhabited

end VirtualTopology.Session
