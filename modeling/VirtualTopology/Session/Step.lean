import VirtualTopology.Discovery
import VirtualTopology.Json.Value
import VirtualTopology.Spawn.Outcome
import VirtualTopology.Spawn.Policy
import VirtualTopology.Transport.Network

/-!
# Steps of a session

A session is a list of steps that make named objects and act on them. The entry of a child is a
list of phases, each a list of steps that every PET of the child goes through.

## Main definitions

- `Step`: one step.
- `Step.depth`: how deep entries and threads nest within a step.
-/

namespace VirtualTopology.Session

/-- Where a registry takes its overrides from. -/
inductive ConfigSource where
  | given (config : DiscoveryConfig)
  | environment (env : Environment)

/-- One step. Objects are referred to by name; `as` names the result. -/
inductive Step where
  /-- Makes a registry; over a local transport of its own if none is named. -/
  | registry (as : String) (config : ConfigSource) (transport : Option String)
  | bringUp (reg : String) (as : Option String)
  | takeDown (reg : String)
  | global (reg : String) (as : Option String)
  | current (reg : String) (as : Option String)
  | registryState (reg : String)
  | topology (reg : String)
  | childState (reg : String) (vm : Nat)
  | peOwner (reg : String) (pe : Pe)
  | describe (object : String)
  | vm (vm : String)
  | vmInfo (vm : String)
  | report (vm : String)
  | pet (vm : String) (pet : Nat)
  | matchAll (vm : String) (pet : Nat) (other : String)
  | matchInto (vm : String) (pet : Nat) (other : String) (capacity : Nat)
  | sameVm (vm other : String)
  /-- A directory of the records of several VMs, under an id of its own. -/
  | view (as : String) (vms : List String) (id : Nat)
  | plan (vm : String) (count : Nat) (policy : SpawnPolicy) (as : String)
  | planSlot (plan : String) (slot : Nat)
  | startup (reg plan as : String) (entry : List (List Step)) (cargo : Json.Value)
  | kids (kids : String)
  | child (kids : String) (slot : Nat) (as : Option String)
  /-- Lets the PETs of children run and waits for them. -/
  | release (kids : String)
  /-- Waits for children, retires them, and takes over objects that their PETs left behind. -/
  | join (kids : String) (adopt : List String)
  | drop (name : String)
  /-- Children of children, one at each level. -/
  | nest (reg vm : String) (levels : Nat) (policy : SpawnPolicy)
  | inThread (name : Option String) (steps : List Step)
  | cargo
  | panic (payload : PanicPayload)
  | transport (as : String) (backend : Backend)
  | transportInit (transport : String) (size : Nat) (as : String)
  | transportDerive (transport parent : String) (size : Nat) (as : String)
  | transportRelease (transport comm : String)
  | transportFinalize (transport comm : String)
  | calls (transport : String)
  | communicatorOf (as vm : String)
  /-- A communicator of no transport. -/
  | freshCommunicator (as : String) (id size : Nat)
  | communicator (comm : String)
  | sameCommunicator (comm other : String)
  | endpointOf (as vm : String)
  | endpoint (as comm : String) (rank : Nat)
  | send (ep : String) (target : Nat) (payload : Payload)
  | receive (ep : String)
  | tryReceive (ep : String)
  /-- Waits for a message while the communicator is released. -/
  | receiveWhileReleasing (ep transport comm : String)
  /-- Within an entry, a step for one slot or one PET number only. -/
  | only (slot pet : Option Nat) (step : Step)
  /-- A step that is not known. -/
  | unknown
deriving Inhabited

mutual

/-- How deep entries and threads nest within a step. -/
def Step.depth : Step → Nat
  | .startup _ _ _ entry _ => phasesDepth entry + 1
  | .inThread _ steps => stepsDepth steps + 1
  | .only _ _ step => step.depth
  | _ => 0

/-- How deep entries and threads nest within steps. -/
def stepsDepth : List Step → Nat
  | [] => 0
  | step :: steps => max step.depth (stepsDepth steps)

/-- How deep entries and threads nest within phases. -/
def phasesDepth : List (List Step) → Nat
  | [] => 0
  | steps :: phases => max (stepsDepth steps) (phasesDepth phases)

end

end VirtualTopology.Session
