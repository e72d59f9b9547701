import VirtualTopology.Discovery
import VirtualTopology.Registry.Context
import VirtualTopology.Registry.Ownership
import VirtualTopology.Spawn.Plan
import VirtualTopology.Transport.Basic

/-!
# Registries

A registry brings the topology of a host up and takes it down again. While it is up it publishes
the Global VM and knows which VM holds each processing element and which children are live.

## Main definitions

- `RegistryState`, `ChildRecord`, `Registry`.
- `Process`: what all registries of a process share.
- `Site`: a registry in its process, which the operations act on.
- `Site.current`: the VM of a context.
-/

namespace VirtualTopology

/-- The life of a registry. -/
inductive RegistryState where
  | uninitialized
  | initialized
  | finalized
deriving DecidableEq, Repr, Inhabited

/-- The name of a state in descriptions. -/
def RegistryState.label : RegistryState → String
  | uninitialized => "Uninitialized"
  | initialized => "Initialized"
  | finalized => "Finalized"

/-- The name of a state in reports. -/
def RegistryState.name : RegistryState → String
  | uninitialized => "uninitialized"
  | initialized => "initialized"
  | finalized => "finalized"

/-- What a registry keeps about a live child. -/
structure ChildRecord where
  vm : Nat
  /-- The VM its processing elements go back to. -/
  parent : Nat
  slot : Nat
  state : ChildState
  pes : List Pe
deriving DecidableEq, Repr, Inhabited

/-- A registry over a transport. -/
structure Registry (σ : Type) where
  id : Nat
  transport : Transport σ
  config : DiscoveryConfig
  /-- The number of cores the host was found to have. -/
  detected : Nat := Limits.fallbackPes
  state : RegistryState := .uninitialized
  /-- The number of bring-ups so far. -/
  generation : Nat := 0
  global : Option VmHandle := none
  topology : Option Topology := none
  owners : Owners := []
  /-- The live children, in the order they were made in. -/
  children : List ChildRecord := []

namespace Registry

variable {σ : Type}

/-- Whether a Global VM is up. -/
def isUp (r : Registry σ) : Bool := r.global.isSome

/-- The number of children that are not retired. -/
def outstanding (r : Registry σ) : Nat := r.children.length

/-- The record of a live child. -/
def child? (r : Registry σ) (vm : Nat) : Option ChildRecord := r.children.find? (·.vm == vm)

/-- The state of a live child. -/
def childState? (r : Registry σ) (vm : Nat) : Option ChildState :=
  (r.child? vm).map ChildRecord.state

/-- The VM that holds a processing element. -/
def owner? (r : Registry σ) (pe : Pe) : Option Nat := r.owners.owner? pe

/-- The topology of the present bring-up. -/
def topologyOrError (r : Registry σ) : Except VmError Topology :=
  match r.topology with
  | some t => .ok t
  | none => .error .notInitialized

/-- The Global VM. -/
def globalOrError (r : Registry σ) : Except VmError VmHandle :=
  match r.global with
  | some g => .ok g
  | none => .error .notInitialized

/-- The description of a registry. -/
def describe (r : Registry σ) : String :=
  Text.record "Registry"
    [("id", toString r.id), ("state", r.state.label),
     ("transport", Text.quote r.transport.name), ("children", toString r.outstanding)]

end Registry

/-- What all registries of a process share. -/
structure Process (σ : Type) where
  /-- The id of the next VM. -/
  nextVm : Nat := 1
  bindings : Bindings := []
  /-- The PETs that were let into their entries, the latest last. -/
  entered : List ExecutionContext := []
  /-- The state that transports live in. -/
  net : σ

/-- A registry in its process. -/
structure Site (σ : Type) extends Process σ where
  registry : Registry σ

namespace Site

variable {σ : Type}

/-- The VM of a context. It is never the Global VM for want of another. -/
def current (s : Site σ) (c : ExecutionContext) : Except VmError VmHandle :=
  if s.registry.isUp then
    match s.bindings.current? c s.registry.id s.registry.generation with
    | some h => .ok h
    | none => .error (.noContext c.label)
  else .error .notInitialized

end Site

end VirtualTopology
