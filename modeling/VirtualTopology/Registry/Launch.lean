import VirtualTopology.Registry.Retirement

/-!
# Launching children

The children of a plan are launched together or not at all. Slot by slot, a child takes its
processing elements from the parent, gets a communicator and is entered into the registry; if a
slot fails, the children of the slots before it are retired. Then every PET gets a thread, which
binds its context and waits at a gate. Only when all of them wait does the gate open; if a thread
cannot be had, those that wait end without having run their entries and the children are retired.

## Main definitions

- `LaunchFault`: why a slot cannot be launched.
- `ThreadHost`: the threads that can be had.
- `Site.launchSlot`, `Site.launchSlots`: one slot, and all of them.
- `Site.startThreads`: the threads of the PETs.
- `Site.startup`: the whole, from the checks on the caller to the opening of the gate.
-/

namespace VirtualTopology

/-- Why a child cannot be launched. -/
inductive LaunchFault where
  /-- The caller does not run in the VM the plan was made for. -/
  | wrongCaller (caller planned : Nat)
  | tooDeep (depth : Nat)
  | claim (refusal : ClaimRefusal)
  | transport (e : TransportError)
  /-- A PET got no thread. -/
  | thread (reason : String)
deriving DecidableEq, Repr

/-- The wording of a fault. -/
def LaunchFault.message : LaunchFault → String
  | wrongCaller caller planned =>
    s!"caller runs in VM {caller}, plan was built for VM {planned}"
  | tooDeep depth => s!"spawn depth {depth} exceeds {Limits.maxSpawnDepth}"
  | claim refusal => refusal.message
  | transport e => s!"transport: {e.message}"
  | thread reason => s!"thread: {reason}"

/-- A fault in a slot, as an error of the topology layer. -/
def LaunchFault.toVmError (slot : Nat) (fault : LaunchFault) : VmError :=
  .launch slot fault.message

/-- The threads that can be had: for a context nothing, or why it gets none. -/
abbrev ThreadHost := ExecutionContext → Option String

/-- A host with a thread for everyone. -/
def ThreadHost.ample : ThreadHost := fun _ => none

/-- A PET of a child, with the slot of the child. -/
structure LaunchedPet where
  slot : Nat
  handle : VmHandle

/-- The PETs of a child, in PET order. -/
def LaunchedChild.pets (c : LaunchedChild) : List LaunchedPet :=
  (List.range c.vm.petCount).map fun pet => ⟨c.partition.slot, ⟨c.vm, pet⟩⟩

namespace Site

variable {σ : Type}

/-- Launches the child of one slot. Its id is used up even if it fails. -/
def launchSlot (parent : Vm) (policy : SpawnPolicy) (part : Partition) (s : Site σ) :
    Except LaunchFault LaunchedChild × Site σ :=
  let id := s.nextVm
  match s.registry.owners.claim parent.id id part.pes with
  | (.error refusal, owners) =>
    (.error (.claim refusal),
      { s with nextVm := id + 1, registry := { s.registry with owners } })
  | (.ok (), owners) =>
    let groups := policy.petGroups part.pes
    match s.registry.transport.derive parent.communicator groups.length s.net with
    | (.error e, net) =>
      (.error (.transport e),
        { s with
          nextVm := id + 1
          net
          registry := { s.registry with owners := owners.release id parent.id part.pes } })
    | (.ok communicator, net) =>
      let vm :=
        Vm.ofGroups id (some parent.id) (parent.depth + 1) groups policy.threadCompat communicator
      let record : ChildRecord := ⟨id, parent.id, part.slot, .created, part.pes⟩
      (.ok ⟨part, vm⟩,
        { s with
          nextVm := id + 1
          net
          registry :=
            { s.registry with owners, children := s.registry.children ++ [record] } })

/-- Launches the children of the slots after `done`; on a fault, what was launched is retired. -/
def launchSlots (parent : Vm) (policy : SpawnPolicy) (done : List LaunchedChild) :
    List Partition → Site σ → Except VmError (List LaunchedChild) × Site σ
  | [], s => (.ok done, s)
  | part :: parts, s =>
    match launchSlot parent policy part s with
    | (.error fault, s) => (.error (fault.toVmError part.slot), s.retireAll done)
    | (.ok child, s) => launchSlots parent policy (done ++ [child]) parts s

/-- Enters that all PETs of some children are running. -/
def markRunning (s : Site σ) (vms : List Nat) : Site σ :=
  { s with
    registry :=
      { s.registry with
        children :=
          s.registry.children.map fun r =>
            if vms.contains r.vm then { r with state := .running } else r } }

/-- Starts the threads of PETs in turn, up to the first that is not to be had. A thread binds its
context and then waits. -/
def startThreads (host : ThreadHost) : List LaunchedPet → Site σ → Except VmError Unit × Site σ
  | [], s => (.ok (), s)
  | pet :: pets, s =>
    match host pet.handle.context with
    | some reason => (.error ((LaunchFault.thread reason).toVmError pet.slot), s)
    | none =>
      startThreads host pets
        { s with
          bindings :=
            s.bindings.bind pet.handle.context s.registry.id s.registry.generation pet.handle }

/-- Shuts the gate: the threads that wait at it end without having run their entries. -/
def shutGate (s : Site σ) (pets : List LaunchedPet) : Site σ :=
  { s with
    bindings :=
      pets.foldl (fun b pet => b.unbind pet.handle.context s.registry.id) s.bindings }

/-- Opens the gate: the threads that wait at it run their entries. -/
def openGate (s : Site σ) (pets : List LaunchedPet) : Site σ :=
  { s with entered := s.entered ++ pets.map (·.handle.context) }

/-- Launches the children of a plan from a context that runs in the plan's VM. -/
def startup (host : ThreadHost) (c : ExecutionContext) (plan : SpawnPlan) (s : Site σ) :
    Except VmError Spawned × Site σ :=
  match s.current c with
  | .error e => (.error e, s)
  | .ok caller =>
    if caller.sameVm plan.parent then
      let parent := plan.parent.vm
      if Limits.maxSpawnDepth < parent.depth + 1 then
        (.error ((LaunchFault.tooDeep (parent.depth + 1)).toVmError 0), s)
      else
        match launchSlots parent plan.policy [] plan.partitions s with
        | (.error e, s) => (.error e, s)
        | (.ok children, s) =>
          let pets := children.flatMap LaunchedChild.pets
          match startThreads host pets s with
          | (.error e, s) => (.error e, (s.shutGate pets).retireAll children)
          | (.ok (), s) =>
            let spawned : Spawned := ⟨s.registry.id, children⟩
            (.ok spawned, (s.markRunning spawned.vmIds).openGate pets)
    else
      (.error ((LaunchFault.wrongCaller caller.vm.id plan.parent.vm.id).toVmError 0), s)

end Site

end VirtualTopology
