import Std.Data.TreeMap
import VirtualTopology.Registry.Launch
import VirtualTopology.Registry.Lifecycle
import VirtualTopology.Session.Answer
import VirtualTopology.Session.Step

/-!
# The world of a session

What steps act on: the objects that have names, and behind them the registries, the transports
and the children that were launched. Every PET of a child has objects of its own.

## Main definitions

- `Object`, `Scope`: a named object, and the objects of one owner by name.
- `Frame`, `Turn`: where steps are run, and what a PET did when it was its turn.
- `PetRun`, `Kids`: the run of a PET's entry, and the children of one launch with their runs.
- `World`: everything that the owners share.
- `Scene`: the world as one owner sees it.
-/

namespace VirtualTopology.Session

/-- A named object. Children are owned by whoever holds the object; the rest may be shared. -/
inductive Object where
  | registry (id : Nat)
  | vm (handle : VmHandle)
  | view (directory : PetDirectory)
  | communicator (c : Communicator)
  | endpoint (e : Endpoint)
  | transport (key : Nat)
  | plan (p : SpawnPlan) (built : p.IsBuilt)
  | kids (key : Nat)

/-- Whether the PETs of children get a copy of an object. -/
def Object.isShared : Object → Bool
  | plan .. | kids _ => false
  | _ => true

/-- The children behind an object. -/
def Object.kids? : Object → Option Nat
  | kids key => some key
  | _ => none

/-- The objects of one owner by name. -/
abbrev Scope := Std.TreeMap String Object

namespace Scope

def registry? (s : Scope) (name : String) : Option Nat :=
  match s[name]? with
  | some (.registry id) => some id
  | _ => none

def vm? (s : Scope) (name : String) : Option VmHandle :=
  match s[name]? with
  | some (.vm h) => some h
  | _ => none

/-- The directory of a VM or a view. -/
def directory? (s : Scope) (name : String) : Option PetDirectory :=
  match s[name]? with
  | some (.vm h) => some h.vm.directory
  | some (.view d) => some d
  | _ => none

def communicator? (s : Scope) (name : String) : Option Communicator :=
  match s[name]? with
  | some (.communicator c) => some c
  | _ => none

def endpoint? (s : Scope) (name : String) : Option Endpoint :=
  match s[name]? with
  | some (.endpoint e) => some e
  | _ => none

def transport? (s : Scope) (name : String) : Option Nat :=
  match s[name]? with
  | some (.transport key) => some key
  | _ => none

def plan? (s : Scope) (name : String) : Option SpawnPlan :=
  match s[name]? with
  | some (.plan p _) => some p
  | _ => none

def kids? (s : Scope) (name : String) : Option Nat :=
  match s[name]? with
  | some (.kids key) => some key
  | _ => none

/-- What a PET starts with: copies of what may be shared, and its own VM as `self`. -/
def forPet (s : Scope) (h : VmHandle) : Scope :=
  (s.filter fun _ object => object.isShared).insert "self" (.vm h)

/-- The children among the objects, in the order of their names. -/
def kidsKeys (s : Scope) : List Nat := s.toList.filterMap fun (_, object) => object.kids?

end Scope

/-- Where steps are run: the thread, and the PET whose entry they belong to. -/
structure Frame where
  context : ExecutionContext
  /-- The slot, the PET number and the cargo of the entry. -/
  pet : Option (Nat × Nat × Json.Value) := none

/-- A phase of an entry as a PET ran it. -/
structure Turn where
  frame : Frame
  phase : List Step
  /-- The objects it was begun with. -/
  before : Scope
  answers : List Answer
  panicked : Option PanicPayload
  /-- The objects there were when it was over. -/
  after : Scope

/-- The run of the entry of a PET. -/
structure PetRun where
  slot : Nat
  handle : VmHandle
  /-- Whether the gate let its thread in. -/
  letIn : Bool
  scope : Scope
  /-- What it has done so far. -/
  turns : List Turn := []
  /-- The answers of the phases that are over. -/
  phases : List (List Answer) := []
  panicked : Option PanicPayload := none

/-- The context that a PET runs in. -/
def PetRun.context (p : PetRun) : ExecutionContext := p.handle.context

/-- Whether a PET has its next phase still before it. -/
def PetRun.goesOn (p : PetRun) : Bool := p.letIn && p.panicked.isNone

/-- How a PET's entry ended. -/
def PetRun.ending (p : PetRun) : EntryEnd (List (List Answer)) :=
  if p.letIn then
    match p.panicked with
    | some payload => .panicked payload
    | none => .returned p.phases
  else .turnedAway

/-- The children of one launch and the runs of their PETs. -/
structure Kids where
  spawned : Spawned
  /-- By slot and PET number. -/
  pets : List PetRun
  entry : List (List Step)
  cargo : Json.Value
  /-- Whether the entries were run. -/
  released : Bool := false

/-- The runs of the PETs of one slot. -/
def Kids.petsOf (k : Kids) (slot : Nat) : List PetRun := k.pets.filter (·.slot == slot)

/-- What all owners share. -/
structure World where
  process : Process Network := { net := {} }
  registries : Array (Registry Network) := #[]
  kids : List (Nat × Kids) := []
  nextKids : Nat := 0
  /-- The number of the next thread that a step starts. The threads of PETs are not counted. -/
  nextThread : Nat := 0
  /-- What the PETs of launches have done whose entries are over. -/
  trail : List Turn := []

namespace World

def fabric (w : World) : Fabric := w.process.net.fabric

def setFabric (w : World) (fabric : Fabric) : World :=
  { w with process.net.fabric := fabric }

/-- A registry in its process. Registries are numbered from one. -/
def site? (w : World) (id : Nat) : Option (Site Network) :=
  w.registries[id - 1]?.map fun r => { toProcess := w.process, registry := r }

/-- Acts on a registry. -/
def onSite {α : Type} (w : World) (id : Nat) (default : α)
    (act : Site Network → α × Site Network) : α × World :=
  match w.site? id with
  | none => (default, w)
  | some s =>
    let (a, s) := act s
    (a, { w with
      process := s.toProcess, registries := w.registries.setIfInBounds (id - 1) s.registry })

/-- Adds a registry over the transport at `key` and answers its number. -/
def addRegistry (w : World) (config : DiscoveryConfig) (key : Nat) : Nat × World :=
  let id := w.registries.size + 1
  let r : Registry Network := { id, transport := w.process.net.transport key, config }
  (id, { w with registries := w.registries.push r })

/-- Adds a transport. -/
def addTransport (w : World) (b : Backend) : Nat × World :=
  let (key, net) := w.process.net.add b
  (key, { w with process.net := net })

/-- A call to a transport. -/
def onTransport {α : Type} (w : World) (key : Nat)
    (call : Transport Network → Network → Reply Network α) : Except TransportError α × World :=
  let (r, net) := call (w.process.net.transport key) w.process.net
  (r, { w with process.net := net })

/-- Ends the thread of a context. -/
def forget (w : World) (c : ExecutionContext) : World :=
  { w with process.bindings := w.process.bindings.forget c }

def kids? (w : World) (key : Nat) : Option Kids := w.kids.lookup key

def addKids (w : World) (k : Kids) : Nat × World :=
  (w.nextKids, { w with kids := (w.nextKids, k) :: w.kids, nextKids := w.nextKids + 1 })

def setKids (w : World) (key : Nat) (k : Kids) : World :=
  { w with kids := w.kids.map fun (i, old) => if i = key then (i, k) else (i, old) }

def removeKids (w : World) (key : Nat) : World :=
  { w with kids := w.kids.filter fun (i, _) => i != key }

/-- Notes what PETs have done. -/
def record (w : World) (pets : List PetRun) : World :=
  { w with trail := w.trail ++ pets.flatMap PetRun.turns }

/-- What was done in a context. -/
def turnsOf (w : World) (c : ExecutionContext) : List Turn :=
  w.trail.filter (·.frame.context = c)

/-- A VM with what may change about it. -/
def vmStatus (w : World) (h : VmHandle) : VmStatus := ⟨h, w.fabric.isClosed h.vm.communicator⟩

/-- The child of a slot with what may change about it. -/
def childStatus (w : World) (spawned : Spawned) (c : LaunchedChild) : ChildStatus :=
  ⟨(w.site? spawned.registry).bind (·.spawnedState? spawned c.partition.slot),
    w.vmStatus c.handle⟩

/-- Every child with what may change about it. -/
def kidsStatus (w : World) (spawned : Spawned) : List ChildStatus :=
  spawned.children.map (w.childStatus spawned)

end World

/-- The world as one owner sees it. -/
structure Scene where
  scope : Scope := ∅
  world : World := {}

end VirtualTopology.Session
