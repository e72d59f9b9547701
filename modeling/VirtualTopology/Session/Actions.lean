import VirtualTopology.Session.Children

/-!
# What steps do

One action for each kind of step that acts on named objects. An action whose objects do not exist
answers with the first name that is missing; one that is refused names no result.

## Main definitions

- `Action` and the look-ups `withRegistry`, `withVm`, ….
- The actions on registries, VMs, children and transports.
-/

namespace VirtualTopology.Session

/-- What a step does to the world as its owner sees it. -/
abbrev Action := Scene → Answer × Scene

/-- Goes on with an object, or answers that its name is missing. -/
def orMissing {α : Type} (found : Scope → String → Option α) (name : String) (go : α → Action) :
    Action := fun s =>
  match found s.scope name with
  | some a => go a s
  | none => (.missing name, s)

def withRegistry := orMissing Scope.registry?
def withVm := orMissing Scope.vm?
def withDirectory := orMissing Scope.directory?
def withCommunicator := orMissing Scope.communicator?
def withEndpoint := orMissing Scope.endpoint?
def withTransport := orMissing Scope.transport?
def withPlan := orMissing Scope.plan?
def withKids := orMissing Scope.kids?

/-- An answer that changes nothing. -/
def answering (a : Scene → Answer) : Action := fun s => (a s, s)

/-- The answer for a result that may have been refused. -/
def answerOf {α : Type} (toAnswer : α → Answer) : Except VmError α → Answer
  | .ok a => toAnswer a
  | .error e => .refused e

/-- The answer for a result that a transport may have refused. -/
def transportAnswerOf {α : Type} (toAnswer : α → Answer) : Except TransportError α → Answer
  | .ok a => toAnswer a
  | .error e => .transportRefused e

/-- What an action comes to on a registry alone. -/
def onRegistry (reg : String) (ask : Site Network → Answer) : Action :=
  withRegistry reg fun id => answering fun s =>
    match s.world.site? id with
    | some site => ask site
    | none => .missing reg

/-- An action of a registry on its process. -/
def actOnSite {α : Type} (id : Nat) (act : Site Network → Except VmError α × Site Network)
    (s : Scene) : Except VmError α × Scene :=
  let (r, world) := s.world.onSite id (.error .notInitialized) act
  (r, { s with world })

variable (inner : Runner)

/-- Names the result of an action, if it has a name. -/
def storeAs (name : Option String) (object : Object) (s : Scene) : Scene :=
  match name with
  | some name => store inner name object s
  | none => s

/-- Answers with a VM and names it. -/
def gotVm (as : Option String) (r : Except VmError VmHandle) : Action := fun s =>
  match r with
  | .error e => (.refused e, s)
  | .ok h => (.vm (s.world.vmStatus h), storeAs inner as (.vm h) s)

/-! ### Registries -/

/-- The overrides of a configuration source. -/
def ConfigSource.config : ConfigSource → Except ConfigFault DiscoveryConfig
  | given config => .ok config
  | environment env => DiscoveryConfig.ofEnvironment env

def makeRegistry (as : String) (source : ConfigSource) (transport : Option String) : Action :=
  fun s =>
    match source.config with
    | .error fault => (.refused fault.toVmError, s)
    | .ok config =>
      let build (key : Nat) (world : World) : Answer × Scene :=
        let (id, world) := world.addRegistry config key
        (.registry id, store inner as (.registry id) { s with world })
      match transport with
      | some name => orMissing Scope.transport? name (fun key s => build key s.world) s
      | none =>
        let (key, world) := s.world.addTransport (.loopback {})
        build key world

def bringUp (frame : Frame) (reg : String) (as : Option String) : Action :=
  withRegistry reg fun id s =>
    let (r, s) := actOnSite id (Site.bringUp frame.context) s
    gotVm inner as r s

def takeDown (frame : Frame) (reg : String) : Action :=
  withRegistry reg fun id s =>
    let (r, s) := actOnSite id (Site.takeDown frame.context) s
    (answerOf (fun _ => .ok) r, s)

def global (reg : String) (as : Option String) : Action :=
  withRegistry reg fun id s =>
    gotVm inner as ((s.world.site? id).elim (.error .notInitialized) (·.registry.globalOrError)) s

def current (frame : Frame) (reg : String) (as : Option String) : Action :=
  withRegistry reg fun id s =>
    gotVm inner as (((s.world.site? id).elim (.error .notInitialized)
      (·.current frame.context)).mapError (tell frame.context)) s

/-- The number of processing elements whose holders are told. -/
def toldOwners : Nat := 64

def registryState (reg : String) : Action :=
  onRegistry reg fun site =>
    let r := site.registry
    let pes := r.topology.elim [] fun t => t.pes.take toldOwners
    .registryState r.state r.isUp r.outstanding (pes.map fun pe => (pe, r.owner? pe))

def describe (name : String) : Action := fun s =>
  let text : Option String :=
    match s.scope[name]? with
    | some (.registry id) => (s.world.site? id).map (·.registry.describe)
    | some (.vm h) => some h.describe
    | some (.communicator c) => some (s.world.fabric.describe c)
    | some (.endpoint e) => some (e.describe s.world.fabric)
    | some (.plan p _) => some p.describe
    | _ => none
  (text.elim (.missing name) .text, s)

/-! ### VMs and views -/

def showPet (vm : String) (pet : Nat) : Action := fun s =>
  match s.scope[vm]? with
  | some (.vm h) => (answerOf .pet (h.vm.directory.record pet), s)
  | some (.view d) => (answerOf .viewPet (d.record pet), s)
  | _ => (.missing vm, s)

def vmInfo (vm : String) : Action :=
  withVm vm fun h => answering fun s =>
    .vmInfo (s.world.vmStatus h) (h.vm.communicator.same h.vm.communicator)

def matchAll (vm : String) (pet : Nat) (other : String) : Action :=
  withVm vm fun h => withDirectory other fun d => answering fun _ =>
    answerOf .pets (h.vm.directory.matchAll pet d)

def matchInto (vm : String) (pet : Nat) (other : String) (capacity : Nat) : Action :=
  withDirectory vm fun a => withDirectory other fun b => answering fun _ =>
    let (r, written) := a.matchInto some pet b (List.replicate capacity none)
    .buffer written r

/-- The records of several VMs one after the other. -/
def gatherRecords (scope : Scope) : List String → Except String (List PetRecord)
  | [] => .ok []
  | name :: names =>
    match scope.vm? name with
    | none => .error name
    | some h => (gatherRecords scope names).map (h.vm.pets ++ ·)

def makeView (as : String) (vms : List String) (id : Nat) : Action := fun s =>
  match gatherRecords s.scope vms with
  | .error name => (.missing name, s)
  | .ok records =>
    let d : PetDirectory := ⟨id, records⟩
    (.view d.petCount d.peCount, store inner as (.view d) s)

/-! ### Children -/

def makePlan (vm : String) (count : Nat) (policy : SpawnPolicy) (as : String) : Action :=
  withVm vm fun h s =>
    match built : SpawnPlan.build h count policy with
    | .error e => (.refused e, s)
    | .ok p => (.plan p, store inner as (.plan p (.of_build built)) s)

def planSlot (plan : String) (slot : Nat) : Action :=
  withPlan plan fun p => answering fun _ =>
    .planSlot (p.partition? slot) (p.state? slot) (p.childPetCount? slot)

/-- Launches the children of a plan, which is used up whether they can be launched or not. -/
def startup (frame : Frame) (reg plan as : String) (entry : List (List Step))
    (cargo : Json.Value) : Action :=
  withRegistry reg fun id => withPlan plan fun p s =>
    let s := { s with scope := s.scope.erase plan }
    match actOnSite id (Site.startup .ample frame.context p) s with
    | (.error e, s) => (.refused (tell frame.context e), s)
    | (.ok spawned, s) =>
      let kids := kidsOf s.world.process.entered spawned s.scope entry cargo
      let (key, world) := s.world.addKids kids
      (.kids (world.kidsStatus spawned), store inner as (.kids key) { s with world })

/-- Answers about children. -/
def askKids (name : String) (ask : World → Kids → Answer) : Action :=
  withKids name fun key => answering fun s =>
    match s.world.kids? key with
    | some k => ask s.world k
    | none => .missing name

def showKids (name : String) : Action :=
  askKids name fun w k => .kids (w.kidsStatus k.spawned)

def showChild (name : String) (slot : Nat) (as : Option String) : Action :=
  withKids name fun key s =>
    match (s.world.kids? key).bind fun k => (k.spawned.child? slot).map fun c => (k, c) with
    | none => (.child none, s)
    | some (k, c) =>
      (.child (some (s.world.childStatus k.spawned c)), storeAs inner as (.vm c.handle) s)

def releaseKids (name : String) : Action :=
  withKids name fun key s => (.ok, { s with world := release inner key s.world })

def joinKids (name : String) (adopt : List String) : Action :=
  withKids name fun key s => join inner key adopt { s with scope := s.scope.erase name }

def dropNamed (name : String) : Action := fun s =>
  match s.scope[name]? with
  | none => (.missing name, s)
  | some object =>
    (.ok, { scope := s.scope.erase name, world := dropObject inner object s.world })

def nestChildren (frame : Frame) (reg vm : String) (levels : Nat) (policy : SpawnPolicy) :
    Action :=
  withRegistry reg fun id => withVm vm fun h s =>
    let (items, world) := nest id policy levels frame.context h s.world
    (.nest items, { s with world })

/-! ### Transports and communicators -/

/-- Answers with a communicator and names it. -/
def gotCommunicator (as : String) (c : Communicator) : Action := fun s =>
  (.communicator c (s.world.fabric.isClosed c), store inner as (.communicator c) s)

/-- Answers with an endpoint and names it. -/
def gotEndpoint (as : String) (r : Except TransportError Endpoint) : Action := fun s =>
  match r with
  | .error e => (.transportRefused e, s)
  | .ok e => (.endpoint e (s.world.fabric.isClosed e.communicator), store inner as (.endpoint e) s)

def makeTransport (as : String) (b : Backend) : Action := fun s =>
  let (key, world) := s.world.addTransport b
  (.text (world.process.net.transportName key), store inner as (.transport key) { s with world })

/-- A call that makes a communicator. -/
def transportMake (as : String) (key : Nat)
    (call : Transport Network → Network → Reply Network Communicator) : Action := fun s =>
  match s.world.onTransport key call with
  | (.error e, world) => (.transportRefused e, { s with world })
  | (.ok c, world) => gotCommunicator inner as c { s with world }

/-- A call that makes nothing. -/
def transportCall (transport comm : String)
    (call : Communicator → Transport Network → Network → Reply Network Unit) : Action :=
  withTransport transport fun key => withCommunicator comm fun c s =>
    let (r, world) := s.world.onTransport key (call c)
    (transportAnswerOf (fun _ => .ok) r, { s with world })

def showCalls (transport : String) : Action :=
  withTransport transport fun key => answering fun s =>
    match s.world.process.net.backend key with
    | .loopback t => .liveCount t.liveCount
    | .scripted t => .calls t.calls

def freshCommunicator (as : String) (id size : Nat) : Action := fun s =>
  let (c, fabric) := s.world.fabric.allocate id size
  gotCommunicator inner as c { s with world := s.world.setFabric fabric }

/-- Something that an endpoint does. -/
def onEndpoint {α : Type} (ep : String) (toAnswer : α → Answer)
    (act : Endpoint → Fabric → Except TransportError α × Fabric) : Action :=
  withEndpoint ep fun e s =>
    let (r, fabric) := act e s.world.fabric
    (transportAnswerOf toAnswer r, { s with world := s.world.setFabric fabric })

/-- A message, or that there is none. -/
def showEnvelope (e : Option Envelope) : Answer := e.elim .absent .envelope

/-- What a waiting endpoint receives when the communicator is released meanwhile. -/
def receiveWhileReleasing (ep transport comm : String) : Action :=
  withEndpoint ep fun e => withTransport transport fun key => withCommunicator comm fun c s =>
    let (first, fabric) := e.receive s.world.fabric
    let (_, world) := (s.world.setFabric fabric).onTransport key fun t => t.release c
    match first with
    | .ok none =>
      let (second, fabric) := e.receive world.fabric
      (transportAnswerOf showEnvelope second, { s with world := world.setFabric fabric })
    | first => (transportAnswerOf showEnvelope first, { s with world })

end VirtualTopology.Session
