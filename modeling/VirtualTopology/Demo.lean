import VirtualTopology.Codec.Report
import VirtualTopology.Json.Printer
import VirtualTopology.Log
import VirtualTopology.Registry.Launch
import VirtualTopology.Registry.Lifecycle
import VirtualTopology.Transport.Network

/-!
# The demonstration

Brings the Global VM up, prints its report, spawns children over all of its processing elements,
prints theirs, and has every PET of a child find itself in the Global VM.

## Main definitions

- `Demo.Sighting`: what a PET finds out.
- `Demo.spawnCount`: how many children there are to be.
- `Demo.perform`: the exit code and the printed texts for an environment.
- `Demo.run`: the same with the log between the texts.
-/

namespace VirtualTopology.Demo

open Json

/-- What a PET finds out about itself. -/
structure Sighting where
  vm : Nat
  pet : Nat
  location : Location
  /-- The PETs of the Global VM at its location. -/
  globalPets : List Nat
deriving DecidableEq, Repr, Inhabited

def Sighting.toJson (s : Sighting) : Value :=
  .record [("vm", .nat s.vm), ("pet", .nat s.pet), ("image", .nat s.location.image),
    ("thread", .nat s.location.thread), ("global_pets", .array (s.globalPets.map Value.nat))]

/-- What the demonstration comes to by itself. -/
structure Outcome where
  exitCode : Nat
  /-- The texts that are printed. -/
  lines : List String
deriving DecidableEq, Repr, Inhabited

/-- What is left of a process that ran the demonstration. -/
structure Transcript where
  exitCode : Nat
  /-- What stands on the standard output. -/
  pieces : List Piece
deriving DecidableEq, Repr

/-- What was printed. -/
def Transcript.printed (t : Transcript) : List String := t.pieces.filterMap Piece.printed?

/-- What was logged. -/
def Transcript.logged (t : Transcript) : List String := t.pieces.filterMap Piece.logged?

/-- The standard output as one text. -/
def Transcript.output (t : Transcript) : String := String.join (t.pieces.map (·.text ++ "\n"))

/-- A VM's report, laid out over several lines. -/
def reportText (h : VmHandle) : String := h.report.toJson.pretty

/-- The number of children asked for, at least one and at most one for each of `available`
processing elements. -/
def spawnCount (env : Environment) (available : Nat) : Except Text.CountFault Nat :=
  match env.read? .demoSpawn with
  | none => .ok (max 1 (min Limits.defaultDemoSpawn available))
  | some raw =>
    match Text.readCount raw with
    | .error fault => .error fault
    | .ok requested => .ok (max 1 (min requested available))

/-- What the PET of a child finds out. -/
def locate {σ : Type} (s : Site σ) (h : VmHandle) : Except VmError Sighting := do
  let _ ← s.current (.pet h.vm.id h.localPet)
  let global ← s.registry.globalOrError
  let record ← h.vm.directory.record h.localPet
  let globalPets ← h.vm.directory.matchAll h.localPet global.vm.directory
  return ⟨h.vm.id, h.localPet, record.placement.location, globalPets⟩

/-- The PETs of a child. -/
def petsOf (c : LaunchedChild) : List VmHandle :=
  (List.range c.vm.petCount).map fun pet => ⟨c.vm, pet⟩

/-- The lines that the PETs of some children print; one that fails prints none. -/
def sightings {σ : Type} (s : Site σ) (children : List LaunchedChild) : List String :=
  (children.flatMap petsOf).filterMap fun h =>
    match locate s h with
    | .ok sighting => some sighting.toJson.compact
    | .error _ => none

/-- The part of the demonstration after the report of the Global VM, which is `shown`. -/
def spawnAndLocate {σ : Type} (env : Environment) (shown : List String) (global : VmHandle)
    (s : Site σ) : Outcome :=
  match spawnCount env global.vm.peCount with
  | .error _ => ⟨1, shown⟩
  | .ok count =>
    match SpawnPlan.build global count .maxThreads with
    | .error _ => ⟨1, shown⟩
    | .ok plan =>
      match s.startup .ample .main plan with
      | (.error _, _) => ⟨1, shown⟩
      | (.ok spawned, s) =>
        let lines := shown ++ spawned.children.map (fun c => reportText c.handle) ++
          sightings s spawned.children
        match (s.retireAll spawned.children).takeDown .main with
        | (.error _, _) => ⟨1, lines⟩
        | (.ok (), _) => ⟨0, lines⟩

/-- The demonstration for an environment and a number of detected cores. -/
def perform (env : Environment) (detected : Nat := Limits.fallbackPes) : Outcome :=
  match DiscoveryConfig.ofEnvironment env with
  | .error _ => ⟨1, []⟩
  | .ok config =>
    let (key, net) := Network.add {} (.loopback {})
    let site : Site Network :=
      { net, registry := { id := 1, transport := net.transport key, config, detected } }
    match site.bringUp .main with
    | (.error _, _) => ⟨1, []⟩
    | (.ok global, s) => spawnAndLocate env [reportText global] global s

/-- The demonstration in a process that keeps a log. -/
def run (env : Environment) (detected : Nat := Limits.fallbackPes) (log : Log := .silent) :
    Transcript :=
  let outcome := perform env detected
  ⟨outcome.exitCode, log.output env outcome.lines⟩

end VirtualTopology.Demo
