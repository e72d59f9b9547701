import VirtualTopology.Discovery
import VirtualTopology.Json.Record
import VirtualTopology.Registry.Basic
import VirtualTopology.Spawn.Plan

/-!
# Hosts, plans and states in JSON

How processing elements, topologies, configurations, partitions and states are written as JSON
values and read back. A configuration leaves out what it does not override.

## Main definitions

- `Pe.toJson`, `Pe.ofJson?`, and the like for the other types.
-/

namespace VirtualTopology

open Json

def Pe.toJson (pe : Pe) : Value := .record [("image", .nat pe.image), ("core", .nat pe.core)]

def Pe.ofJson? (v : Value) : Option Pe := do
  let [image, core] ← v.fields ["image", "core"] | none
  return ⟨← required Value.word image, ← required Value.word core⟩

def Location.toJson (l : Location) : Value :=
  .record [("image", .nat l.image), ("thread", .nat l.thread)]

def Location.ofJson? (v : Value) : Option Location := do
  let [image, thread] ← v.fields ["image", "thread"] | none
  return ⟨← required Value.word image, ← required Value.word thread⟩

def Image.toJson (i : Image) : Value := .record [("id", .nat i.id), ("cores", .nat i.cores)]

def Image.ofJson? (v : Value) : Option Image := do
  let [id, cores] ← v.fields ["id", "cores"] | none
  return ⟨← required Value.word id, ← required Value.word cores⟩

def Topology.toJson (t : Topology) : Value :=
  .record [("images", .array (t.images.map Image.toJson)), ("thread_compat", .bool t.threadCompat)]

def Topology.ofJson? (v : Value) : Option Topology := do
  let [images, threadCompat] ← v.fields ["images", "thread_compat"] | none
  return ⟨← required (Value.listOf Image.ofJson?) images, ← required Value.flag threadCompat⟩

/-- A number that may be left out. -/
def natMember (name : String) (value : Option Nat) : List (String × Value) :=
  if isAbsent value then [] else [(name, .nat (value.getD 0))]

def DiscoveryConfig.toJson (c : DiscoveryConfig) : Value :=
  .record (natMember "images" c.images ++ natMember "pes_per_image" c.pesPerImage ++
    [("thread_compat", .bool c.threadCompat)])

def DiscoveryConfig.ofJson? (v : Value) : Option DiscoveryConfig := do
  let [images, pes, threadCompat] ← v.fields ["images", "pes_per_image", "thread_compat"] | none
  return ⟨← nullable Value.word images, ← nullable Value.word pes,
    ← orDefault false Value.flag threadCompat⟩

def Partition.toJson (p : Partition) : Value :=
  .record [("slot", .nat p.slot), ("pes", .array (p.pes.map Pe.toJson))]

def Partition.ofJson? (v : Value) : Option Partition := do
  let [slot, pes] ← v.fields ["slot", "pes"] | none
  return ⟨← required Value.word slot, ← required (Value.listOf Pe.ofJson?) pes⟩

def SpawnPolicy.toJson (p : SpawnPolicy) : Value := .text p.name

/-- The policy of a name. -/
def SpawnPolicy.ofName? (name : String) : Option SpawnPolicy :=
  [maxThreads, maxPes].find? (·.name == name)

def SpawnPolicy.ofJson? (v : Value) : Option SpawnPolicy := v.choice.bind ofName?

def ChildState.toJson (s : ChildState) : Value := .text s.name

def ChildState.ofJson? (v : Value) : Option ChildState :=
  v.choice.bind fun name => [planned, created, running, retired].find? (·.name == name)

def RegistryState.toJson (s : RegistryState) : Value := .text s.name

def RegistryState.ofJson? (v : Value) : Option RegistryState :=
  v.choice.bind fun name => [uninitialized, initialized, finalized].find? (·.name == name)

end VirtualTopology
