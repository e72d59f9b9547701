import VirtualTopology.Pe

/-!
# Spawn policies

How the processing elements of a child become its PETs.

## Main definitions

- `SpawnPolicy`: one PET for each processing element, or one for each image.
- `SpawnPolicy.petGroups`: the processing elements of each PET.
-/

namespace VirtualTopology

/-- How processing elements become PETs. -/
inductive SpawnPolicy where
  /-- One PET for each processing element. -/
  | maxThreads
  /-- One PET for each image, with all of the child's processing elements on it. -/
  | maxPes
deriving DecidableEq, Repr, Inhabited

namespace SpawnPolicy

/-- Puts a processing element into the group of its image, or into a new last group. -/
def insertByImage (pe : Pe) : List (List Pe) → List (List Pe)
  | [] => [[pe]]
  | g :: gs =>
    if (g.head?.map Pe.image) = some pe.image then (g ++ [pe]) :: gs
    else g :: insertByImage pe gs

/-- The processing elements of each PET, in PET order. -/
def petGroups : SpawnPolicy → List Pe → List (List Pe)
  | maxThreads, pes => pes.map fun pe => [pe]
  | maxPes, pes => pes.foldl (fun groups pe => insertByImage pe groups) []

/-- Whether children permit threads within a PET: where a PET has several cores. -/
def threadCompat : SpawnPolicy → Bool
  | maxThreads => false
  | maxPes => true

/-- The name of a policy in descriptions. -/
def label : SpawnPolicy → String
  | maxThreads => "MaxThreads"
  | maxPes => "MaxPes"

/-- The name of a policy in reports. -/
def name : SpawnPolicy → String
  | maxThreads => "max_threads"
  | maxPes => "max_pes"

end SpawnPolicy

end VirtualTopology
