import VirtualTopology.Environment
import VirtualTopology.Limits
import VirtualTopology.Text.Count
import VirtualTopology.Text.Quoted
import VirtualTopology.Topology
import VirtualTopology.VmError

/-!
# Discovery of the host

What the host looks like is found out once per bring-up: the number of cores that were detected,
split evenly across the images, unless the configuration says otherwise.

## Main definitions

- `DiscoveryConfig`: overrides, built up field by field or read from the environment.
- `ConfigFault`: why a configuration cannot be used.
- `DiscoveryConfig.validate`, `DiscoveryConfig.ofEnvironment`.
- `DiscoveryConfig.discover`: the topology for a number of detected cores.
-/

namespace VirtualTopology

/-- Overrides of what is detected. -/
structure DiscoveryConfig where
  /-- The number of images; one if not given. -/
  images : Option Nat := none
  /-- The cores of each image; an even share of those detected if not given. -/
  pesPerImage : Option Nat := none
  /-- Whether the Global VM permits threads within a PET. -/
  threadCompat : Bool := false
deriving DecidableEq, Repr, Inhabited

/-- Why a configuration cannot be used. -/
inductive ConfigFault where
  | imagesOutOfRange (images : Nat)
  | pesOutOfRange (pes : Nat)
  /-- The text of a setting is no count. -/
  | notACount (setting : Setting) (raw : String) (fault : Text.CountFault)
deriving DecidableEq, Repr

/-- The wording of a fault. -/
def ConfigFault.message : ConfigFault → String
  | imagesOutOfRange n => s!"images must be in 1..={Limits.maxImages}, got {n}"
  | pesOutOfRange n => s!"pes_per_image must be in 1..={Limits.maxPesPerImage}, got {n}"
  | notACount setting raw fault => setting.name ++ "=" ++ Text.quote raw ++ ": " ++ fault.message

/-- A configuration that cannot be used, as an error of the topology layer. -/
def ConfigFault.toVmError (fault : ConfigFault) : VmError := .configuration fault.message

namespace DiscoveryConfig

def withImages (c : DiscoveryConfig) (n : Nat) : DiscoveryConfig := { c with images := some n }

def withPesPerImage (c : DiscoveryConfig) (n : Nat) : DiscoveryConfig :=
  { c with pesPerImage := some n }

def withThreadCompat (c : DiscoveryConfig) (b : Bool) : DiscoveryConfig :=
  { c with threadCompat := b }

/-- Whether an override lies between one and a limit; no override is fine. -/
def inRange (limit : Nat) : Option Nat → Bool
  | none => true
  | some n => 1 ≤ n && n ≤ limit

/-- Checks the overrides against the limits, the number of images first. -/
def validate (c : DiscoveryConfig) : Except ConfigFault Unit :=
  if inRange Limits.maxImages c.images then
    if inRange Limits.maxPesPerImage c.pesPerImage then .ok ()
    else .error (.pesOutOfRange (c.pesPerImage.getD 0))
  else .error (.imagesOutOfRange (c.images.getD 0))

/-- The count a setting asks for, if it was made. -/
def countOf (env : Environment) (setting : Setting) : Except ConfigFault (Option Nat) :=
  match env.read? setting with
  | none => .ok none
  | some raw =>
    match Text.readCount raw with
    | .ok n => .ok (some n)
    | .error fault => .error (.notACount setting raw fault)

/-- Whether the text of a switch turns it on: `1`, or `true` in any case of its letters. -/
def isOn (raw : String) : Bool := raw == "1" || raw.toLower == "true"

/-- The overrides the environment asks for; a fault in the number of images comes first. -/
def ofEnvironment (env : Environment) : Except ConfigFault DiscoveryConfig :=
  match countOf env .images with
  | .error fault => .error fault
  | .ok images =>
    match countOf env .pesPerImage with
    | .error fault => .error fault
    | .ok pesPerImage =>
      .ok ⟨images, pesPerImage, (env.read? .threadCompat).elim false isOn⟩

/-- The cores of each image: as configured, or an even share of those detected within bounds. -/
def coresPerImage (c : DiscoveryConfig) (detected : Nat) : Nat :=
  c.pesPerImage.getD (max 1 (min (detected / c.images.getD 1) Limits.maxPesPerImage))

/-- The topology of a host with `detected` cores. -/
def discover (c : DiscoveryConfig) (detected : Nat) : Except ConfigFault Topology :=
  match c.validate with
  | .error fault => .error fault
  | .ok () => .ok (.uniform (c.images.getD 1) (c.coresPerImage detected) c.threadCompat)

end DiscoveryConfig

end VirtualTopology
