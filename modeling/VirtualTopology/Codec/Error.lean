import VirtualTopology.Json.Record
import VirtualTopology.Transport.Error
import VirtualTopology.VmError

/-!
# Errors in JSON

An error is written as its tag and its details, two members that may come in either order or as
the two items of an array. Details that come before the tag are held back until it is known.

## Main definitions

- `Json.Value.tagged`: the tag and the details of a value.
- `VmError.toJson`, `TransportError.toJson` and the readers beside them.
- `ErrorReport`: the kind and the message of an error alone.
-/

namespace VirtualTopology

open Json

/-- The names of the two members. -/
def tagName : Option String := some "error_type"
def detailsName : Option String := some "details"

/-- A tag with details. -/
def tagWith (tag : String) (details : Value) : Value :=
  .record [("error_type", .text tag), ("details", details)]

/-- Whether the details come first among the members that matter. -/
def detailsFirst (members : List (Option String × Value)) : Bool :=
  (members.map (·.1)).find? (fun name => name == tagName || name == detailsName) == detailsName

/-- The tag of a value and its details, if it has any. In an object the tag is read as a choice;
in an array it is a string. -/
def Json.Value.tagged : Value → Option (String × Option Value)
  | .object members => do
    guard (members.all (·.1.isSome))
    let tag ← (← only? members "error_type").bind Value.choice
    let details ← only? members "details"
    guard (!detailsFirst members || details.all (·.fitsBuffer (nestingLimit - 1)))
    return (tag, details)
  | .array [tag, details] => do return (← tag.name, some details)
  | _ => none

/-- The fields of details that are an object. -/
def Json.Value.detailFields (names : List String) : Option Value → Option (List (Option Value))
  | some (.object members) => (Value.object members).fields names
  | _ => none

namespace TransportError

def toJson : TransportError → Value
  | unavailable reason => tagWith "unavailable" (.text reason)
  | invalidSize size max =>
    tagWith "invalid_size" (.record [("size", .nat size), ("max", .nat max)])
  | invalidRank rank size =>
    tagWith "invalid_rank" (.record [("rank", .nat rank), ("size", .nat size)])
  | closed communicator => tagWith "closed" (.nat communicator)

/-- Reads the details that belong to a tag. -/
def ofTag? (tag : String) (details : Option Value) : Option TransportError :=
  match tag with
  | "unavailable" => do return unavailable (← required Value.name details)
  | "invalid_size" => do
    let [size, max] ← Value.detailFields ["size", "max"] details | none
    return invalidSize (← required Value.word size) (← required Value.word max)
  | "invalid_rank" => do
    let [rank, size] ← Value.detailFields ["rank", "size"] details | none
    return invalidRank (← required Value.word rank) (← required Value.word size)
  | "closed" => do return closed (← required Value.word details)
  | _ => none

def ofJson? (v : Value) : Option TransportError := do
  let (tag, details) ← v.tagged
  ofTag? tag details

end TransportError

namespace VmError

/-- The tag an error is written with. -/
def tag : VmError → String
  | configuration _ => "config"
  | e => e.kind

/-- The details an error is written with; none if it has no more to say than its tag. -/
def details : VmError → Option Value
  | alreadyInitialized global => some (.record [("global", .nat global)])
  | notInitialized => none
  | transportInit reason => some (.text reason)
  | noContext context => some (.record [("context", .text context)])
  | outOfRange vm pet petCount =>
    some (.record [("vm", .nat vm), ("pet", .nat pet), ("pet_count", .nat petCount)])
  | bufferTooSmall needed capacity =>
    some (.record [("needed", .nat needed), ("capacity", .nat capacity)])
  | insufficientResources requested available =>
    some (.record [("requested", .nat requested), ("available", .nat available)])
  | invalidSpawnCount count => some (.nat count)
  | launch slot reason => some (.record [("slot", .nat slot), ("reason", .text reason)])
  | entryPanicked slot pet message =>
    some (.record [("slot", .nat slot), ("pet", .nat pet), ("message", .text message)])
  | outstandingChildren count => some (.record [("count", .nat count)])
  | configuration reason => some (.text reason)

def toJson (e : VmError) : Value :=
  match e.details with
  | some details => tagWith e.tag details
  | none => .record [("error_type", .text e.tag)]

/-- Reads the details that belong to a tag. -/
def ofTag? (tag : String) (details : Option Value) : Option VmError :=
  match tag with
  | "already_initialized" => do
    let [global] ← Value.detailFields ["global"] details | none
    return alreadyInitialized (← required Value.word global)
  | "not_initialized" =>
    match details with
    | none | some .null => some notInitialized
    | _ => none
  | "transport_init" => do return transportInit (← required Value.name details)
  | "no_context" => do
    let [context] ← Value.detailFields ["context"] details | none
    return noContext (← required Value.name context)
  | "out_of_range" => do
    let [vm, pet, petCount] ← Value.detailFields ["vm", "pet", "pet_count"] details | none
    return outOfRange (← required Value.word vm) (← required Value.word pet)
      (← required Value.word petCount)
  | "buffer_too_small" => do
    let [needed, capacity] ← Value.detailFields ["needed", "capacity"] details | none
    return bufferTooSmall (← required Value.word needed) (← required Value.word capacity)
  | "insufficient_resources" => do
    let [requested, available] ← Value.detailFields ["requested", "available"] details | none
    return insufficientResources (← required Value.word requested)
      (← required Value.word available)
  | "invalid_spawn_count" => do return invalidSpawnCount (← required Value.word details)
  | "launch_error" => do
    let [slot, reason] ← Value.detailFields ["slot", "reason"] details | none
    return launch (← required Value.word slot) (← required Value.name reason)
  | "entry_panicked" => do
    let [slot, pet, message] ← Value.detailFields ["slot", "pet", "message"] details | none
    return entryPanicked (← required Value.word slot) (← required Value.word pet)
      (← required Value.name message)
  | "outstanding_children" => do
    let [count] ← Value.detailFields ["count"] details | none
    return outstandingChildren (← required Value.word count)
  | "config" => do return configuration (← required Value.name details)
  | _ => none

def ofJson? (v : Value) : Option VmError := do
  let (tag, details) ← v.tagged
  ofTag? tag details

end VmError

/-- The kind and the message of an error. -/
structure ErrorReport where
  kind : String
  message : String
deriving DecidableEq, Repr, Inhabited

/-- The report of an error. -/
def VmError.report (e : VmError) : ErrorReport := ⟨e.kind, e.message⟩

def ErrorReport.toJson (r : ErrorReport) : Value :=
  .record [("error_type", .text r.kind), ("message", .text r.message)]

def ErrorReport.ofJson? (v : Value) : Option ErrorReport := do
  let [kind, message] ← v.fields ["error_type", "message"] | none
  return ⟨← required Value.name kind, ← required Value.name message⟩

end VirtualTopology
