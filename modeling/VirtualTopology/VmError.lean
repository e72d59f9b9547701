/-!
# Errors of the topology layer

## Main definitions

- `VmError`: what can go wrong, by cause.
- `VmError.message`, `VmError.kind`, `VmError.code`, `VmError.help`: how it is reported.
- `VmError.isRecoverable`: whether the caller can try again.
-/

namespace VirtualTopology

/-- Why an operation on VMs or registries was refused. -/
inductive VmError where
  /-- The registry has a Global VM already. -/
  | alreadyInitialized (global : Nat)
  /-- The registry has no Global VM. -/
  | notInitialized
  /-- The transport could not be brought up. -/
  | transportInit (reason : String)
  /-- The caller's execution context is bound to no VM. -/
  | noContext (context : String)
  /-- The VM has no PET of this number. -/
  | outOfRange (vm pet petCount : Nat)
  /-- More PETs match than the buffer holds. -/
  | bufferTooSmall (needed capacity : Nat)
  /-- More children are asked for than there are processing elements. -/
  | insufficientResources (requested available : Nat)
  /-- A plan for no children. -/
  | invalidSpawnCount (count : Nat)
  /-- A child could not be launched. -/
  | launch (slot : Nat) (reason : String)
  /-- The entry of a PET panicked. -/
  | entryPanicked (slot pet : Nat) (message : String)
  /-- Children of the registry are not retired. -/
  | outstandingChildren (count : Nat)
  /-- The configuration cannot be used. -/
  | configuration (reason : String)
deriving DecidableEq, Repr, Inhabited

namespace VmError

/-- The sentence an error is reported with. -/
def message : VmError → String
  | alreadyInitialized global => s!"Registry already initialized (global VM {global})"
  | notInitialized => "Registry not initialized"
  | transportInit reason => s!"Transport initialization failed: {reason}"
  | noContext context => "No VM registered for execution context '" ++ context ++ "'"
  | outOfRange vm pet petCount => s!"PET {pet} out of range (VM {vm} has {petCount} PETs)"
  | bufferTooSmall needed capacity =>
    s!"Match buffer too small: {needed} matches, capacity {capacity}"
  | insufficientResources requested available =>
    s!"Insufficient resources: {requested} children requested, {available} PEs available"
  | invalidSpawnCount count => s!"Invalid spawn count: {count}"
  | launch slot reason => s!"Launch of child slot {slot} failed: {reason}"
  | entryPanicked slot pet message =>
    s!"Entry function panicked on PET {pet} of child slot {slot}: {message}"
  | outstandingChildren count => s!"{count} spawned child VMs not retired"
  | configuration reason => s!"Configuration error: {reason}"

/-- The name of the cause in reports. -/
def kind : VmError → String
  | alreadyInitialized _ => "already_initialized"
  | notInitialized => "not_initialized"
  | transportInit _ => "transport_init"
  | noContext _ => "no_context"
  | outOfRange .. => "out_of_range"
  | bufferTooSmall .. => "buffer_too_small"
  | insufficientResources .. => "insufficient_resources"
  | invalidSpawnCount _ => "invalid_spawn_count"
  | launch .. => "launch_error"
  | entryPanicked .. => "entry_panicked"
  | outstandingChildren _ => "outstanding_children"
  | configuration _ => "configuration_error"

/-- The code of the cause in diagnostics. -/
def code (e : VmError) : String := "vm::" ++ e.kind

/-- What the caller may do about it. -/
def help : VmError → Option String
  | alreadyInitialized _ => some "Call finalize() before initializing the registry again."
  | notInitialized => some "Call initialize() to bring up the global VM first."
  | transportInit _ =>
    some ("No global VM can exist without a working transport. " ++
      "Check the transport configuration.")
  | noContext _ =>
    some ("Only the initializing thread and threads launched by startup() " ++
      "have a current VM.")
  | outOfRange .. => some "PET ids are dense in [0, pet_count)."
  | bufferTooSmall .. =>
    some ("The first `capacity` matches were written. " ++
      "Retry with a buffer of at least `needed` entries.")
  | insufficientResources .. => some "Each spawned child needs at least one processing element."
  | invalidSpawnCount _ => some "A spawn plan needs at least one child."
  | launch .. =>
    some ("No child of this plan was left running. " ++
      "Retry once the conflicting spawn has retired.")
  | entryPanicked .. => none
  | outstandingChildren _ => some "Join every Spawned handle before finalizing the registry."
  | configuration _ =>
    some ("Invalid configuration. " ++
      "Review PETVM_* environment variables and builder parameters.")

/-- Only a transport that does not come up leaves the caller nothing to try. -/
def isRecoverable : VmError → Bool
  | transportInit _ => false
  | _ => true

end VmError

end VirtualTopology
