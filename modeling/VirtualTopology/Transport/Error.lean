/-!
# Errors of transports

## Main definitions

- `TransportError` and `TransportError.message`.
-/

namespace VirtualTopology

/-- Why a transport or a communicator refused a call. -/
inductive TransportError where
  /-- The transport cannot be reached. -/
  | unavailable (reason : String)
  /-- A communicator of this size cannot be made. -/
  | invalidSize (size max : Nat)
  /-- The communicator has no such rank. -/
  | invalidRank (rank size : Nat)
  /-- The communicator was closed. -/
  | closed (communicator : Nat)
deriving DecidableEq, Repr, Inhabited

/-- The sentence an error is reported with. -/
def TransportError.message : TransportError → String
  | unavailable reason => s!"Transport unavailable: {reason}"
  | invalidSize size max => s!"Invalid communicator size {size} (max {max})"
  | invalidRank rank size => s!"Rank {rank} out of range for communicator of size {size}"
  | closed communicator => s!"Communicator {communicator} is closed"

/-- The name of the cause in reports. -/
def TransportError.kind : TransportError → String
  | unavailable _ => "unavailable"
  | invalidSize .. => "invalid_size"
  | invalidRank .. => "invalid_rank"
  | closed _ => "closed"

end VirtualTopology
