import VirtualTopology.Limits
import VirtualTopology.Transport.Basic

/-!
# The local transport

The transport for PETs of one process. It numbers its communicators from one and keeps a table of
those that are live.

## Main definitions

- `LocalTransport`: the next number and the table.
- `LocalTransport.transport`: the four calls, over the transport and the fabric.

Releasing goes by number: the communicator that the table holds under the number of the argument
is closed. Finalizing closes whatever the table holds.
-/

namespace VirtualTopology

/-- A transport within one process. -/
structure LocalTransport where
  /-- The number of the next communicator. -/
  next : Nat := 1
  /-- The communicators that were neither released nor shut down, oldest first. -/
  live : List Communicator := []
deriving DecidableEq, Repr, Inhabited

namespace LocalTransport

/-- The number of communicators that are live. -/
def liveCount (t : LocalTransport) : Nat := t.live.length

/-- The live communicator of a number. -/
def find? (t : LocalTransport) (id : Nat) : Option Communicator := t.live.find? (·.id == id)

/-- Whether a communicator may have this many ranks. -/
def validSize (size : Nat) : Bool := 1 ≤ size && size ≤ Limits.maxCommunicatorSize

/-- Makes a communicator; a refused size uses up no number. -/
def create (size : Nat) : Fabric × LocalTransport → Reply (Fabric × LocalTransport) Communicator
  | (f, t) =>
    if validSize size then
      let (c, f) := f.allocate t.next size
      (.ok c, f, { next := t.next + 1, live := t.live ++ [c] })
    else (.error (.invalidSize size Limits.maxCommunicatorSize), f, t)

/-- Makes a communicator for a child; a closed parent is noticed before a wrong size. -/
def derive (parent : Communicator) (size : Nat) :
    Fabric × LocalTransport → Reply (Fabric × LocalTransport) Communicator
  | (f, t) => if f.isClosed parent then (.error (.closed parent.id), f, t) else create size (f, t)

/-- Closes the live communicator that has the number of `c` and forgets it. -/
def release (c : Communicator) : Fabric × LocalTransport → Reply (Fabric × LocalTransport) Unit
  | (f, t) =>
    match t.find? c.id with
    | none => (.ok (), f, t)
    | some found => (.ok (), f.close found, { t with live := t.live.filter (·.id != c.id) })

/-- Closes every live communicator, unless `world` is closed already. -/
def finalize (world : Communicator) :
    Fabric × LocalTransport → Reply (Fabric × LocalTransport) Unit
  | (f, t) =>
    if f.isClosed world then (.error (.closed world.id), f, t)
    else (.ok (), f.closeAll t.live, { t with live := [] })

/-- The calls of the local transport. -/
def transport : Transport (Fabric × LocalTransport) where
  name := "local"
  init := create
  derive := derive
  release := release
  finalize := finalize

end LocalTransport

end VirtualTopology
