import VirtualTopology.Transport.Scripted

/-!
# Networks

Several transports over one fabric. Registries may have a transport each or share one.

## Main definitions

- `Backend`: a local or a scripted transport.
- `Network`: the fabric and the transports on it.
- `Network.transport`: one of them, over the whole network.
-/

namespace VirtualTopology

/-- A transport of either kind. -/
inductive Backend where
  | loopback (t : LocalTransport)
  | scripted (t : ScriptedTransport)
deriving DecidableEq, Repr, Inhabited

/-- A fabric and the transports on it. -/
structure Network where
  fabric : Fabric := {}
  backends : Array Backend := #[]
deriving Inhabited

namespace Network

/-- Adds a transport and answers its position. -/
def add (n : Network) (b : Backend) : Nat × Network :=
  (n.backends.size, { n with backends := n.backends.push b })

/-- The transport at a position; a local one with nothing live where there is none. -/
def backend (n : Network) (key : Nat) : Backend := n.backends.getD key (.loopback {})

/-- Makes a call to the transport at a position. -/
def call {α : Type} (key : Nat)
    (onLocal : Fabric × LocalTransport → Reply (Fabric × LocalTransport) α)
    (onScripted : Fabric × ScriptedTransport → Reply (Fabric × ScriptedTransport) α)
    (n : Network) : Reply Network α :=
  match n.backend key with
  | .loopback t =>
    let (r, fabric, t) := onLocal (n.fabric, t)
    (r, { fabric, backends := n.backends.setIfInBounds key (.loopback t) })
  | .scripted t =>
    let (r, fabric, t) := onScripted (n.fabric, t)
    (r, { fabric, backends := n.backends.setIfInBounds key (.scripted t) })

/-- The name of the transport at a position. -/
def transportName (n : Network) (key : Nat) : String :=
  match n.backend key with
  | .loopback _ => LocalTransport.transport.name
  | .scripted _ => ScriptedTransport.transport.name

/-- The transport at a position, for use on this network and what becomes of it. -/
def transport (n : Network) (key : Nat) : Transport Network where
  name := n.transportName key
  init size := call key (LocalTransport.transport.init size) (ScriptedTransport.transport.init size)
  derive parent size :=
    call key (LocalTransport.transport.derive parent size)
      (ScriptedTransport.transport.derive parent size)
  release c := call key (LocalTransport.transport.release c) (ScriptedTransport.transport.release c)
  finalize world :=
    call key (LocalTransport.transport.finalize world)
      (ScriptedTransport.transport.finalize world)

end Network

end VirtualTopology
