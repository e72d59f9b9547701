import VirtualTopology.Transport.Fabric

/-!
# Transports

A transport makes and takes back communicators. Registries use one through four calls and learn
nothing else about it, so everything they promise is promised over any transport.

## Main definitions

- `Transport`: a name and the four calls, over the state the transport lives in.
- `Reply`: the answer of a call together with the state after it.
-/

namespace VirtualTopology

/-- The answer of a call together with the state after it. -/
abbrev Reply (σ α : Type) := Except TransportError α × σ

/-- A message-passing transport over a state `σ`. -/
structure Transport (σ : Type) where
  name : String
  /-- Brings up the world communicator of `size` ranks. -/
  init (size : Nat) (s : σ) : Reply σ Communicator
  /-- Derives a communicator of `size` ranks for a child. -/
  derive (parent : Communicator) (size : Nat) (s : σ) : Reply σ Communicator
  /-- Takes back a derived communicator. -/
  release (c : Communicator) (s : σ) : Reply σ Unit
  /-- Shuts the world communicator down. -/
  finalize (world : Communicator) (s : σ) : Reply σ Unit

end VirtualTopology
