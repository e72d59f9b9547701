import VirtualTopology.Transport.Local

/-!
# Scripted transports

A transport whose answers are laid down in advance, for trying out how registries bear failures.
Each kind of call has a list of answers, taken one by one; without an answer the call goes to a
local transport of its own. Every call is written down.

## Main definitions

- `ScriptedAnswer`, `Script`: the answers laid down.
- `TransportCall`: a call as it was made.
- `ScriptedTransport.transport`: the four calls.
-/

namespace VirtualTopology

/-- What is laid down for one call. -/
inductive ScriptedAnswer where
  /-- Go on as the local transport does. -/
  | pass
  /-- Go on, but with another size. -/
  | resize (size : Nat)
  /-- Refuse and do nothing. -/
  | fail (e : TransportError)
deriving DecidableEq, Repr, Inhabited

/-- A call to a transport. -/
inductive TransportCall where
  | init (size : Nat)
  | derive (parent size : Nat)
  | release (id : Nat)
  | finalize (id : Nat)
deriving DecidableEq, Repr, Inhabited

/-- A call as it is written down. -/
def TransportCall.text : TransportCall → String
  | init size => s!"init {size}"
  | derive parent size => s!"derive {parent} {size}"
  | release id => s!"release {id}"
  | finalize id => s!"finalize {id}"

/-- The answers still to be given, by kind of call. -/
structure Script where
  init : List ScriptedAnswer := []
  derive : List ScriptedAnswer := []
  release : List ScriptedAnswer := []
  finalize : List ScriptedAnswer := []
deriving DecidableEq, Repr, Inhabited

/-- A transport with answers laid down in advance. -/
structure ScriptedTransport where
  script : Script := {}
  /-- The calls made so far, oldest first. -/
  calls : List TransportCall := []
  /-- The transport that calls without an answer go to. -/
  base : LocalTransport := {}
deriving DecidableEq, Repr, Inhabited

namespace ScriptedTransport

/-- Goes on with a call to the local transport. -/
def onBase {α : Type} (f : Fabric) (t : ScriptedTransport)
    (call : Fabric × LocalTransport → Reply (Fabric × LocalTransport) α) :
    Reply (Fabric × ScriptedTransport) α :=
  let (r, f, base) := call (f, t.base)
  (r, f, { t with base })

/-- Writes a call down. -/
def note (t : ScriptedTransport) (call : TransportCall) : ScriptedTransport :=
  { t with calls := t.calls ++ [call] }

/-- Gives a call its answer. The size of a call that has none is not changed. -/
def answer {α : Type} (a : Option ScriptedAnswer) (size : Nat)
    (call : Nat → Fabric × LocalTransport → Reply (Fabric × LocalTransport) α)
    (f : Fabric) (t : ScriptedTransport) : Reply (Fabric × ScriptedTransport) α :=
  match a with
  | some (.fail e) => (.error e, f, t)
  | some (.resize n) => onBase f t (call n)
  | some .pass | none => onBase f t (call size)

def init (size : Nat) :
    Fabric × ScriptedTransport → Reply (Fabric × ScriptedTransport) Communicator
  | (f, t) =>
    answer t.script.init.head? size LocalTransport.create f
      { t.note (.init size) with script.init := t.script.init.tail }

def derive (parent : Communicator) (size : Nat) :
    Fabric × ScriptedTransport → Reply (Fabric × ScriptedTransport) Communicator
  | (f, t) =>
    answer t.script.derive.head? size (LocalTransport.derive parent) f
      { t.note (.derive parent.id size) with script.derive := t.script.derive.tail }

def release (c : Communicator) :
    Fabric × ScriptedTransport → Reply (Fabric × ScriptedTransport) Unit
  | (f, t) =>
    answer t.script.release.head? 0 (fun _ => LocalTransport.release c) f
      { t.note (.release c.id) with script.release := t.script.release.tail }

def finalize (world : Communicator) :
    Fabric × ScriptedTransport → Reply (Fabric × ScriptedTransport) Unit
  | (f, t) =>
    answer t.script.finalize.head? 0 (fun _ => LocalTransport.finalize world) f
      { t.note (.finalize world.id) with script.finalize := t.script.finalize.tail }

/-- The calls of a scripted transport. -/
def transport : Transport (Fabric × ScriptedTransport) where
  name := "scripted"
  init := init
  derive := derive
  release := release
  finalize := finalize

end ScriptedTransport

end VirtualTopology
