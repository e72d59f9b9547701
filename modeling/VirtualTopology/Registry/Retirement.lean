import VirtualTopology.Registry.Basic

/-!
# Retirement

A child whose PETs have ended gives its processing elements back to its parent and its
communicator back to the transport. Children of its own that are still live become children of
its parent, so that theirs go there in the end.

## Main definitions

- `LaunchedChild`, `Spawned`: the children of one launch, as the caller holds them.
- `Site.retire`, `Site.retireAll`.
-/

namespace VirtualTopology

/-- A child as the one who launched it holds it. -/
structure LaunchedChild where
  partition : Partition
  vm : Vm
deriving DecidableEq, Repr, Inhabited

/-- The handle of a child from its first PET. -/
def LaunchedChild.handle (c : LaunchedChild) : VmHandle := ⟨c.vm, 0⟩

/-- The children of one launch, in slot order. -/
structure Spawned where
  /-- The registry they were launched through. -/
  registry : Nat
  children : List LaunchedChild
deriving DecidableEq, Repr, Inhabited

namespace Spawned

/-- The child of a slot. -/
def child? (s : Spawned) (slot : Nat) : Option LaunchedChild :=
  s.children.find? (·.partition.slot == slot)

/-- The ids of the children in slot order. -/
def vmIds (s : Spawned) : List Nat := s.children.map (·.vm.id)

end Spawned

/-- Children of a retired VM become children of its parent. -/
def ChildRecord.reparent (vm parent : Nat) (r : ChildRecord) : ChildRecord :=
  if r.parent = vm then { r with parent } else r

namespace Site

variable {σ : Type}

/-- Forgets a child and gives back what it held. A child that is not known is left alone. -/
def retire (s : Site σ) (vm : Vm) : Site σ :=
  match s.registry.child? vm.id with
  | none => s
  | some r =>
    let (_, net) := s.registry.transport.release vm.communicator s.net
    { s with
      net
      registry :=
        { s.registry with
          owners := s.registry.owners.release vm.id r.parent r.pes
          children :=
            (s.registry.children.filter (·.vm != vm.id)).map
              (ChildRecord.reparent vm.id r.parent) } }

/-- Retires children one after the other. -/
def retireAll (s : Site σ) (children : List LaunchedChild) : Site σ :=
  children.foldl (fun s c => s.retire c.vm) s

/-- The state of the child of a slot, as its registry knows it. -/
def spawnedState? (s : Site σ) (spawned : Spawned) (slot : Nat) : Option ChildState :=
  (spawned.child? slot).map fun c => (s.registry.childState? c.vm.id).getD .retired

end Site

end VirtualTopology
