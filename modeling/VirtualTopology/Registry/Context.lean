import VirtualTopology.Vm.Basic

/-!
# Execution contexts

Every thread of execution carries its current VM per registry. A binding is made for one
bring-up of a registry and means nothing in the next.

## Main definitions

- `ExecutionContext`: the main thread, the thread of a PET, or any other thread.
- `Bindings`: the current VMs of all contexts; `bind`, `unbind`, `current?`.
-/

namespace VirtualTopology

/-- A thread of execution. -/
inductive ExecutionContext where
  | main
  /-- The thread that runs the entry of a child's PET. -/
  | pet (vm number : Nat)
  /-- Another thread, by the number that the process gave it when it was started. -/
  | thread (number : Nat) (name : Option String)
deriving DecidableEq, Repr, Inhabited

/-- The name of a context in messages; a thread without a name goes by its number. -/
def ExecutionContext.label : ExecutionContext → String
  | main => "main"
  | pet vm number => s!"petvm-{vm}-pet{number}"
  | thread _ (some name) => name
  | thread number none => s!"ThreadId({number})"

/-- The context that a PET runs in. -/
def VmHandle.context (h : VmHandle) : ExecutionContext := .pet h.vm.id h.localPet

/-- The current VM of a context in one bring-up of a registry. -/
structure Binding where
  context : ExecutionContext
  registry : Nat
  generation : Nat
  handle : VmHandle
deriving DecidableEq, Repr, Inhabited

/-- The bindings of all contexts, the latest first; it hides those made before it. -/
abbrev Bindings := List Binding

namespace Bindings

/-- The binding of a context for a registry. -/
def find (b : Bindings) (c : ExecutionContext) (registry : Nat) : Option Binding :=
  b.find? fun x => x.context = c && x.registry = registry

/-- The VM that a context is bound to in a bring-up of a registry. -/
def current? (b : Bindings) (c : ExecutionContext) (registry generation : Nat) :
    Option VmHandle :=
  ((b.find c registry).filter (·.generation = generation)).map Binding.handle

/-- Binds a context. -/
def bind (b : Bindings) (c : ExecutionContext) (registry generation : Nat) (h : VmHandle) :
    Bindings :=
  ⟨c, registry, generation, h⟩ :: b

/-- Takes the bindings of a context for a registry away. -/
def unbind (b : Bindings) (c : ExecutionContext) (registry : Nat) : Bindings :=
  b.filter fun x => !(x.context = c && x.registry = registry)

/-- Takes every binding of a context away, as when its thread ends. -/
def forget (b : Bindings) (c : ExecutionContext) : Bindings := b.filter fun x => x.context ≠ c

/-- A new binding decides for its context and registry, in its own bring-up only. -/
theorem current?_bind (b : Bindings) (c c' : ExecutionContext) (registry registry' : Nat)
    (generation generation' : Nat) (h : VmHandle) :
    (b.bind c registry generation h).current? c' registry' generation' =
      if c = c' ∧ registry = registry' then
        if generation = generation' then some h else none
      else b.current? c' registry' generation' := by
  by_cases hc : c = c' ∧ registry = registry'
  · by_cases hg : generation = generation' <;> simp [current?, find, bind, hc, hg, Option.filter]
  · simp [current?, find, bind, hc]

/-- A context of which all bindings were taken away is bound to nothing. -/
theorem current?_forget_self (b : Bindings) (c : ExecutionContext) (registry generation : Nat) :
    (b.forget c).current? c registry generation = none := by
  have h : (b.forget c).find c registry = none := by
    simp only [find, forget, List.find?_eq_none, List.mem_filter]
    intro x hx
    simp only [decide_eq_true_eq] at hx
    simp [hx.2]
  simp [current?, h]

end Bindings

end VirtualTopology
