import VirtualTopology.Registry.Basic

/-!
# Bringing a registry up and down

## Main definitions

- `Site.bringUp`: discovers the host, brings the transport up and publishes the Global VM.
- `Site.takeDown`: the reverse, refused while children are live.

A refused call changes nothing but the transport.
-/

namespace VirtualTopology.Site

variable {σ : Type}

/-- Brings up the Global VM and makes it the current VM of the calling context. -/
def bringUp (c : ExecutionContext) (s : Site σ) : Except VmError VmHandle × Site σ :=
  match s.registry.global with
  | some g => (.error (.alreadyInitialized g.vm.id), s)
  | none =>
    match s.registry.config.discover s.registry.detected with
    | .error fault => (.error fault.toVmError, s)
    | .ok topology =>
      match s.registry.transport.init topology.peCount s.net with
      | (.error e, net) => (.error (.transportInit e.message), { s with net })
      | (.ok world, net) =>
        let global : VmHandle := ⟨.ofTopology s.nextVm topology world, 0⟩
        let generation := s.registry.generation + 1
        (.ok global,
          { s with
            nextVm := s.nextVm + 1
            bindings := s.bindings.bind c s.registry.id generation global
            net
            registry :=
              { s.registry with
                state := .initialized
                generation
                global := some global
                topology := some topology
                owners := .allHeldBy s.nextVm topology.pes } })

/-- Takes the Global VM down. What the transport answers does not matter. -/
def takeDown (c : ExecutionContext) (s : Site σ) : Except VmError Unit × Site σ :=
  match s.registry.global with
  | none => (.error .notInitialized, s)
  | some global =>
    if s.registry.children.isEmpty then
      let (_, net) := s.registry.transport.finalize global.vm.communicator s.net
      (.ok (),
        { s with
          bindings := s.bindings.unbind c s.registry.id
          net
          registry :=
            { s.registry with
              state := .finalized, global := none, topology := none, owners := [] } })
    else (.error (.outstandingChildren s.registry.outstanding), s)

variable {c : ExecutionContext} {s s' : Site σ}

/-- A registry that is brought up was down, found its host and got a world communicator. -/
theorem bringUp_eq_ok {global : VmHandle} (h : s.bringUp c = (.ok global, s')) :
    s.registry.global = none ∧ ∃ t world net,
      s.registry.config.discover s.registry.detected = .ok t ∧
      s.registry.transport.init t.peCount s.net = (.ok world, net) ∧
      global = ⟨.ofTopology s.nextVm t world, 0⟩ ∧
      s' = { s with
        nextVm := s.nextVm + 1
        bindings := s.bindings.bind c s.registry.id (s.registry.generation + 1) global
        net
        registry :=
          { s.registry with
            state := .initialized
            generation := s.registry.generation + 1
            global := some global
            topology := some t
            owners := .allHeldBy s.nextVm t.pes } } := by
  unfold bringUp at h
  split at h
  · simp at h
  · next hglobal =>
    split at h
    · simp at h
    · next t hfound =>
      split at h
      · simp at h
      · next world net hinit =>
        obtain ⟨hhandle, rfl⟩ := Prod.mk.inj h
        obtain rfl := Except.ok.inj hhandle
        exact ⟨hglobal, t, world, net, hfound, hinit, rfl, rfl⟩

/-- A registry that is not brought up has done nothing, or has asked its transport in vain. -/
theorem bringUp_eq_error {e : VmError} (h : s.bringUp c = (.error e, s')) :
    s' = s ∨ ∃ size refusal net, s.registry.transport.init size s.net = (.error refusal, net) ∧
      s' = { s with net } := by
  unfold bringUp at h
  split at h
  · exact Or.inl (Prod.mk.inj h).2.symm
  · split at h
    · exact Or.inl (Prod.mk.inj h).2.symm
    · split at h
      · next refusal net hinit =>
        exact Or.inr ⟨_, refusal, net, hinit, (Prod.mk.inj h).2.symm⟩
      · simp at h

end VirtualTopology.Site
