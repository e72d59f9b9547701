import VirtualTopology.Proofs.Contexts
import VirtualTopology.Proofs.Renaming
import VirtualTopology.Proofs.Sparing

/-!
# Registries that mirror each other

A registry learns of the process around it in three ways only: by the ids it is given for new VMs,
by the bindings for itself, and by the answers of its transport. So two registries, in different
processes and over different transports, that agree in these up to a renaming give the same answers
to the same calls, up to the renaming, and agree again afterwards.

## Main definitions

- `Transport.Alike`: two transports that give the same answers.
- `Site.Mirrors`: a registry in its process, and a registry that is the same with ids renamed.
- `Site.threadsOf`: how many threads a startup asks the host for.

## Main statements

- `Site.Mirrors.current`, `Site.Mirrors.bringUp`, `Site.Mirrors.takeDown`, `Site.Mirrors.startup`,
  `Site.Mirrors.retire`: every operation gives the same answer, and the registries still mirror
  each other.
-/

namespace VirtualTopology

variable {σ τ : Type} {R : σ → τ → Prop}

/-! ### Transports -/

/-- The same answer, and states that correspond. -/
def Reply.Alike {α : Type} (R : σ → τ → Prop) (r : Reply σ α) (r' : Reply τ α) : Prop :=
  r.1 = r'.1 ∧ R r.2 r'.2

theorem Reply.Alike.of_eq {α : Type} {r : Reply σ α} {r' : Reply τ α}
    {answer : Except TransportError α} {n : σ} (h : Reply.Alike R r r') (hr : r = (answer, n)) :
    ∃ n', r' = (answer, n') ∧ R n n' := by
  subst hr
  exact ⟨r'.2, Prod.ext h.1.symm rfl, h.2⟩

/-- Two transports that give the same answers in states that correspond, and keep the states
corresponding. -/
structure Transport.Alike (R : σ → τ → Prop) (t : Transport σ) (t' : Transport τ) : Prop where
  init {n n'} (h : R n n') (size : Nat) : Reply.Alike R (t.init size n) (t'.init size n')
  derive {n n'} (h : R n n') (parent : Communicator) (size : Nat) :
    Reply.Alike R (t.derive parent size n) (t'.derive parent size n')
  release {n n'} (h : R n n') (c : Communicator) : Reply.Alike R (t.release c n) (t'.release c n')
  finalize {n n'} (h : R n n') (world : Communicator) :
    Reply.Alike R (t.finalize world n) (t'.finalize world n')

/-! ### Bindings for one registry -/

namespace Bindings

variable {b : Bindings} {c : ExecutionContext} {registry : Nat}

theorem ofRegistry_bind_self (generation : Nat) (h : VmHandle) :
    (b.bind c registry generation h).ofRegistry registry =
      ⟨c, registry, generation, h⟩ :: b.ofRegistry registry := by
  simp [ofRegistry, bind]

theorem ofRegistry_unbind_self :
    (b.unbind c registry).ofRegistry registry = (b.ofRegistry registry).unbind c registry := by
  rw [ofRegistry, ofRegistry, unbind, unbind, List.filter_comm]

theorem ofRegistry_forget :
    (b.forget c).ofRegistry registry = (b.ofRegistry registry).forget c := by
  rw [ofRegistry, ofRegistry, forget, forget, List.filter_comm]

end Bindings

namespace Site

variable {f : Renaming} {first first' limit : Nat} {s : Site σ} {s' : Site τ}

/-- A registry in its process, and a registry that is the same with ids renamed, in a process of
its own. Both processes have given out equally many ids since `first` and `first'`. -/
structure Mirrors (R : σ → τ → Prop) (f : Renaming) (first first' : Nat) (s : Site σ)
    (s' : Site τ) : Prop where
  calls : s.registry.transport.Alike R s'.registry.transport
  registry : s'.registry = s.registry.rename f s'.registry.transport
  bindings : s'.bindings.ofRegistry s.registry.id =
    (s.bindings.ofRegistry s.registry.id).map (Binding.rename f)
  net : R s.net s'.net
  ids : ∃ used, s.nextVm = first + used ∧ s'.nextVm = first' + used

/-- The ids from `first` up to a limit are renamed to those from `first'` on. -/
def Renumbers (f : Nat → Nat) (first first' limit : Nat) : Prop :=
  ∀ i, first + i < limit → f (first + i) = first' + i

theorem nextVm_launchSlot (parent : Vm) (policy : SpawnPolicy) (part : Partition) (s : Site σ) :
    (launchSlot parent policy part s).2.nextVm = s.nextVm + 1 := by
  unfold launchSlot
  dsimp only
  split
  · rfl
  · split <;> rfl

/-- The slot that is launched first uses up an id. -/
theorem nextVm_lt_launchSlots (parent : Vm) (policy : SpawnPolicy) (done : List LaunchedChild)
    (part : Partition) (parts : List Partition) (s : Site σ) :
    s.nextVm < (launchSlots parent policy done (part :: parts) s).2.nextVm := by
  have hnext := nextVm_launchSlot parent policy part s
  rw [launchSlots]
  rcases hslot : launchSlot parent policy part s with ⟨fault | child, s₁⟩
  · have hused := (s₁.advances_retireAll done).ids
    rw [hslot] at hnext
    dsimp only at hnext hused ⊢
    omega
  · have hused := (advances_launchSlots parent policy (done ++ [child]) parts s₁).ids
    rw [hslot] at hnext
    dsimp only at hnext hused ⊢
    omega

/-- What is left of a startup when its slots are launched: the threads of the PETs are started, and
the gate is opened or shut. -/
def letIn (host : ThreadHost) (children : List LaunchedChild) (s : Site σ) :
    Except VmError Spawned × Site σ :=
  let pets := children.flatMap LaunchedChild.pets
  match startThreads host pets s with
  | (.error e, s) => (.error e, (s.shutGate pets).retireAll children)
  | (.ok (), s) =>
    let spawned : Spawned := ⟨s.registry.id, children⟩
    (.ok spawned, (s.markRunning spawned.vmIds).openGate pets)

theorem nextVm_le_letIn (host : ThreadHost) (children : List LaunchedChild) (s : Site σ) :
    s.nextVm ≤ (s.letIn host children).2.nextVm := by
  unfold letIn
  dsimp only
  rcases hthreads : startThreads host (children.flatMap LaunchedChild.pets) s with ⟨e | ⟨⟩, s₁⟩
  · obtain ⟨before, _, _, _, _, _, _, rfl⟩ := startThreads_eq_error hthreads
    exact (advances_retireAll (shutGate { s with bindings := s.bound before ++ s.bindings }
      (children.flatMap LaunchedChild.pets)) children).ids
  · obtain ⟨_, rfl⟩ := startThreads_eq_ok hthreads
    exact Nat.le_refl _

/-- How many threads a host is asked for when those of some PETs are started in turn: it is asked no
more once it has refused one. -/
def threadsAsked (host : ThreadHost) : List LaunchedPet → Nat
  | [] => 0
  | pet :: pets => if (host pet.handle.context).isSome then 1 else threadsAsked host pets + 1

/-- How many threads the host is asked for by a startup. -/
def threadsOf (host : ThreadHost) (c : ExecutionContext) (plan : SpawnPlan) (s : Site σ) : Nat :=
  match s.current c with
  | .error _ => 0
  | .ok caller =>
    if caller.sameVm plan.parent ∧ plan.parent.vm.depth + 1 ≤ Limits.maxSpawnDepth then
      let launched := (launchSlots plan.parent.vm plan.policy [] plan.partitions s).1.toOption
      launched.elim 0 fun children => threadsAsked host (children.flatMap LaunchedChild.pets)
    else 0

theorem threadsAsked_of_startThreads {host : ThreadHost} {pets : List LaunchedPet}
    {s s₁ : Site σ} (h : startThreads host pets s = (.ok (), s₁)) :
    threadsAsked host pets = pets.length := by
  have hall := (startThreads_eq_ok h).1
  clear h
  induction pets with
  | nil => rfl
  | cons pet pets ih =>
    rw [threadsAsked, hall pet List.mem_cons_self, ih fun p hp => hall p (List.mem_cons_of_mem _ hp)]
    rfl

theorem threadsAsked_rename {host host' : ThreadHost}
    (hhost : ∀ c : ExecutionContext, host' (c.rename f) = host c) (pets : List LaunchedPet) :
    threadsAsked host' (pets.map (LaunchedPet.rename f)) = threadsAsked host pets := by
  induction pets with
  | nil => rfl
  | cons pet pets ih =>
    have hcontext : (pet.rename f).handle.context = pet.handle.context.rename f := rfl
    rw [List.map_cons, threadsAsked, threadsAsked, hcontext, hhost, ih]

/-- A startup that succeeds has asked for a thread for every PET. -/
theorem threadsOf_of_ok {host : ThreadHost} {c : ExecutionContext} {plan : SpawnPlan}
    {spawned : Spawned} {s s₁ : Site σ} (h : s.startup host c plan = (.ok spawned, s₁)) :
    s.threadsOf host c plan = (spawned.children.flatMap LaunchedChild.pets).length := by
  unfold startup at h
  unfold threadsOf
  rcases hcaller : s.current c with e | caller
  · rw [hcaller] at h
    cases h
  · rw [hcaller] at h
    dsimp only at h ⊢
    split at h
    · next hsame =>
      split at h
      · cases h
      · next hdepth =>
        rw [if_pos ⟨hsame, Nat.le_of_not_lt hdepth⟩]
        rcases hslots : launchSlots plan.parent.vm plan.policy [] plan.partitions s with
          ⟨e | children, s₂⟩
        · rw [hslots] at h
          cases h
        · rw [hslots] at h
          dsimp only at h ⊢
          split at h
          · cases h
          · next hthreads =>
            obtain ⟨hspawned, _⟩ := Prod.mk.inj h
            rw [← Except.ok.inj hspawned]
            exact threadsAsked_of_startThreads hthreads
    · cases h

namespace Mirrors

section Parts

variable (h : Mirrors R f first first' s s')

include h

theorem id_eq : s'.registry.id = s.registry.id := congrArg Registry.id h.registry

theorem global_eq : s'.registry.global = s.registry.global.map (VmHandle.rename f) :=
  congrArg Registry.global h.registry

theorem generation_eq : s'.registry.generation = s.registry.generation :=
  congrArg Registry.generation h.registry

theorem owners_eq : s'.registry.owners = Owners.rename f s.registry.owners :=
  congrArg Registry.owners h.registry

theorem children_eq : s'.registry.children = s.registry.children.map (ChildRecord.rename f) :=
  congrArg Registry.children h.registry

theorem isUp_eq : s'.registry.isUp = s.registry.isUp := by
  rw [h.registry, Registry.isUp_rename]

/-- The next ids correspond. -/
theorem next_eq (hids : Renumbers f.vm first first' limit) (hlt : s.nextVm < limit) :
    s'.nextVm = f.vm s.nextVm := by
  obtain ⟨used, hnext, hnext'⟩ := h.ids
  rw [hnext, hnext', hids used (hnext ▸ hlt)]

/-- A new id is given out on both sides. -/
theorem ids_succ : ∃ used, s.nextVm + 1 = first + used ∧ s'.nextVm + 1 = first' + used := by
  obtain ⟨used, hnext, hnext'⟩ := h.ids
  exact ⟨used + 1, by rw [hnext, Nat.add_assoc], by rw [hnext', Nat.add_assoc]⟩

/-- Holders and children that are changed alike. -/
theorem update (owners : Owners) (children : List ChildRecord) :
    { s'.registry with
      owners := Owners.rename f owners
      children := children.map (ChildRecord.rename f) } =
      ({ s.registry with owners, children } : Registry σ).rename f s'.registry.transport := by
  rw [h.registry]
  rfl

/-- Bindings that are changed alike. -/
theorem rebind {b b' : Bindings}
    (bindings : b'.ofRegistry s.registry.id =
      (b.ofRegistry s.registry.id).map (Binding.rename f)) :
    Mirrors R f first first' { s with bindings := b } { s' with bindings := b' } :=
  { h with bindings }

end Parts

/-! ### The current VM -/

theorem current?_eq (h : Mirrors R f first first' s s') (c : ExecutionContext) :
    s'.bindings.current? (c.rename f) s.registry.id s.registry.generation =
      (s.bindings.current? c s.registry.id s.registry.generation).map (VmHandle.rename f) := by
  rw [← Bindings.current?_ofRegistry, h.bindings, Bindings.current?_rename,
    Bindings.current?_ofRegistry]

/-- A context has the same VM on both sides, or none for the same reason. -/
theorem current (h : Mirrors R f first first' s s') (c : ExecutionContext) :
    Answers f c (VmHandle.rename f) (s.current c) (s'.current (c.rename f)) := by
  rw [Site.current, Site.current, h.isUp_eq, h.id_eq, h.generation_eq, h.current?_eq]
  split
  · cases s.bindings.current? c s.registry.id s.registry.generation with
    | none => exact .error .noContext
    | some handle => exact .ok handle
  · exact .error .notInitialized

/-! ### Going up and down -/

theorem bringUp (h : Mirrors R f first first' s s') (hids : Renumbers f.vm first first' limit)
    (c : ExecutionContext) (hlimit : (s.bringUp c).2.nextVm ≤ limit) :
    Answers f c (VmHandle.rename f) (s.bringUp c).1 (s'.bringUp (c.rename f)).1 ∧
      Mirrors R f first first' (s.bringUp c).2 (s'.bringUp (c.rename f)).2 := by
  have hconfig : s'.registry.config = s.registry.config := congrArg Registry.config h.registry
  have hdetected : s'.registry.detected = s.registry.detected :=
    congrArg Registry.detected h.registry
  have hglobal := h.global_eq
  unfold Site.bringUp at hlimit ⊢
  rw [hconfig, hdetected]
  cases hup : s.registry.global with
  | some g =>
    rw [hup, Option.map_some] at hglobal
    rw [hglobal]
    exact ⟨.error (.alreadyInitialized _), h⟩
  | none =>
    rw [hup, Option.map_none] at hglobal
    rw [hglobal]
    rw [hup] at hlimit
    dsimp only at hlimit ⊢
    cases hfound : s.registry.config.discover s.registry.detected with
    | error fault => exact ⟨.error (.configuration _), h⟩
    | ok t =>
      rw [hfound] at hlimit
      dsimp only at hlimit ⊢
      rcases hinit : s.registry.transport.init t.peCount s.net with ⟨e | world, net⟩
      · obtain ⟨net', hinit', hnet⟩ := (h.calls.init h.net t.peCount).of_eq hinit
        rw [hinit']
        exact ⟨.error (.transportInit _), { h with net := hnet }⟩
      · obtain ⟨net', hinit', hnet⟩ := (h.calls.init h.net t.peCount).of_eq hinit
        rw [hinit] at hlimit
        rw [hinit', h.next_eq hids hlimit]
        have hglobal' : (⟨.ofTopology (f.vm s.nextVm) t world, 0⟩ : VmHandle) =
            VmHandle.rename f ⟨.ofTopology s.nextVm t world, 0⟩ := rfl
        refine ⟨.ok _, h.calls, ?_, ?_, hnet, ?_⟩
        · dsimp only
          rw [h.registry]
          simp [Registry.rename, Owners.rename, Owners.allHeldBy, hglobal', Function.comp_def]
        · dsimp only
          rw [h.id_eq, Bindings.ofRegistry_bind_self, Bindings.ofRegistry_bind_self, h.bindings,
            h.generation_eq]
          rfl
        · have hsucc := h.ids_succ
          rwa [h.next_eq hids hlimit] at hsucc

theorem takeDown (h : Mirrors R f first first' s s') (c : ExecutionContext) :
    Answers f c id (s.takeDown c).1 (s'.takeDown (c.rename f)).1 ∧
      Mirrors R f first first' (s.takeDown c).2 (s'.takeDown (c.rename f)).2 := by
  have hglobal := h.global_eq
  unfold Site.takeDown
  cases hup : s.registry.global with
  | none =>
    rw [hup, Option.map_none] at hglobal
    rw [hglobal]
    exact ⟨.error .notInitialized, h⟩
  | some g =>
    rw [hup, Option.map_some] at hglobal
    rw [hglobal]
    dsimp only
    rw [h.children_eq, List.isEmpty_map]
    split
    · obtain ⟨_, hnet⟩ := h.calls.finalize h.net g.vm.communicator
      refine ⟨.ok (), h.calls, ?_, ?_, hnet, h.ids⟩
      · dsimp only
        rw [h.registry]
        rfl
      · dsimp only
        rw [h.id_eq, Bindings.ofRegistry_unbind_self, Bindings.ofRegistry_unbind_self, h.bindings,
          Bindings.unbind_rename]
    · refine ⟨?_, h⟩
      rw [h.registry, Registry.outstanding_rename]
      exact .error (.outstandingChildren _)

/-! ### Retiring -/

theorem retire (h : Mirrors R f first first' s s') (vm : Vm) :
    Mirrors R f first first' (s.retire vm) (s'.retire (vm.rename f)) := by
  have hchild : s'.registry.child? (vm.rename f).id =
      (s.registry.child? vm.id).map (ChildRecord.rename f) := by
    rw [h.registry]
    exact Registry.child?_rename _ _ vm.id
  unfold Site.retire
  rw [hchild]
  cases s.registry.child? vm.id with
  | none => exact h
  | some r =>
    obtain ⟨_, hnet⟩ := h.calls.release h.net vm.communicator
    refine ⟨h.calls, ?_, h.bindings, hnet, h.ids⟩
    have hupdate := h.update (s.registry.owners.release vm.id r.parent r.pes)
      ((s.registry.children.filter (·.vm != vm.id)).map (ChildRecord.reparent vm.id r.parent))
    rw [← Owners.release_rename, ← ChildRecord.filter_reparent_rename, ← h.owners_eq,
      ← h.children_eq] at hupdate
    exact hupdate

theorem retireAll (h : Mirrors R f first first' s s') (children : List LaunchedChild) :
    Mirrors R f first first' (s.retireAll children)
      (s'.retireAll (children.map (LaunchedChild.rename f))) := by
  induction children generalizing s s' with
  | nil => exact h
  | cons child children ih => exact ih (h.retire child.vm)

/-! ### Launching -/

theorem launchSlot (h : Mirrors R f first first' s s') (hids : Renumbers f.vm first first' limit)
    (hlt : s.nextVm < limit) (parent : Vm) (policy : SpawnPolicy) (part : Partition) :
    (Site.launchSlot (parent.rename f) policy part s').1 =
        ((Site.launchSlot parent policy part s).1.map (LaunchedChild.rename f)).mapError
          (LaunchFault.rename f) ∧
      Mirrors R f first first' (Site.launchSlot parent policy part s).2
        (Site.launchSlot (parent.rename f) policy part s').2 := by
  have hsucc := h.ids_succ
  have hclaimed := Owners.claim_rename (f := f) parent.id s.nextVm part.pes s.registry.owners
  unfold Site.launchSlot
  dsimp only
  rw [h.next_eq hids hlt] at hsucc ⊢
  rw [h.owners_eq]
  change Owners.claim (parent.rename f).id _ _ _ = _ at hclaimed
  rw [hclaimed]
  rcases s.registry.owners.claim parent.id s.nextVm part.pes with ⟨refusal | ⟨⟩, owners⟩
  · refine ⟨rfl, h.calls, ?_, h.bindings, h.net, hsucc⟩
    have hupdate := h.update owners s.registry.children
    rw [← h.children_eq] at hupdate
    exact hupdate
  · dsimp only [Except.mapError]
    rcases hderive : s.registry.transport.derive parent.communicator
        (policy.petGroups part.pes).length s.net with ⟨e | communicator, net⟩
    · obtain ⟨net', hderive', hnet⟩ := (h.calls.derive h.net _ _).of_eq hderive
      change s'.registry.transport.derive (parent.rename f).communicator _ _ = _ at hderive'
      rw [hderive']
      refine ⟨rfl, h.calls, ?_, h.bindings, hnet, hsucc⟩
      have hupdate := h.update (owners.release s.nextVm parent.id part.pes) s.registry.children
      rw [← Owners.release_rename, ← h.children_eq] at hupdate
      exact hupdate
    · obtain ⟨net', hderive', hnet⟩ := (h.calls.derive h.net _ _).of_eq hderive
      change s'.registry.transport.derive (parent.rename f).communicator _ _ = _ at hderive'
      rw [hderive']
      refine ⟨rfl, h.calls, ?_, h.bindings, hnet, hsucc⟩
      have hupdate := h.update owners
        (s.registry.children ++ [⟨s.nextVm, parent.id, part.slot, .created, part.pes⟩])
      rw [List.map_append, ← h.children_eq] at hupdate
      exact hupdate

theorem launchSlots (h : Mirrors R f first first' s s') (hids : Renumbers f.vm first first' limit)
    (c : ExecutionContext) (parent : Vm) (policy : SpawnPolicy) (done : List LaunchedChild)
    (parts : List Partition)
    (hlimit : (Site.launchSlots parent policy done parts s).2.nextVm ≤ limit) :
    Answers f c (List.map (LaunchedChild.rename f)) (Site.launchSlots parent policy done parts s).1
        (Site.launchSlots (parent.rename f) policy (done.map (LaunchedChild.rename f)) parts s').1 ∧
      Mirrors R f first first' (Site.launchSlots parent policy done parts s).2
        (Site.launchSlots (parent.rename f) policy (done.map (LaunchedChild.rename f))
          parts s').2 := by
  induction parts generalizing done s s' with
  | nil => exact ⟨.ok done, h⟩
  | cons part parts ih =>
    have hlt := Nat.lt_of_lt_of_le (nextVm_lt_launchSlots parent policy done part parts s) hlimit
    obtain ⟨hanswer, hmirrors⟩ := h.launchSlot hids hlt parent policy part
    rw [Site.launchSlots] at hlimit ⊢
    rw [Site.launchSlots]
    rcases hslot' : Site.launchSlot (parent.rename f) policy part s' with ⟨answer, s₁'⟩
    rcases hslot : Site.launchSlot parent policy part s with ⟨fault | child, s₁⟩
    · rw [hslot, hslot'] at hanswer hmirrors
      obtain rfl : answer = .error (fault.rename f) := hanswer
      exact ⟨.error (.launch _ fault), hmirrors.retireAll done⟩
    · rw [hslot, hslot'] at hanswer hmirrors
      obtain rfl : answer = .ok (child.rename f) := hanswer
      rw [hslot] at hlimit
      have hrest := ih hmirrors (done ++ [child]) hlimit
      rwa [List.map_append] at hrest

/-! ### Threads and the gate -/

theorem startThreads {host host' : ThreadHost}
    (hhost : ∀ c : ExecutionContext, host' (c.rename f) = host c)
    (h : Mirrors R f first first' s s') (c : ExecutionContext) (pets : List LaunchedPet) :
    Answers f c id (Site.startThreads host pets s).1
        (Site.startThreads host' (pets.map (LaunchedPet.rename f)) s').1 ∧
      Mirrors R f first first' (Site.startThreads host pets s).2
        (Site.startThreads host' (pets.map (LaunchedPet.rename f)) s').2 := by
  induction pets generalizing s s' with
  | nil => exact ⟨.ok (), h⟩
  | cons pet pets ih =>
    have hcontext : (pet.rename f).handle.context = pet.handle.context.rename f := rfl
    rw [List.map_cons, Site.startThreads, Site.startThreads, hcontext, hhost]
    cases host pet.handle.context with
    | some reason => exact ⟨.error (.launch _ (.thread reason)), h⟩
    | none =>
      refine ih (h.rebind ?_)
      rw [h.id_eq, Bindings.ofRegistry_bind_self, Bindings.ofRegistry_bind_self, h.bindings,
        h.generation_eq]
      rfl

theorem shutGate (h : Mirrors R f first first' s s') (pets : List LaunchedPet) :
    Mirrors R f first first' (s.shutGate pets)
      (s'.shutGate (pets.map (LaunchedPet.rename f))) := by
  induction pets generalizing s s' with
  | nil => exact h
  | cons pet pets ih =>
    have hcontext : (pet.rename f).handle.context = pet.handle.context.rename f := rfl
    have hpet : Mirrors R f first first'
        { s with bindings := s.bindings.unbind pet.handle.context s.registry.id }
        { s' with
          bindings := s'.bindings.unbind (pet.rename f).handle.context s'.registry.id } := by
      apply h.rebind
      rw [h.id_eq, hcontext, Bindings.ofRegistry_unbind_self, Bindings.ofRegistry_unbind_self,
        h.bindings, Bindings.unbind_rename]
    exact ih hpet

theorem markRunning (h : Mirrors R f first first' s s') (vms : List Nat) :
    Mirrors R f first first' (s.markRunning vms) (s'.markRunning (vms.map f.vm)) := by
  refine ⟨h.calls, ?_, h.bindings, h.net, h.ids⟩
  have hupdate := h.update s.registry.owners (s.registry.children.map fun r =>
    if vms.contains r.vm then { r with state := .running } else r)
  have hmark : (s.registry.children.map fun r =>
      if vms.contains r.vm then { r with state := .running } else r).map (ChildRecord.rename f) =
      (s.registry.children.map (ChildRecord.rename f)).map fun r =>
        if (vms.map f.vm).contains r.vm then { r with state := .running } else r := by
    rw [List.map_map, List.map_map]
    apply List.map_congr_left
    intro r _
    by_cases hr : r.vm ∈ vms <;>
      simp [ChildRecord.rename, hr, f.vm_injective.eq_iff]
  rw [hmark, ← h.children_eq, ← h.owners_eq] at hupdate
  exact hupdate

theorem openGate (h : Mirrors R f first first' s s') (pets pets' : List LaunchedPet) :
    Mirrors R f first first' (s.openGate pets) (s'.openGate pets') :=
  ⟨h.calls, h.registry, h.bindings, h.net, h.ids⟩

/-! ### The whole of a startup -/

theorem letIn {host host' : ThreadHost}
    (hhost : ∀ c : ExecutionContext, host' (c.rename f) = host c)
    (h : Mirrors R f first first' s s') (c : ExecutionContext) (children : List LaunchedChild) :
    Answers f c (Spawned.rename f) (s.letIn host children).1
        (s'.letIn host' (children.map (LaunchedChild.rename f))).1 ∧
      Mirrors R f first first' (s.letIn host children).2
        (s'.letIn host' (children.map (LaunchedChild.rename f))).2 := by
  obtain ⟨hanswer, hmirrors⟩ := h.startThreads hhost c (children.flatMap LaunchedChild.pets)
  unfold Site.letIn
  dsimp only
  rw [LaunchedChild.flatMap_pets_rename]
  rcases hthreads' : Site.startThreads host'
    ((children.flatMap LaunchedChild.pets).map (LaunchedPet.rename f)) s' with ⟨answer, s₁'⟩
  rcases hthreads : Site.startThreads host (children.flatMap LaunchedChild.pets) s with
    ⟨e | ⟨⟩, s₁⟩
  · rw [hthreads, hthreads'] at hanswer hmirrors
    obtain ⟨e', rfl, he⟩ := hanswer.of_error
    exact ⟨.error he, (hmirrors.shutGate _).retireAll children⟩
  · rw [hthreads, hthreads'] at hanswer hmirrors
    obtain rfl := hanswer.of_ok
    have hspawned : Spawned.rename f ⟨s₁.registry.id, children⟩ =
        ⟨s₁'.registry.id, children.map (LaunchedChild.rename f)⟩ := by
      rw [hmirrors.id_eq]
      rfl
    dsimp only [id_eq]
    rw [← hspawned, Spawned.vmIds_rename]
    exact ⟨.ok _, (hmirrors.markRunning _).openGate _ _⟩

theorem startup {host host' : ThreadHost}
    (hhost : ∀ c : ExecutionContext, host' (c.rename f) = host c)
    (h : Mirrors R f first first' s s') (hids : Renumbers f.vm first first' limit)
    (c : ExecutionContext) (plan : SpawnPlan)
    (hlimit : (s.startup host c plan).2.nextVm ≤ limit) :
    Answers f c (Spawned.rename f) (s.startup host c plan).1
        (s'.startup host' (c.rename f) (plan.rename f)).1 ∧
      Mirrors R f first first' (s.startup host c plan).2
        (s'.startup host' (c.rename f) (plan.rename f)).2 := by
  have hcurrent := h.current c
  have hslots := h.launchSlots hids c plan.parent.vm plan.policy [] plan.partitions
  have hparent : (plan.rename f).parent = plan.parent.rename f := rfl
  have hdepth : (plan.parent.rename f).vm.depth = plan.parent.vm.depth := rfl
  unfold Site.startup at hlimit ⊢
  rcases hcaller : s.current c with e | caller
  · rw [hcaller] at hcurrent
    obtain ⟨e', hcaller', he⟩ := hcurrent.of_error
    rw [hcaller']
    exact ⟨.error he, h⟩
  · rw [hcaller] at hcurrent hlimit
    rw [hcurrent.of_ok]
    dsimp only at hlimit ⊢
    rw [hparent, VmHandle.sameVm_rename, hdepth]
    by_cases hsame : caller.sameVm plan.parent = true
    · by_cases hdeep : Limits.maxSpawnDepth < plan.parent.vm.depth + 1
      · rw [if_pos hsame, if_pos hsame, if_pos hdeep, if_pos hdeep]
        exact ⟨.error (.launch 0 (.tooDeep _)), h⟩
      · rw [if_pos hsame, if_neg hdeep] at hlimit
        rw [if_pos hsame, if_pos hsame, if_neg hdeep, if_neg hdeep]
        rcases hslots' : Site.launchSlots (plan.parent.rename f).vm (plan.rename f).policy []
          (plan.rename f).partitions s' with ⟨answer, s₁'⟩
        change Site.launchSlots (plan.parent.vm.rename f) plan.policy
          ([].map (LaunchedChild.rename f)) plan.partitions s' = _ at hslots'
        rw [hslots'] at hslots
        rcases hlaunched : Site.launchSlots plan.parent.vm plan.policy [] plan.partitions s with
          ⟨e | children, s₁⟩
        · rw [hlaunched] at hlimit hslots
          obtain ⟨hanswer, hmirrors⟩ := hslots hlimit
          obtain ⟨e', rfl, he⟩ := hanswer.of_error
          exact ⟨.error he, hmirrors⟩
        · rw [hlaunched] at hlimit hslots
          obtain ⟨hanswer, hmirrors⟩ :=
            hslots (Nat.le_trans (s₁.nextVm_le_letIn host children) hlimit)
          obtain rfl := hanswer.of_ok
          exact hmirrors.letIn hhost c children
    · rw [if_neg hsame, if_neg hsame]
      exact ⟨.error (.launch 0 (.wrongCaller _ _)), h⟩

/-- A host is asked for as many threads on both sides. -/
theorem threadsOf_eq {host host' : ThreadHost}
    (hhost : ∀ c : ExecutionContext, host' (c.rename f) = host c)
    (h : Mirrors R f first first' s s') (hids : Renumbers f.vm first first' limit)
    (c : ExecutionContext) (plan : SpawnPlan)
    (hlimit : (s.startup host c plan).2.nextVm ≤ limit) :
    s'.threadsOf host' (c.rename f) (plan.rename f) = s.threadsOf host c plan := by
  have hcurrent := h.current c
  have hslots := h.launchSlots hids c plan.parent.vm plan.policy [] plan.partitions
  have hparent : (plan.rename f).parent = plan.parent.rename f := rfl
  have hdepth : (plan.parent.rename f).vm.depth = plan.parent.vm.depth := rfl
  unfold Site.startup at hlimit
  unfold threadsOf
  rcases hcaller : s.current c with e | caller
  · rw [hcaller] at hcurrent
    obtain ⟨e', hcaller', _⟩ := hcurrent.of_error
    rw [hcaller']
  · rw [hcaller] at hcurrent hlimit
    rw [hcurrent.of_ok]
    dsimp only at hlimit ⊢
    rw [hparent, VmHandle.sameVm_rename, hdepth]
    by_cases hadmits : caller.sameVm plan.parent = true ∧
        plan.parent.vm.depth + 1 ≤ Limits.maxSpawnDepth
    · rw [if_pos hadmits, if_pos hadmits]
      rw [if_pos hadmits.1, if_neg (Nat.not_lt.2 hadmits.2)] at hlimit
      have hlaunched : (Site.launchSlots plan.parent.vm plan.policy [] plan.partitions s).2.nextVm
          ≤ limit := by
        refine Nat.le_trans ?_ hlimit
        rcases Site.launchSlots plan.parent.vm plan.policy [] plan.partitions s with
          ⟨e | children, s₁⟩
        · exact Nat.le_refl _
        · exact s₁.nextVm_le_letIn host children
      have hanswer := (hslots hlaunched).1.toOption_eq
      change (Site.launchSlots (plan.parent.rename f).vm (plan.rename f).policy []
        (plan.rename f).partitions s').1.toOption = _ at hanswer
      rw [hanswer, Option.elim_map]
      congr 1
      funext children
      show threadsAsked host' ((children.map (LaunchedChild.rename f)).flatMap _) = _
      rw [LaunchedChild.flatMap_pets_rename, threadsAsked_rename hhost]
    · rw [if_neg hadmits, if_neg hadmits]

end Mirrors

end Site

/-! ### Runs -/

def Handle.rename (f : Renaming) (h : Handle) : Handle := { h with spawned := h.spawned.rename f }

theorem Handle.left_rename (f : Renaming) (h : Handle) :
    (h.rename f).left = h.left.map (LaunchedChild.rename f) :=
  List.map_drop.symm

/-- An operation by the same caller on the same things, with ids renamed. -/
noncomputable def Operation.rename (f : Renaming) : Operation → Operation
  | bringUp c => bringUp (c.rename f)
  | takeDown c => takeDown (c.rename f)
  | startup host c plan => startup (host.rename f) (c.rename f) (plan.rename f)
  | retire position => retire position

/-- What an operation answers. -/
inductive Answer where
  | up (r : Except VmError VmHandle)
  | down (r : Except VmError Unit)
  | started (r : Except VmError Spawned)
  /-- The child that is retired, if the handle has any left. -/
  | retired (child? : Option LaunchedChild)

/-- Two operations that are the same with ids renamed, and so are their answers. -/
inductive Answer.Echo (f : Renaming) : Operation × Answer → Operation × Answer → Prop
  | up (c : ExecutionContext) {r r'} (h : Answers f c (VmHandle.rename f) r r') :
      Echo f (.bringUp c, .up r) (.bringUp (c.rename f), .up r')
  | down (c : ExecutionContext) {r r'} (h : Answers f c id r r') :
      Echo f (.takeDown c, .down r) (.takeDown (c.rename f), .down r')
  | started (host : ThreadHost) (c : ExecutionContext) (plan : SpawnPlan) {r r'}
      (h : Answers f c (Spawned.rename f) r r') :
      Echo f (.startup host c plan, .started r)
        (.startup (host.rename f) (c.rename f) (plan.rename f), .started r')
  | retired (position : Nat) (child? : Option LaunchedChild) :
      Echo f (.retire position, .retired child?)
        (.retire position, .retired (child?.map (LaunchedChild.rename f)))

namespace Chronicle

variable {f : Renaming} {first first' limit : Nat} {k : Chronicle σ} {k' : Chronicle τ}

/-- The answer of an operation. -/
def answer (op : Operation) (k : Chronicle σ) : Answer :=
  match op with
  | .bringUp c => .up (k.stage.site.bringUp c).1
  | .takeDown c => .down (k.stage.site.takeDown c).1
  | .startup host c plan => .started (k.stage.site.startup host c plan).1
  | .retire position => .retired (k.next? position)

/-- How many threads the host is asked for by an operation. -/
def threadsOf (op : Operation) (k : Chronicle σ) : Nat :=
  match op with
  | .startup host c plan => k.stage.site.threadsOf host c plan
  | _ => 0

/-- Two runs that have come to the same, up to a renaming of ids. -/
structure Mirrors (R : σ → τ → Prop) (f : Renaming) (first first' : Nat) (k : Chronicle σ)
    (k' : Chronicle τ) : Prop where
  site : k.stage.site.Mirrors R f first first' k'.stage.site
  made : k'.stage.made = k.stage.made.map (Vm.rename f)
  handles : k'.handles = k.handles.map (Handle.rename f)

theorem made_bringUp (k : Chronicle σ) (c : ExecutionContext) : (k.bringUp c).stage.made =
    k.stage.made ++ (k.stage.site.bringUp c).1.toOption.toList.map VmHandle.vm := by
  rcases hup : k.stage.site.bringUp c with ⟨e | global, site⟩
  · simp [(bringUp_of_error hup).1, Except.toOption]
  · simp [(bringUp_of_ok hup).1, Except.toOption]

theorem made_startup (k : Chronicle σ) (host : ThreadHost) (c : ExecutionContext)
    (plan : SpawnPlan) : (k.startup host c plan).stage.made =
    k.stage.made ++ (k.stage.site.startup host c plan).1.toOption.toList.flatMap fun spawned =>
      spawned.children.map LaunchedChild.vm := by
  rcases hstartup : k.stage.site.startup host c plan with ⟨e | spawned, site⟩
  · simp [Chronicle.startup, Stage.startup, hstartup, Except.toOption]
  · simp [Chronicle.startup, Stage.startup, hstartup, Except.toOption]

namespace Mirrors

theorem next?_eq (h : Mirrors R f first first' k k') (position : Nat) :
    k'.next? position = (k.next? position).map (LaunchedChild.rename f) := by
  rw [next?, next?, h.handles, List.getElem?_map]
  cases k.handles[position]? with
  | none => rfl
  | some handle =>
    show (handle.rename f).left.head? = handle.left.head?.map _
    rw [Handle.left_rename, List.head?_map]

/-- A handle retires the same child on both sides. -/
theorem retire (h : Mirrors R f first first' k k') (position : Nat) :
    Mirrors R f first first' (k.act (.retire position)) (k'.act (.retire position)) := by
  unfold act
  dsimp only
  rw [h.handles, List.getElem?_map]
  cases hhandle : k.handles[position]? with
  | none => exact h
  | some handle =>
    dsimp only [Option.map_some]
    rw [Handle.left_rename]
    cases hleft : handle.left with
    | nil => exact h
    | cons child rest =>
      refine ⟨h.site.retire child.vm, h.made, ?_⟩
      show (k.handles.map (Handle.rename f)).set position (handle.rename f).next =
        (k.handles.set position handle.next).map (Handle.rename f)
      rw [List.map_set]
      rfl

/-- An operation and its copy answer the same, and the runs still mirror each other. -/
theorem act (h : Mirrors R f first first' k k') (hids : Site.Renumbers f.vm first first' limit)
    (op : Operation) (hlimit : (k.act op).stage.site.nextVm ≤ limit) :
    Answer.Echo f (op, k.answer op) (op.rename f, k'.answer (op.rename f)) ∧
      Mirrors R f first first' (k.act op) (k'.act (op.rename f)) := by
  cases op with
  | bringUp c =>
    change (k.stage.bringUp c).site.nextVm ≤ limit at hlimit
    rw [Stage.site_bringUp] at hlimit
    obtain ⟨hanswer, hsite⟩ := h.site.bringUp hids c hlimit
    refine ⟨.up c hanswer, ?_, ?_, h.handles⟩
    · show Site.Mirrors R f first first' (k.stage.bringUp c).site (k'.stage.bringUp _).site
      rwa [Stage.site_bringUp, Stage.site_bringUp]
    · show (k'.bringUp (c.rename f)).stage.made = (k.bringUp c).stage.made.map (Vm.rename f)
      rw [made_bringUp, made_bringUp, h.made, hanswer.toOption_eq]
      cases (k.stage.site.bringUp c).1.toOption <;> simp [VmHandle.rename]
  | takeDown c =>
    obtain ⟨hanswer, hsite⟩ := h.site.takeDown c
    exact ⟨.down c hanswer, hsite, h.made, h.handles⟩
  | startup host c plan =>
    change (k.stage.startup host c plan).site.nextVm ≤ limit at hlimit
    rw [Stage.site_startup] at hlimit
    obtain ⟨hanswer, hsite⟩ :=
      h.site.startup (ThreadHost.rename_apply host) hids c plan hlimit
    refine ⟨.started host c plan hanswer, ?_, ?_, ?_⟩
    · show Site.Mirrors R f first first' (k.stage.startup host c plan).site
        (k'.stage.startup _ _ _).site
      rwa [Stage.site_startup, Stage.site_startup]
    · show (k'.startup (host.rename f) (c.rename f) (plan.rename f)).stage.made =
        (k.startup host c plan).stage.made.map (Vm.rename f)
      rw [made_startup, made_startup, h.made, hanswer.toOption_eq]
      cases (k.stage.site.startup host c plan).1.toOption <;>
        simp [Spawned.rename, LaunchedChild.rename]
    · show k'.handles ++ _ = (k.handles ++ _).map (Handle.rename f)
      rw [h.handles, hanswer.toOption_eq, List.map_append]
      cases (k.stage.site.startup host c plan).1.toOption <;> simp [Handle.rename]
  | retire position =>
    refine ⟨?_, h.retire position⟩
    show Answer.Echo f _ (_, .retired (k'.next? position))
    rw [h.next?_eq]
    exact .retired position _

/-- An operation and its copy take as many threads. -/
theorem threadsOf_eq (h : Mirrors R f first first' k k')
    (hids : Site.Renumbers f.vm first first' limit) (op : Operation)
    (hlimit : (k.act op).stage.site.nextVm ≤ limit) :
    k'.threadsOf (op.rename f) = k.threadsOf op := by
  cases op with
  | startup host c plan =>
    change (k.stage.startup host c plan).site.nextVm ≤ limit at hlimit
    rw [Stage.site_startup] at hlimit
    exact h.site.threadsOf_eq (ThreadHost.rename_apply host) hids c plan hlimit
  | bringUp c => rfl
  | takeDown c => rfl
  | retire position => rfl

/-- What can be performed can be performed with ids renamed. -/
theorem allows (h : Mirrors R f first first' k k') {op : Operation}
    (begun : ∀ c ∈ op.caller?, c.Begun k.stage.site.nextVm →
      (c.rename f).Begun k'.stage.site.nextVm)
    (allowed : k.Allows op) : k'.Allows (op.rename f) := by
  cases op with
  | bringUp c => exact begun c rfl allowed
  | takeDown c => trivial
  | startup host c plan =>
    obtain ⟨handle, count, policy, hbuild, hknown⟩ := allowed
    refine ⟨handle.rename f, count, policy, ?_, ?_⟩
    · rw [SpawnPlan.build_rename, hbuild]
      rfl
    · rw [h.made]
      refine hknown.imp (List.mem_map_of_mem ·) fun hother v hv => ?_
      obtain ⟨w, hw, rfl⟩ := List.mem_map.1 hv
      exact fun heq => hother w hw (f.vm_injective heq)
  | retire position =>
    intro copy hcopy b hb hregistry hcontext
    rw [h.next?_eq] at hcopy
    obtain ⟨child, hchild, rfl⟩ := Option.map_eq_some_iff.1 hcopy
    -- The binding is the copy of one that is for the registry, of a PET of the same child.
    have hmem : b ∈ k'.stage.site.bindings.ofRegistry k.stage.site.registry.id :=
      List.mem_filter.2 ⟨hb, decide_eq_true (hregistry.trans h.site.id_eq)⟩
    rw [h.site.bindings] at hmem
    obtain ⟨x, hx, rfl⟩ := List.mem_map.1 hmem
    obtain ⟨hx, hown⟩ := List.mem_filter.1 hx
    refine allowed child hchild x hx (of_decide_eq_true hown) ?_
    rw [Binding.rename, ExecutionContext.child?_rename] at hcontext
    obtain ⟨vm, hvm, heq⟩ := Option.map_eq_some_iff.1 hcontext
    rw [hvm, f.vm_injective heq]

end Mirrors

end Chronicle

end VirtualTopology
