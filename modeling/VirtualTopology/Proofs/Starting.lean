import VirtualTopology.Proofs.Launching

/-!
# Startups

What a startup does from the checks on the caller to the opening of the gate. A startup that fails
has let nobody into an entry, and every thread is bound to what it was bound to.

## Main definitions

- `Site.Admits`: the checks on the caller.
- `Site.bound`: the bindings that the threads of PETs make.

## Main statements

- `Site.startThreads_eq_ok`, `Site.startThreads_eq_error`, `Site.shutGate_bound`: the threads.
- `Site.startup_eq_ok`, `Site.startup_eq_error`: the whole.
-/

namespace VirtualTopology

/-- The binding of a PET in a bring-up of a registry. -/
def LaunchedPet.binding (registry generation : Nat) (pet : LaunchedPet) : Binding :=
  ⟨pet.handle.context, registry, generation, pet.handle⟩

namespace Site

variable {σ : Type} {s s' base : Site σ} {parent : Vm} {policy : SpawnPolicy}
  {done : List LaunchedChild} {host : ThreadHost} {c : ExecutionContext} {plan : SpawnPlan}
  {pets before : List LaunchedPet}

/-! ### Threads -/

/-- The bindings that the threads of PETs make, the latest first. -/
def bound (s : Site σ) (pets : List LaunchedPet) : Bindings :=
  (pets.map (LaunchedPet.binding s.registry.id s.registry.generation)).reverse

theorem bound_cons (pet : LaunchedPet) : s.bound (pet :: pets) =
    s.bound pets ++ [pet.binding s.registry.id s.registry.generation] := by
  simp [bound]

/-- Every PET has a thread and is bound. -/
theorem startThreads_eq_ok (h : startThreads host pets s = (.ok (), s')) :
    (∀ pet ∈ pets, host pet.handle.context = none) ∧
      s' = { s with bindings := s.bound pets ++ s.bindings } := by
  induction pets generalizing s with
  | nil =>
    obtain ⟨_, rfl⟩ := Prod.mk.inj h
    exact ⟨by simp, rfl⟩
  | cons pet pets ih =>
    rw [startThreads] at h
    split at h
    · simp at h
    · next hhost =>
      obtain ⟨hall, rfl⟩ := ih h
      refine ⟨?_, ?_⟩
      · intro p hp
        rcases List.mem_cons.1 hp with rfl | hp
        · exact hhost
        · exact hall p hp
      · rw [bound_cons, List.append_assoc]
        rfl

/-- The PETs before the first that gets no thread are bound. -/
theorem startThreads_eq_error {e : VmError} (h : startThreads host pets s = (.error e, s')) :
    ∃ before pet after reason, pets = before ++ pet :: after ∧
      host pet.handle.context = some reason ∧ e = (LaunchFault.thread reason).toVmError pet.slot ∧
      s' = { s with bindings := s.bound before ++ s.bindings } := by
  induction pets generalizing s with
  | nil => simp [startThreads] at h
  | cons pet pets ih =>
    rw [startThreads] at h
    split at h
    · next reason hhost =>
      obtain ⟨he, rfl⟩ := Prod.mk.inj h
      exact ⟨[], pet, pets, reason, rfl, hhost, (Except.error.inj he).symm, rfl⟩
    · next hhost =>
      obtain ⟨before, pet', after, reason, rfl, hreason, he, rfl⟩ := ih h
      refine ⟨pet :: before, pet', after, reason, rfl, hreason, he, ?_⟩
      rw [bound_cons, List.append_assoc]
      rfl

/-- Shutting the gate takes the bindings of all PETs away. -/
theorem bindings_shutGate (s : Site σ) (pets : List LaunchedPet) : (s.shutGate pets).bindings =
    s.bindings.filter fun x =>
      ¬ (x.registry = s.registry.id ∧ ∃ pet ∈ pets, x.context = pet.handle.context) := by
  show pets.foldl (fun b pet => b.unbind pet.handle.context s.registry.id) s.bindings = _
  generalize s.bindings = b
  induction pets generalizing b with
  | nil => exact (List.filter_eq_self.2 (by simp)).symm
  | cons pet pets ih =>
    rw [List.foldl_cons, ih, Bindings.unbind, List.filter_filter]
    apply List.filter_congr
    intro x _
    by_cases hr : x.registry = s.registry.id <;> by_cases hc : x.context = pet.handle.context <;>
      simp [hr, hc]

/-- The threads that were started end bound to nothing if the gate is shut. -/
theorem shutGate_bound (hsub : ∀ pet ∈ before, pet ∈ pets)
    (hfree : ∀ x ∈ s.bindings, x.registry = s.registry.id →
      ∀ pet ∈ pets, x.context ≠ pet.handle.context) :
    ({ s with bindings := s.bound before ++ s.bindings }).shutGate pets = s := by
  have hbindings : (({ s with bindings := s.bound before ++ s.bindings }).shutGate pets).bindings =
      s.bindings := by
    rw [bindings_shutGate, List.filter_append, List.filter_eq_nil_iff.2, List.filter_eq_self.2,
      List.nil_append]
    -- The bindings that were there are of other contexts, and the new ones are of the PETs.
    · intro x hx
      simp only [decide_eq_true_eq]
      rintro ⟨hr, pet, hpet, hc⟩
      exact hfree x hx hr pet hpet hc
    · intro x hx
      obtain ⟨pet, hpet, rfl⟩ := List.mem_map.1 (List.mem_reverse.1 hx)
      simp only [decide_eq_true_eq, Classical.not_not]
      exact ⟨rfl, pet, hsub pet hpet, rfl⟩
  exact congrArg (fun b => { s with bindings := b }) hbindings

/-! ### The whole -/

/-- The caller runs in the VM of the plan, which is not too deep in the spawn tree. -/
def Admits (s : Site σ) (c : ExecutionContext) (plan : SpawnPlan) : Prop :=
  ∃ caller, s.current c = .ok caller ∧ caller.sameVm plan.parent = true ∧
    plan.parent.vm.depth < Limits.maxSpawnDepth

/-- The PETs of a launched child are children that no thread ran for yet. -/
theorem Launched.pet_context (h : Launched parent policy base done s) {pet : LaunchedPet}
    (hpet : pet ∈ done.flatMap LaunchedChild.pets) :
    ∃ child ∈ done, ∃ n, n < child.vm.petCount ∧ pet = ⟨child.partition.slot, ⟨child.vm, n⟩⟩ ∧
      ¬ pet.handle.context.Begun base.nextVm := by
  obtain ⟨child, hchild, hpet⟩ := List.mem_flatMap.1 hpet
  obtain ⟨n, hn, rfl⟩ := List.mem_map.1 hpet
  exact ⟨child, hchild, n, List.mem_range.1 hn, rfl,
    Nat.not_lt.2 (h.fresh child hchild).1⟩

/-- The children of the launch, and no others, are entered as running. -/
theorem Launched.children_running (h : Launched parent policy base done s) (hbase : base.Tidy) :
    (s.registry.children.map fun r =>
      if (done.map (·.vm.id)).contains r.vm then { r with state := ChildState.running } else r) =
      base.registry.children ++ done.map (LaunchedChild.record parent.id .running) := by
  rw [h.children_eq, List.map_append, List.map_map]
  congr 1
  · have hold : ∀ r ∈ base.registry.children,
        (if (done.map (·.vm.id)).contains r.vm then { r with state := ChildState.running } else r) =
          id r := by
      intro r hr
      apply if_neg
      intro hmem
      obtain ⟨c, hc, heq⟩ := List.mem_map.1 (List.contains_iff_mem.1 hmem)
      have hrecord := (hbase.records r hr).1
      have hfresh := (h.fresh c hc).1
      omega
    rw [List.map_congr_left hold, List.map_id]
  · apply List.map_congr_left
    intro c hc
    have hmem : (done.map (·.vm.id)).contains (c.record parent.id .created).vm = true :=
      List.contains_iff_mem.2 (List.mem_map_of_mem hc)
    rw [Function.comp_apply, if_pos hmem]
    rfl

theorem Launched.markRunning (h : Launched parent policy base done s) (hbase : base.Tidy) :
    s.markRunning (done.map (·.vm.id)) = { s with
      registry :=
        { base.registry with
          owners := s.registry.owners
          children := base.registry.children ++
            done.map (LaunchedChild.record parent.id .running) } } := by
  have hregistry := congrArg
    (fun r : Registry σ => { r with
      children := base.registry.children ++ done.map (LaunchedChild.record parent.id .running) })
    h.registry
  rw [Site.markRunning, h.children_running hbase]
  exact congrArg (fun r => { s with registry := r }) hregistry

theorem Launched.bound_eq (h : Launched parent policy base done s) (pets : List LaunchedPet) :
    s.bound pets = base.bound pets := by
  rw [bound, bound, h.registry]

/-- If a PET gets no thread, shutting the gate takes back what the others have done. -/
theorem Launched.shutGate (h : Launched parent policy base done s) (hbase : base.Tidy)
    {e : VmError}
    (hthreads : startThreads host (done.flatMap LaunchedChild.pets) s = (.error e, s')) :
    s'.shutGate (done.flatMap LaunchedChild.pets) = s := by
  obtain ⟨before, pet, after, reason, hpets, _, _, rfl⟩ := startThreads_eq_error hthreads
  apply shutGate_bound
  · intro p hp
    rw [hpets]
    exact List.mem_append_left _ hp
  · intro x hx hr p hp hcontext
    obtain ⟨_, _, _, _, _, hbegun⟩ := h.pet_context hp
    rw [h.bindings] at hx
    rw [h.registry] at hr
    exact hbegun (hcontext ▸ hbase.contexts x hx hr)

/-- A startup that succeeds launches every slot, starts every thread and opens the gate. -/
theorem opened_of_startup {spawned : Spawned} (h : s.startup host c plan = (.ok spawned, s')) :
    s.Admits c plan ∧ ∃ s₁,
      launchSlots plan.parent.vm plan.policy [] plan.partitions s = (.ok spawned.children, s₁) ∧
      spawned.registry = s₁.registry.id ∧
      s' = ({ s₁ with
        bindings :=
          s₁.bound (spawned.children.flatMap LaunchedChild.pets) ++ s₁.bindings }.markRunning
            spawned.vmIds).openGate (spawned.children.flatMap LaunchedChild.pets) := by
  unfold startup at h
  split at h
  · simp at h
  · next caller hcaller =>
    split at h
    · next hsame =>
      dsimp only at h
      split at h
      · simp at h
      · next hdepth =>
        split at h
        · simp at h
        · next children s₁ hslots =>
          split at h
          · simp at h
          · next s₂ hthreads =>
            obtain ⟨hspawned, rfl⟩ := Prod.mk.inj h
            obtain rfl := Except.ok.inj hspawned
            obtain ⟨_, rfl⟩ := startThreads_eq_ok hthreads
            exact ⟨⟨caller, hcaller, hsame, by omega⟩, s₁, hslots, rfl, rfl⟩
    · simp at h

/-- A startup that fails was refused, or a slot or a thread failed. -/
theorem undone_of_startup {e : VmError} (h : s.startup host c plan = (.error e, s')) :
    (¬ s.Admits c plan ∧ s' = s) ∨
    (s.Admits c plan ∧
      launchSlots plan.parent.vm plan.policy [] plan.partitions s = (.error e, s')) ∨
    (s.Admits c plan ∧ ∃ children s₁ s₂,
      launchSlots plan.parent.vm plan.policy [] plan.partitions s = (.ok children, s₁) ∧
      startThreads host (children.flatMap LaunchedChild.pets) s₁ = (.error e, s₂) ∧
      s' = (s₂.shutGate (children.flatMap LaunchedChild.pets)).retireAll children) := by
  unfold startup at h
  split at h
  · next e hcurrent =>
    obtain ⟨_, rfl⟩ := Prod.mk.inj h
    refine Or.inl ⟨?_, rfl⟩
    rintro ⟨caller, hcaller, _⟩
    rw [hcurrent] at hcaller
    cases hcaller
  · next caller hcaller =>
    split at h
    · next hsame =>
      dsimp only at h
      split at h
      · next hdepth =>
        obtain ⟨_, rfl⟩ := Prod.mk.inj h
        refine Or.inl ⟨?_, rfl⟩
        rintro ⟨_, _, _, hadmits⟩
        omega
      · next hdepth =>
        have hadmits : s.Admits c plan := ⟨caller, hcaller, hsame, by omega⟩
        split at h
        · next e' s₁ hslots =>
          obtain ⟨he, rfl⟩ := Prod.mk.inj h
          exact Or.inr (Or.inl ⟨hadmits, Except.error.inj he ▸ hslots⟩)
        · next children s₁ hslots =>
          split at h
          · next e' s₂ hthreads =>
            obtain ⟨he, rfl⟩ := Prod.mk.inj h
            exact Or.inr (Or.inr
              ⟨hadmits, children, s₁, s₂, hslots, Except.error.inj he ▸ hthreads, rfl⟩)
          · simp at h
    · next hsame =>
      obtain ⟨_, rfl⟩ := Prod.mk.inj h
      refine Or.inl ⟨?_, rfl⟩
      rintro ⟨caller', hcaller', hsame', _⟩
      rw [hcaller] at hcaller'
      exact hsame (Except.ok.inj hcaller' ▸ hsame')

/-- What a startup that succeeds has done. -/
theorem startup_eq_ok {spawned : Spawned} (hs : s.Tidy)
    (hp : s.Admits c plan → plan.parent.vm.id < s.nextVm)
    (h : s.startup host c plan = (.ok spawned, s')) :
    s.Admits c plan ∧ ∃ s₁,
      launchSlots plan.parent.vm plan.policy [] plan.partitions s = (.ok spawned.children, s₁) ∧
      Launched plan.parent.vm plan.policy s spawned.children s₁ ∧
      spawned.registry = s.registry.id ∧
      s' = { s₁ with
        bindings := s.bound (spawned.children.flatMap LaunchedChild.pets) ++ s.bindings
        entered := s.entered ++
          (spawned.children.flatMap LaunchedChild.pets).map (·.handle.context)
        registry :=
          { s.registry with
            owners := s₁.registry.owners
            children := s.registry.children ++
              spawned.children.map (LaunchedChild.record plan.parent.vm.id .running) } } := by
  obtain ⟨hadmits, s₁, hslots, hregistry, rfl⟩ := opened_of_startup h
  have hlaunched := Launched.of_launchSlots (hp hadmits) hslots
  refine ⟨hadmits, s₁, hslots, hlaunched, by rw [hregistry, hlaunched.registry], ?_⟩
  have hmark := congrArg
    (fun s₂ : Site σ =>
      ({ s₂ with
        bindings := s.bound (spawned.children.flatMap LaunchedChild.pets) ++ s.bindings }).openGate
          (spawned.children.flatMap LaunchedChild.pets))
    (hlaunched.markRunning hs)
  rw [hlaunched.bound_eq, hlaunched.bindings]
  refine hmark.trans ?_
  rw [openGate, hlaunched.entered]

/-- A startup that fails before any slot is tried does nothing. If it fails later, the registry is
what it was: all that is left are used-up ids and what the transport keeps. -/
theorem startup_eq_error {e : VmError} (hs : s.Tidy)
    (hp : s.Admits c plan → plan.parent.vm.id < s.nextVm)
    (h : s.startup host c plan = (.error e, s')) :
    (¬ s.Admits c plan ∧ s' = s) ∨
    (s.Admits c plan ∧ ∃ before part after launched s₁ fault net,
      plan.partitions = before ++ part :: after ∧
      launchSlots plan.parent.vm plan.policy [] before s = (.ok launched, s₁) ∧
      launchSlot plan.parent.vm plan.policy part s₁ =
        (.error fault, { s₁ with nextVm := s₁.nextVm + 1, net }) ∧
      e = fault.toVmError part.slot ∧
      s' = { s with
        nextVm := s.nextVm + before.length + 1
        net :=
          s.registry.transport.releaseAll (launched.map LaunchedChild.communicator) net }) ∨
    (s.Admits c plan ∧ ∃ children s₁ pet reason,
      launchSlots plan.parent.vm plan.policy [] plan.partitions s = (.ok children, s₁) ∧
      pet ∈ children.flatMap LaunchedChild.pets ∧ host pet.handle.context = some reason ∧
      s' = { s with
        nextVm := s.nextVm + plan.partitions.length
        net :=
          s.registry.transport.releaseAll (children.map LaunchedChild.communicator) s₁.net }) := by
  rcases undone_of_startup h with
    hrefused | ⟨hadmits, hslots⟩ | ⟨hadmits, children, s₁, s₂, hslots, hthreads, rfl⟩
  · exact Or.inl hrefused
  · exact Or.inr (Or.inl ⟨hadmits, launchSlots_rollback hs (hp hadmits) hslots⟩)
  · have hlaunched := Launched.of_launchSlots (hp hadmits) hslots
    obtain ⟨before, pet, after, reason, hpets, hhost, _⟩ := startThreads_eq_error hthreads
    have hpet : pet ∈ children.flatMap LaunchedChild.pets := by simp [hpets]
    refine Or.inr (Or.inr ⟨hadmits, children, s₁, pet, reason, hslots, hpet, hhost, ?_⟩)
    -- With the gate shut the launch is as it was before the threads, and is taken back.
    rw [hlaunched.shutGate hs hthreads, hlaunched.retireAll hs (hp hadmits),
      (vmIds_of_launchSlots hslots).2]

theorem exists_eq_of_startup_eq_error {e : VmError} (hs : s.Tidy)
    (hp : s.Admits c plan → plan.parent.vm.id < s.nextVm)
    (h : s.startup host c plan = (.error e, s')) :
    ∃ next net, s.nextVm ≤ next ∧ s' = { s with nextVm := next, net } := by
  rcases startup_eq_error hs hp h with
    ⟨_, rfl⟩ | ⟨_, _, _, _, _, _, _, _, _, _, _, _, rfl⟩ | ⟨_, _, _, _, _, _, _, _, rfl⟩
  · exact ⟨_, _, Nat.le_refl _, rfl⟩
  · exact ⟨_, _, by omega, rfl⟩
  · exact ⟨_, _, by omega, rfl⟩

/-- The refusals of a context that runs in no VM. -/
theorem current_eq_error {e : VmError} (h : s.current c = .error e) :
    e = .notInitialized ∨ ∃ label, e = .noContext label := by
  unfold current at h
  split at h
  · split at h
    · simp at h
    · exact Or.inr ⟨_, (Except.error.inj h).symm⟩
  · exact Or.inl (Except.error.inj h).symm

/-- The refusals of a caller that may not launch the plan. -/
theorem startup_eq_error_of_not_admits {e : VmError} (hadmits : ¬ s.Admits c plan)
    (h : (s.startup host c plan).1 = .error e) :
    s.current c = .error e ∨ ∃ fault : LaunchFault, e = fault.toVmError 0 ∧
      ((∃ caller planned, fault = .wrongCaller caller planned) ∨
        ∃ depth, fault = .tooDeep depth) := by
  unfold startup at h
  cases hcurrent : s.current c with
  | error e' =>
    rw [hcurrent] at h
    exact Or.inl (congrArg Except.error (Except.error.inj h))
  | ok caller =>
    rw [hcurrent] at h
    dsimp only at h
    split at h
    · next hsame =>
      split at h
      · exact Or.inr ⟨_, (Except.error.inj h).symm, Or.inr ⟨_, rfl⟩⟩
      · exact absurd ⟨caller, hcurrent, hsame, by omega⟩ hadmits
    · exact Or.inr ⟨_, (Except.error.inj h).symm, Or.inl ⟨_, _, rfl⟩⟩

end Site

end VirtualTopology
