import VirtualTopology.Proofs.Advance
import VirtualTopology.Proofs.Operations

/-!
# What a registry does not touch

An operation on a registry calls the transport of the registry and binds contexts for the registry.
What its transport does not touch stays as it is, and so do the bindings for other registries and
the ids that were given out. This holds in every state, also in one that no run comes to.

## Main definitions

- `Transport.Spares`: a transport that leaves a part of the state alone.
- `Transport.left`, `Transport.right`: a transport beside another that has a state of its own.
- `Site.Spares`: what an operation over such a transport leaves alone.

## Main statements

- `Chronicle.spares_act`: every operation leaves it alone.
-/

namespace VirtualTopology

variable {σ τ ρ : Type}

/-! ### Transports side by side -/

/-- A transport that leaves a part of the state alone, whatever it is called for. -/
structure Transport.Spares (part : σ → ρ) (t : Transport σ) : Prop where
  init (size : Nat) (n : σ) : part (t.init size n).2 = part n
  derive (parent : Communicator) (size : Nat) (n : σ) : part (t.derive parent size n).2 = part n
  release (c : Communicator) (n : σ) : part (t.release c n).2 = part n
  finalize (world : Communicator) (n : σ) : part (t.finalize world n).2 = part n

/-- A transport with another state beside its own. -/
def Transport.left (t : Transport σ) : Transport (σ × τ) where
  name := t.name
  init size n := (t.init size n.1).map id (·, n.2)
  derive parent size n := (t.derive parent size n.1).map id (·, n.2)
  release c n := (t.release c n.1).map id (·, n.2)
  finalize world n := (t.finalize world n.1).map id (·, n.2)

/-- A transport with another state before its own. -/
def Transport.right (t : Transport τ) : Transport (σ × τ) where
  name := t.name
  init size n := (t.init size n.2).map id (n.1, ·)
  derive parent size n := (t.derive parent size n.2).map id (n.1, ·)
  release c n := (t.release c n.2).map id (n.1, ·)
  finalize world n := (t.finalize world n.2).map id (n.1, ·)

theorem Transport.spares_right (t : Transport τ) :
    (t.right : Transport (σ × τ)).Spares Prod.fst :=
  ⟨fun _ _ => rfl, fun _ _ _ => rfl, fun _ _ => rfl, fun _ _ => rfl⟩

namespace Site

variable {s s' s'' : Site σ} {part : σ → ρ}

/-- What an operation on a registry changes neither in the process nor in a part of the state that
its transport leaves alone. -/
structure Spares (part : σ → ρ) (s s' : Site σ) : Prop extends Leaves s s' where
  net : part s'.net = part s.net

namespace Spares

theorem refl (part : σ → ρ) (s : Site σ) : s.Spares part s := ⟨.refl s, rfl⟩

theorem trans (h : s.Spares part s') (h' : s'.Spares part s'') : s.Spares part s'' where
  id := h'.id.trans h.id
  transport := h'.transport.trans h.transport
  next := Nat.le_trans h.next h'.next
  others r hne := (h'.others r (h.id ▸ hne)).trans (h.others r hne)
  net := h'.net.trans h.net

/-- The transport is the same afterwards, so it still leaves the part alone. -/
theorem calls (h : s.Spares part s') (ht : s.registry.transport.Spares part) :
    s'.registry.transport.Spares part := h.transport ▸ ht

end Spares

/-! ### Going up and down, and retiring -/

theorem spares_bringUp (ht : s.registry.transport.Spares part) (c : ExecutionContext) :
    s.Spares part (s.bringUp c).2 := by
  refine ⟨s.leaves_bringUp c, ?_⟩
  rcases hup : s.bringUp c with ⟨e | global, s'⟩
  · rcases bringUp_eq_error hup with rfl | ⟨size, _, net, hinit, rfl⟩
    · rfl
    · exact (congrArg (part ·.2) hinit).symm.trans (ht.init size s.net)
  · obtain ⟨_, t, _, net, _, hinit, _, rfl⟩ := bringUp_eq_ok hup
    exact (congrArg (part ·.2) hinit).symm.trans (ht.init t.peCount s.net)

theorem spares_takeDown (ht : s.registry.transport.Spares part) (c : ExecutionContext) :
    s.Spares part (s.takeDown c).2 := by
  refine ⟨s.leaves_takeDown c, ?_⟩
  unfold takeDown
  split
  · rfl
  · split
    · exact ht.finalize _ s.net
    · rfl

theorem spares_retire (ht : s.registry.transport.Spares part) (vm : Vm) :
    s.Spares part (s.retire vm) := by
  refine ⟨s.leaves_retire vm, ?_⟩
  unfold retire
  split
  · rfl
  · exact ht.release _ s.net

theorem spares_retireAll (ht : s.registry.transport.Spares part) (children : List LaunchedChild) :
    s.Spares part (s.retireAll children) := by
  induction children generalizing s with
  | nil => exact .refl part s
  | cons child children ih =>
    have hretire := spares_retire ht child.vm
    exact hretire.trans (ih (hretire.calls ht))

/-! ### Launching -/

theorem spares_launchSlot (ht : s.registry.transport.Spares part) (parent : Vm)
    (policy : SpawnPolicy) (p : Partition) :
    s.Spares part (launchSlot parent policy p s).2 := by
  rcases hslot : launchSlot parent policy p s with ⟨fault | child, s'⟩
  · rcases launchSlot_eq_error hslot with ⟨_, _, _, _, rfl⟩ | ⟨_, _, net, _, hderive, _, rfl⟩
    · exact ⟨⟨rfl, rfl, Nat.le_succ _, fun _ _ => rfl⟩, rfl⟩
    · exact ⟨⟨rfl, rfl, Nat.le_succ _, fun _ _ => rfl⟩,
        (congrArg (part ·.2) hderive).symm.trans (ht.derive _ _ s.net)⟩
  · obtain ⟨_, _, net, _, hderive, _, rfl⟩ := launchSlot_eq_ok hslot
    exact ⟨⟨rfl, rfl, Nat.le_succ _, fun _ _ => rfl⟩,
      (congrArg (part ·.2) hderive).symm.trans (ht.derive _ _ s.net)⟩

theorem spares_launchSlots (ht : s.registry.transport.Spares part) (parent : Vm)
    (policy : SpawnPolicy) (done : List LaunchedChild) (parts : List Partition) :
    s.Spares part (launchSlots parent policy done parts s).2 := by
  induction parts generalizing done s with
  | nil => exact .refl part s
  | cons p parts ih =>
    have hslot := spares_launchSlot ht parent policy p
    rw [launchSlots]
    rcases h : launchSlot parent policy p s with ⟨fault | child, s₁⟩
    · rw [h] at hslot
      exact hslot.trans (spares_retireAll (hslot.calls ht) done)
    · rw [h] at hslot
      exact hslot.trans (ih (hslot.calls ht) _)

/-- The bindings that PETs make and lose are for the registry. -/
theorem spares_bound (part : σ → ρ) (s : Site σ) (pets : List LaunchedPet) :
    s.Spares part { s with bindings := s.bound pets ++ s.bindings } where
  id := rfl
  transport := rfl
  next := Nat.le_refl _
  others r hne := by
    dsimp only
    rw [Bindings.ofRegistry_append, ofRegistry_bound_of_ne hne, List.nil_append]
  net := rfl

theorem spares_shutGate (part : σ → ρ) (s : Site σ) (pets : List LaunchedPet) :
    s.Spares part (s.shutGate pets) := by
  induction pets generalizing s with
  | nil => exact .refl part s
  | cons pet pets ih =>
    have hunbind : s.Spares part
        { s with bindings := s.bindings.unbind pet.handle.context s.registry.id } :=
      ⟨⟨rfl, rfl, Nat.le_refl _, fun _ hne => Bindings.ofRegistry_unbind_of_ne hne⟩, rfl⟩
    exact hunbind.trans (ih _)

theorem spares_startup (ht : s.registry.transport.Spares part) (host : ThreadHost)
    (c : ExecutionContext) (plan : SpawnPlan) : s.Spares part (s.startup host c plan).2 := by
  have hslots := spares_launchSlots ht plan.parent.vm plan.policy [] plan.partitions
  rcases hstartup : s.startup host c plan with ⟨e | spawned, s'⟩
  · rcases undone_of_startup hstartup with
      ⟨_, rfl⟩ | ⟨_, hfault⟩ | ⟨_, children, s₁, s₂, hlaunched, hthreads, rfl⟩
    · exact .refl part s'
    · rwa [hfault] at hslots
    · rw [hlaunched] at hslots
      obtain ⟨before, _, _, _, _, _, _, rfl⟩ := startThreads_eq_error hthreads
      have hshut := (hslots.trans (spares_bound part s₁ before)).trans
        (spares_shutGate part _ (children.flatMap LaunchedChild.pets))
      exact hshut.trans (spares_retireAll (hshut.calls ht) children)
  · obtain ⟨_, s₁, hlaunched, _, rfl⟩ := opened_of_startup hstartup
    rw [hlaunched] at hslots
    have hbound := hslots.trans
      (spares_bound part s₁ (spawned.children.flatMap LaunchedChild.pets))
    exact hbound.trans ⟨⟨rfl, rfl, Nat.le_refl _, fun _ _ => rfl⟩, rfl⟩

end Site

/-! ### The contexts that are bound -/

/-- The context that performs an operation, where that matters. -/
def Operation.caller? : Operation → Option ExecutionContext
  | bringUp c | takeDown c | startup _ c _ => some c
  | retire _ => none

namespace Site

variable {s s' : Site σ} {b : Binding}

theorem bindings_retireAll (s : Site σ) (children : List LaunchedChild) :
    (s.retireAll children).bindings = s.bindings := by
  obtain ⟨_, _, _, h⟩ := s.exists_tables_retireAll children
  rw [h]

theorem bindings_launchSlots (parent : Vm) (policy : SpawnPolicy) (done : List LaunchedChild)
    (parts : List Partition) (s : Site σ) :
    (launchSlots parent policy done parts s).2.bindings = s.bindings := by
  induction parts generalizing done s with
  | nil => rfl
  | cons p parts ih =>
    rw [launchSlots]
    rcases hslot : launchSlot parent policy p s with ⟨fault | child, s₁⟩
    · refine (bindings_retireAll s₁ done).trans ?_
      rcases launchSlot_eq_error hslot with ⟨_, _, _, _, rfl⟩ | ⟨_, _, _, _, _, _, rfl⟩ <;> rfl
    · refine (ih _ s₁).trans ?_
      obtain ⟨_, _, _, _, _, _, rfl⟩ := launchSlot_eq_ok hslot
      rfl

/-- The contexts that a startup binds are of PETs of VMs with new ids. -/
theorem mem_bindings_startup {host : ThreadHost} {c : ExecutionContext} {plan : SpawnPlan}
    (hb : b ∈ (s.startup host c plan).2.bindings) : b ∈ s.bindings ∨
      ∃ vm, b.context.child? = some vm ∧ s.nextVm ≤ vm ∧ vm < (s.startup host c plan).2.nextVm := by
  have hkept := bindings_launchSlots plan.parent.vm plan.policy [] plan.partitions s
  -- The PETs that are bound are of the children of the launch.
  have hnew : ∀ children s₁, launchSlots plan.parent.vm plan.policy [] plan.partitions s =
      (.ok children, s₁) → ∀ pets ⊆ children.flatMap LaunchedChild.pets, b ∈ s₁.bound pets →
        ∃ vm, b.context.child? = some vm ∧ s.nextVm ≤ vm ∧ vm < s₁.nextVm := by
    intro children s₁ hslots pets hpets hb
    obtain ⟨hids, hnext⟩ := vmIds_of_launchSlots hslots
    obtain ⟨pet, hpet, rfl⟩ := List.mem_map.1 (List.mem_reverse.1 hb)
    obtain ⟨child, hchild, hpet⟩ := List.mem_flatMap.1 (hpets hpet)
    obtain ⟨n, _, rfl⟩ := List.mem_map.1 hpet
    have hid : child.vm.id ∈ List.range' s.nextVm plan.partitions.length :=
      hids ▸ List.mem_map_of_mem hchild
    rw [hnext]
    exact ⟨child.vm.id, rfl, List.mem_range'_1.1 hid⟩
  rcases hstartup : s.startup host c plan with ⟨e | spawned, s'⟩
  · rw [hstartup] at hb
    rcases undone_of_startup hstartup with
      ⟨_, rfl⟩ | ⟨_, hfault⟩ | ⟨_, children, s₁, s₂, hslots, hthreads, rfl⟩
    · exact Or.inl hb
    · rw [hfault] at hkept
      exact Or.inl (hkept ▸ hb)
    · rw [hslots] at hkept
      obtain ⟨before, pet, after, _, hpets, _, _, rfl⟩ := startThreads_eq_error hthreads
      rw [bindings_retireAll, bindings_shutGate] at hb
      rcases List.mem_append.1 (List.mem_filter.1 hb).1 with hb | hb
      · obtain ⟨vm, hvm, hlow, hhigh⟩ :=
          hnew children s₁ hslots before (hpets ▸ List.subset_append_left before _) hb
        have hused := (advances_retireAll (shutGate { s₁ with bindings := s₁.bound before ++
          s₁.bindings } (children.flatMap LaunchedChild.pets)) children).ids
        exact Or.inr ⟨vm, hvm, hlow, Nat.lt_of_lt_of_le hhigh hused⟩
      · exact Or.inl (hkept ▸ hb)
  · rw [hstartup] at hb
    obtain ⟨_, s₁, hslots, _, rfl⟩ := opened_of_startup hstartup
    rw [hslots] at hkept
    rcases List.mem_append.1 hb with hb | hb
    · exact Or.inr (hnew _ s₁ hslots _ (List.Subset.refl _) hb)
    · exact Or.inl (hkept ▸ hb)

end Site

/-- A context that an operation binds is the caller, or a PET of a VM with a new id. -/
theorem Chronicle.mem_bindings_act {k : Chronicle σ} {op : Operation} {b : Binding}
    (hb : b ∈ (k.act op).stage.site.bindings) :
    b ∈ k.stage.site.bindings ∨ op.caller? = some b.context ∨
      ∃ vm, b.context.child? = some vm ∧ k.stage.site.nextVm ≤ vm ∧
        vm < (k.act op).stage.site.nextVm := by
  cases op with
  | bringUp c =>
    change b ∈ (k.stage.bringUp c).site.bindings at hb
    rw [Stage.site_bringUp] at hb
    rcases hup : k.stage.site.bringUp c with ⟨e | global, s'⟩
    · rw [hup] at hb
      rcases Site.bringUp_eq_error hup with rfl | ⟨_, _, _, _, rfl⟩ <;> exact Or.inl hb
    · rw [hup] at hb
      obtain ⟨_, _, _, _, _, _, _, rfl⟩ := Site.bringUp_eq_ok hup
      cases List.mem_cons.1 hb with
      | inl heq => exact Or.inr (Or.inl (by rw [heq]; rfl))
      | inr hb => exact Or.inl hb
  | takeDown c =>
    refine Or.inl ?_
    change b ∈ (k.stage.site.takeDown c).2.bindings at hb
    unfold Site.takeDown at hb
    split at hb
    · exact hb
    · split at hb
      · exact (List.mem_filter.1 hb).1
      · exact hb
  | startup host c plan =>
    change b ∈ (k.stage.startup host c plan).site.bindings at hb
    rw [Stage.site_startup] at hb
    refine (Site.mem_bindings_startup hb).imp_right fun hnew => Or.inr ?_
    show ∃ vm, _ ∧ _ ∧ vm < (k.stage.startup host c plan).site.nextVm
    rwa [Stage.site_startup]
  | retire position =>
    refine Or.inl ?_
    cases hnext : k.next? position with
    | none => rwa [act_retire_of_none hnext] at hb
    | some child =>
      obtain ⟨_, _, _, _, _, _, hact⟩ := act_retire_of_some hnext
      rw [hact] at hb
      exact (Site.bindings_retireAll k.stage.site [child]) ▸ hb

/-! ### The whole of an operation -/

/-- An operation on a registry leaves alone what the transport of the registry leaves alone. -/
theorem Chronicle.spares_act {k : Chronicle σ} {part : σ → ρ}
    (ht : k.stage.site.registry.transport.Spares part) (op : Operation) :
    k.stage.site.Spares part (k.act op).stage.site := by
  cases op with
  | bringUp c =>
    show k.stage.site.Spares part (k.stage.bringUp c).site
    rw [Stage.site_bringUp]
    exact Site.spares_bringUp ht c
  | takeDown c => exact Site.spares_takeDown ht c
  | startup host c plan =>
    show k.stage.site.Spares part (k.stage.startup host c plan).site
    rw [Stage.site_startup]
    exact Site.spares_startup ht host c plan
  | retire position =>
    cases hnext : k.next? position with
    | none =>
      rw [act_retire_of_none hnext]
      exact .refl part _
    | some child =>
      obtain ⟨_, _, _, _, _, _, hact⟩ := act_retire_of_some hnext
      rw [hact]
      exact Site.spares_retire ht child.vm

/-- What no operation changes, also in a state that no run comes to. -/
theorem Chronicle.leaves (k : Chronicle σ) (op : Operation) :
    k.stage.site.Leaves (k.act op).stage.site := by
  have hnothing : k.stage.site.registry.transport.Spares fun _ => () :=
    ⟨fun _ _ => rfl, fun _ _ _ => rfl, fun _ _ => rfl, fun _ _ => rfl⟩
  exact (spares_act hnothing op).toLeaves

end VirtualTopology
