import VirtualTopology.Proofs.Partitioning
import VirtualTopology.Proofs.Starting
import VirtualTopology.Registry.Lifecycle

/-!
# What no operation takes back

Whatever the operations of a registry do, and in whatever state they find it, some things only go
one way. Ids are used up, a PET thread that was let into its entry stays on the list and is not let
in again, and a VM that is no live child once its id is given out never becomes one.

## Main definitions

- `Site.Advances`: a registry in its process, and the same at some later time.

## Main statements

- `Site.advances_bringUp`, `Site.advances_takeDown`, `Site.advances_retire`,
  `Site.advances_startup`: every operation advances.
- `Site.opening`: the children of a startup that succeeds, whatever state it was made in.
-/

namespace VirtualTopology

theorem Registry.child?_eq_none_iff {σ : Type} {r : Registry σ} {vm : Nat} :
    r.child? vm = none ↔ ∀ x ∈ r.children, x.vm ≠ vm := by
  simp [child?]

namespace Site

variable {σ : Type} {s s' s'' : Site σ} {parent : Vm} {policy : SpawnPolicy} {part : Partition}
  {parts : List Partition} {host : ThreadHost} {c : ExecutionContext} {plan : SpawnPlan}
  {pets : List LaunchedPet} {children : List LaunchedChild}

/-- The contexts that were let into their entries are of VMs whose ids were given out. -/
def Begun (s : Site σ) : Prop := ∀ c ∈ s.entered, c.Begun s.nextVm

/-- A registry in its process at some later time. -/
structure Advances (s s' : Site σ) : Prop where
  id : s'.registry.id = s.registry.id
  ids : s.nextVm ≤ s'.nextVm
  begun : s.Begun → s'.Begun
  counted : ∀ c : ExecutionContext, c.Begun s.nextVm → s'.entered.count c = s.entered.count c
  gone : ∀ vm < s.nextVm, s.registry.child? vm = none → s'.registry.child? vm = none

namespace Advances

theorem refl (s : Site σ) : s.Advances s :=
  ⟨rfl, Nat.le_refl _, fun h => h, fun _ _ => rfl, fun _ _ h => h⟩

theorem trans (h : s.Advances s') (h' : s'.Advances s'') : s.Advances s'' where
  id := h'.id.trans h.id
  ids := Nat.le_trans h.ids h'.ids
  begun := h'.begun ∘ h.begun
  counted c hc := (h'.counted c (hc.mono h.ids)).trans (h.counted c hc)
  gone vm hvm hnone := h'.gone vm (Nat.lt_of_lt_of_le hvm h.ids) (h.gone vm hvm hnone)

/-- If nobody is let into an entry, only the ids of children that come along matter. -/
theorem of_entered_eq (id : s'.registry.id = s.registry.id) (ids : s.nextVm ≤ s'.nextVm)
    (entered : s'.entered = s.entered)
    (records : ∀ r ∈ s'.registry.children, r.vm < s.nextVm →
      ∃ old ∈ s.registry.children, old.vm = r.vm) : s.Advances s' where
  id := id
  ids := ids
  begun h c hc := (h c (entered ▸ hc)).mono ids
  counted c _ := by rw [entered]
  gone vm hvm hnone := by
    rw [Registry.child?_eq_none_iff] at hnone ⊢
    rintro r hr rfl
    obtain ⟨old, hold, heq⟩ := records r hr hvm
    exact hnone old hold heq

/-- What does not concern children or entries. -/
theorem of_children_eq (id : s'.registry.id = s.registry.id) (ids : s.nextVm ≤ s'.nextVm)
    (entered : s'.entered = s.entered)
    (children : s'.registry.children = s.registry.children) : s.Advances s' :=
  of_entered_eq id ids entered fun r hr _ => ⟨r, children ▸ hr, rfl⟩

end Advances

theorem advances_rebind (s : Site σ) (bindings : Bindings) :
    s.Advances { s with bindings } :=
  .of_children_eq rfl (Nat.le_refl _) rfl rfl

/-! ### Going up and down -/

theorem advances_bringUp (s : Site σ) (c : ExecutionContext) : s.Advances (s.bringUp c).2 := by
  rcases h : s.bringUp c with ⟨_ | _, s'⟩
  · rcases bringUp_eq_error h with rfl | ⟨_, _, _, _, rfl⟩
    · exact .refl s'
    · exact .of_children_eq rfl (Nat.le_refl _) rfl rfl
  · obtain ⟨_, _, _, _, _, _, _, rfl⟩ := bringUp_eq_ok h
    exact .of_children_eq rfl (Nat.le_succ _) rfl rfl

theorem advances_takeDown (s : Site σ) (c : ExecutionContext) : s.Advances (s.takeDown c).2 := by
  unfold takeDown
  split
  · exact .refl s
  · split
    · exact .of_children_eq rfl (Nat.le_refl _) rfl rfl
    · exact .refl s

/-! ### Retiring -/

/-- The records that a retirement leaves are of other children, and they had records before. -/
theorem of_mem_children_retire {vm : Vm} {r : ChildRecord}
    (hr : r ∈ (s.retire vm).registry.children) :
    r.vm ≠ vm.id ∧ ∃ old ∈ s.registry.children, old.vm = r.vm := by
  unfold retire at hr
  split at hr
  · next hnone => exact ⟨by simpa using List.find?_eq_none.1 hnone r hr, r, hr, rfl⟩
  · obtain ⟨old, hold, rfl⟩ := List.mem_map.1 hr
    obtain ⟨hmem, hne⟩ := List.mem_filter.1 hold
    unfold ChildRecord.reparent
    split <;> exact ⟨by simpa using hne, old, hmem, rfl⟩

theorem advances_retire (s : Site σ) (vm : Vm) : s.Advances (s.retire vm) := by
  obtain ⟨_, _, _, h⟩ := s.exists_tables_retire vm
  exact .of_entered_eq (by rw [h]) (Nat.le_of_eq (by rw [h])) (by rw [h])
    fun r hr _ => (of_mem_children_retire hr).2

theorem advances_retireAll (s : Site σ) (children : List LaunchedChild) :
    s.Advances (s.retireAll children) := by
  induction children generalizing s with
  | nil => exact .refl s
  | cons child children ih => exact (s.advances_retire child.vm).trans (ih _)

theorem advances_launchSlot (parent : Vm) (policy : SpawnPolicy) (part : Partition) (s : Site σ) :
    s.Advances (launchSlot parent policy part s).2 := by
  rcases h : launchSlot parent policy part s with ⟨_ | child, s'⟩
  · rcases launchSlot_eq_error h with ⟨_, _, _, _, rfl⟩ | ⟨_, _, _, _, _, _, rfl⟩ <;>
      exact .of_children_eq rfl (Nat.le_succ _) rfl rfl
  · obtain ⟨_, _, _, _, _, rfl, rfl⟩ := launchSlot_eq_ok h
    refine .of_entered_eq rfl (Nat.le_succ _) rfl fun r hr hlt => ?_
    rcases List.mem_append.1 hr with hr | hr
    · exact ⟨r, hr, rfl⟩
    · -- The record that comes along has the id that is given out now.
      obtain rfl := List.mem_singleton.1 hr
      exact absurd hlt (Nat.lt_irrefl _)

theorem advances_launchSlots (parent : Vm) (policy : SpawnPolicy) (done : List LaunchedChild)
    (parts : List Partition) (s : Site σ) :
    s.Advances (launchSlots parent policy done parts s).2 := by
  induction parts generalizing done s with
  | nil => exact .refl s
  | cons part parts ih =>
    have hslot := advances_launchSlot parent policy part s
    rw [launchSlots]
    split
    · next _ s' h =>
      rw [h] at hslot
      exact hslot.trans (s'.advances_retireAll done)
    · next child s' h =>
      rw [h] at hslot
      exact hslot.trans (ih _ _)

/-- Nobody is let into an entry before the gate opens. -/
theorem entered_launchSlots (h : launchSlots parent policy [] parts s = (.ok children, s')) :
    s'.entered = s.entered := by
  refine launchSlots_induction (P := fun _ s₁ => s₁.entered = s.entered) ?_ h rfl
  intro _ _ _ _ _ _ hdone hslot
  obtain ⟨_, _, _, _, _, _, rfl⟩ := launchSlot_eq_ok hslot
  exact hdone

theorem advances_markRunning (s : Site σ) (vms : List Nat) : s.Advances (s.markRunning vms) := by
  refine .of_entered_eq rfl (Nat.le_refl _) rfl fun r hr _ => ?_
  obtain ⟨old, hold, rfl⟩ := List.mem_map.1 hr
  refine ⟨old, hold, ?_⟩
  split <;> rfl

/-- Through a gate that opens go PETs of VMs that are new since `s`. -/
theorem Advances.openGate (h : s.Advances s')
    (fresh : ∀ pet ∈ pets, s.nextVm ≤ pet.handle.vm.id ∧ pet.handle.vm.id < s'.nextVm)
    (entered : s'.entered = s.entered) : s.Advances (s'.openGate pets) where
  id := h.id
  ids := h.ids
  begun hs c hc := by
    rcases List.mem_append.1 hc with hc | hc
    · exact h.begun hs c hc
    · obtain ⟨pet, hpet, rfl⟩ := List.mem_map.1 hc
      exact (fresh pet hpet).2
  counted c hc := by
    have hnew : c ∉ pets.map (·.handle.context) := by
      intro hmem
      obtain ⟨pet, hpet, rfl⟩ := List.mem_map.1 hmem
      exact Nat.not_lt.2 (fresh pet hpet).1 hc
    show (s'.entered ++ pets.map (·.handle.context)).count c = s.entered.count c
    rw [List.count_append, List.count_eq_zero.2 hnew, entered, Nat.add_zero]
  gone := h.gone

/-- The children of a startup that succeeds: one for each part, with the ids that follow, and every
PET of them goes through the gate. -/
theorem opening {spawned : Spawned} (h : s.startup host c plan = (.ok spawned, s')) :
    spawned.registry = s.registry.id ∧
    spawned.children.map LaunchedChild.partition = plan.partitions ∧
    spawned.vmIds = List.range' s.nextVm plan.partitions.length ∧
    s'.nextVm = s.nextVm + plan.partitions.length ∧
    s'.entered = s.entered ++
      (spawned.children.flatMap LaunchedChild.pets).map (·.handle.context) ∧
    s.Advances s' := by
  obtain ⟨_, s₁, hslots, hregistry, rfl⟩ := opened_of_startup h
  have hadvances := advances_launchSlots plan.parent.vm plan.policy [] plan.partitions s
  rw [hslots] at hadvances
  obtain ⟨hids, hnext⟩ := vmIds_of_launchSlots hslots
  have hentered := entered_launchSlots hslots
  refine ⟨hregistry.trans hadvances.id, partitions_of_launchSlots hslots, hids, hnext,
    congrArg (· ++ _) hentered, ?_⟩
  have hmarked := (hadvances.trans (s₁.advances_rebind
    (s₁.bound (spawned.children.flatMap LaunchedChild.pets) ++ s₁.bindings))).trans
      (advances_markRunning _ spawned.vmIds)
  refine hmarked.openGate (fun pet hpet => ?_) hentered
  obtain ⟨child, hchild, hpet⟩ := List.mem_flatMap.1 hpet
  obtain ⟨_, _, rfl⟩ := List.mem_map.1 hpet
  have hid : child.vm.id ∈ List.range' s.nextVm plan.partitions.length :=
    hids ▸ List.mem_map_of_mem hchild
  obtain ⟨hlow, hhigh⟩ := List.mem_range'_1.1 hid
  exact ⟨hlow, hnext ▸ hhigh⟩

/-- The children of a startup are in slot order. -/
theorem slots_of_startup {spawned : Spawned} (built : plan.IsBuilt)
    (h : s.startup host c plan = (.ok spawned, s')) :
    spawned.children.map (·.partition.slot) = List.range spawned.children.length := by
  obtain ⟨_, hparts, _⟩ := opening h
  obtain ⟨_, hbuild⟩ := built
  obtain ⟨_, _, hlength, hslots, _⟩ := SpawnPlan.build_eq_ok hbuild
  rw [← hparts, List.map_map] at hslots
  rw [← hparts, List.length_map] at hlength
  exact hslots.trans (congrArg List.range hlength.symm)

/-- The children of a startup that succeeds have ids that were not given out before. -/
theorem fresh_of_startup {spawned : Spawned} {child : LaunchedChild}
    (h : s.startup host c plan = (.ok spawned, s')) (hchild : child ∈ spawned.children) :
    s.nextVm ≤ child.vm.id ∧ child.vm.id < s'.nextVm := by
  obtain ⟨_, _, hids, hnext, _⟩ := opening h
  have hmem : child.vm.id ∈ List.range' s.nextVm plan.partitions.length :=
    hids ▸ List.mem_map_of_mem hchild
  obtain ⟨hlow, hhigh⟩ := List.mem_range'_1.1 hmem
  exact ⟨hlow, hnext ▸ hhigh⟩

/-- The contexts of the PETs of children with ids of their own are told apart. -/
theorem nodup_contexts (ids : (children.map (·.vm.id)).Nodup) :
    ((children.flatMap LaunchedChild.pets).map (·.handle.context)).Nodup := by
  rw [List.map_flatMap, List.nodup_flatMap]
  constructor
  · intro c _
    rw [LaunchedChild.pets, List.map_map]
    exact List.nodup_range.map fun m n heq => by simpa [VmHandle.context] using heq
  · refine (List.pairwise_map.1 ids).imp fun {c c'} hne => ?_
    intro x hx hx'
    obtain ⟨pet, hpet, rfl⟩ := List.mem_map.1 hx
    obtain ⟨pet', hpet', heq⟩ := List.mem_map.1 hx'
    obtain ⟨_, _, rfl⟩ := List.mem_map.1 hpet
    obtain ⟨_, _, rfl⟩ := List.mem_map.1 hpet'
    exact hne (ExecutionContext.pet.inj heq).1.symm

theorem nodup_contexts_of_startup {spawned : Spawned}
    (h : s.startup host c plan = (.ok spawned, s')) :
    ((spawned.children.flatMap LaunchedChild.pets).map (·.handle.context)).Nodup := by
  have hids : spawned.vmIds.Nodup := (opening h).2.2.1 ▸ List.nodup_range'
  exact nodup_contexts hids

theorem advances_startup (s : Site σ) (host : ThreadHost) (c : ExecutionContext)
    (plan : SpawnPlan) : s.Advances (s.startup host c plan).2 := by
  rcases h : s.startup host c plan with ⟨e | spawned, s'⟩
  · rcases undone_of_startup h with
      ⟨_, rfl⟩ | ⟨_, hslots⟩ | ⟨_, children, s₁, s₂, hslots, hthreads, rfl⟩
    · exact .refl s'
    · have hadvances := advances_launchSlots plan.parent.vm plan.policy [] plan.partitions s
      rwa [hslots] at hadvances
    · have hadvances := advances_launchSlots plan.parent.vm plan.policy [] plan.partitions s
      rw [hslots] at hadvances
      obtain ⟨_, _, _, _, _, _, _, rfl⟩ := startThreads_eq_error hthreads
      exact (hadvances.trans (s₁.advances_rebind _)).trans (advances_retireAll _ children)
  · exact (opening h).2.2.2.2.2

end Site

end VirtualTopology
