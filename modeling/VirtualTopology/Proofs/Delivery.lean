import VirtualTopology.Proofs.Custody
import VirtualTopology.Proofs.Layout

/-!
# What a plan announces and what a startup builds

A plan says for every slot which elements its child will have, how many PETs and of what kind. A
startup that succeeds builds just that: the handle, the VMs, the table of holders and the records
all follow the parts of the plan, slot by slot, and whatever has nothing to do with the plan stays
as it was.

## Main definitions

- `SpawnPlan.Announces`: a child is what a plan says of the child of a slot.

## Main statements

- `Site.announces_of_launchSlots`: the children of a launch are those of the plan, slot by slot.
- `Chronicle.Reachable.delivery`: the handle and the registry after any startup that succeeds.
-/

namespace VirtualTopology

/-- A child is what a plan says of the child of a slot. -/
structure SpawnPlan.Announces (plan : SpawnPlan) (slot : Nat) (child : LaunchedChild) : Prop where
  part : plan.partition? slot = some child.partition
  number : child.partition.slot = slot
  groups : child.vm.pets.map PetRecord.pes = plan.policy.petGroups child.partition.pes
  petCount : plan.childPetCount? slot = some child.vm.petCount
  ranks : plan.childPetCount? slot = some child.communicator.size
  parent : child.vm.parent = some plan.parent.vm.id
  depth : child.vm.depth = plan.parent.vm.depth + 1
  threads : child.vm.threadCompat = true ↔ plan.policy = .maxPes

theorem SpawnPlan.partition?_eq_getElem? (plan : SpawnPlan) (slot : Nat) :
    plan.partition? slot = plan.partitions[slot]? := by
  rw [partition?, partitions, List.getElem?_map]

theorem SpawnPlan.length_partitions (plan : SpawnPlan) :
    plan.partitions.length = plan.childCount := by
  rw [partitions, List.length_map, childCount]

theorem SpawnPolicy.threadCompat_eq_true_iff (policy : SpawnPolicy) :
    policy.threadCompat = true ↔ policy = .maxPes := by
  cases policy <;> simp [threadCompat]

/-! ### A launch -/

namespace Site

variable {σ : Type} {s s' : Site σ} {parent : Vm} {policy : SpawnPolicy} {parts : List Partition}
  {children : List LaunchedChild} {plan : SpawnPlan} {count : Nat}

/-- The children of a launch are those of the plan, if communicators are as large as they are asked
for. -/
theorem announces_of_launchSlots (built : SpawnPlan.build plan.parent count plan.policy = .ok plan)
    (launched : Launched plan.parent.vm plan.policy s children s')
    (parts : children.map LaunchedChild.partition = plan.partitions)
    (sizes : ∀ child ∈ children,
      child.communicator.size = (plan.policy.petGroups child.partition.pes).length)
    {slot : Nat} {child : LaunchedChild} (hchild : children[slot]? = some child) :
    plan.Announces slot child := by
  have hmem := List.mem_of_getElem? hchild
  have hpart : plan.partition? slot = some child.partition := by
    rw [plan.partition?_eq_getElem?, ← parts, List.getElem?_map, hchild, Option.map_some]
  have hcount : plan.childPetCount? slot =
      some (plan.policy.petGroups child.partition.pes).length := by
    rw [SpawnPlan.childPetCount?, hpart, Option.map_some]
  have hvm := launched.built child hmem
  have hpets : child.vm.pets = Vm.directoryOf (plan.policy.petGroups child.partition.pes) := by
    rw [hvm]
    rfl
  refine
    { part := hpart, number := ?_, groups := ?_, petCount := ?_, ranks := ?_, parent := ?_
      depth := ?_, threads := ?_ }
  · obtain ⟨_, _, _, hnumbers, _⟩ := SpawnPlan.build_eq_ok built
    exact number_eq_of_map_eq_range Partition.slot hnumbers
      (plan.partition?_eq_getElem? slot ▸ hpart)
  · rw [hpets, Vm.map_pes_directoryOf]
  · rw [hcount, Vm.petCount, hpets, Vm.length_directoryOf]
  · rw [hcount, sizes child hmem]
  · rw [hvm]
    rfl
  · rw [hvm]
    rfl
  · rw [← plan.policy.threadCompat_eq_true_iff, hvm]
    rfl

end Site

/-! ### Runs -/

namespace Chronicle

variable {k : Chronicle (Fabric × LocalTransport)} {plan : SpawnPlan} {host : ThreadHost}
  {c : ExecutionContext} {spawned : Spawned} {after : Site (Fabric × LocalTransport)}

/-- Over a local transport, a startup that succeeds builds what its plan announces. The handle has a
child for each slot, in slot order and under new ids that go up; a child is found by its slot, has
the PETs, the communicator, the parent and the depth the plan says, and holds the elements of its
part. The parts are all the parent has. Elements of other VMs keep their holders, and the registry is
otherwise as before but for the records of the children, which come last. -/
theorem Reachable.delivery (h : Reachable .anyLocal k) (known : k.stage.Plans plan)
    (started : k.stage.site.startup host c plan = (.ok spawned, after)) :
    spawned.children.length = plan.childCount ∧
    spawned.vmIds.Pairwise (· < ·) ∧
    (∀ id ∈ spawned.vmIds, k.stage.site.nextVm ≤ id ∧ id < after.nextVm ∧
      ∀ v ∈ k.built, v.id < id) ∧
    (∀ slot, spawned.child? slot = spawned.children[slot]?) ∧
    (∀ slot < plan.childCount, ∃ child, spawned.children[slot]? = some child ∧
      spawned.vmIds[slot]? = some child.vm.id ∧ plan.Announces slot child ∧
      ∀ pe ∈ child.partition.pes, after.registry.owner? pe = some child.vm.id) ∧
    plan.partitions.flatMap Partition.pes = plan.parent.vm.pes ∧
    (∀ pe ∉ plan.parent.vm.pes,
      after.registry.owner? pe = k.stage.site.registry.owner? pe) ∧
    after.registry = { k.stage.site.registry with
      owners := after.registry.owners
      children := k.stage.site.registry.children ++
        spawned.children.map (LaunchedChild.record plan.parent.vm.id .running) } := by
  have hsound := h.stage.sound
  obtain ⟨hadmits, s₁, hslots, hlaunched, _, rfl⟩ :=
    Site.startup_eq_ok hsound.tidy hsound.parent_lt started
  obtain ⟨_, count, hbuild⟩ := hsound.live_of_admits known hadmits
  have hparts := Site.partitions_of_launchSlots hslots
  rw [List.map_nil, List.nil_append] at hparts
  have hcount : spawned.children.length = plan.childCount := by
    rw [← plan.length_partitions, ← hparts, List.length_map]
  have hids : spawned.vmIds = List.range' k.stage.site.nextVm plan.childCount := by
    rw [← plan.length_partitions]
    exact (Site.vmIds_of_launchSlots hslots).1
  have hcover := SpawnPlan.flatMap_pes_partitions hbuild
  have hannounced : ∀ {slot child}, spawned.children[slot]? = some child →
      plan.Announces slot child :=
    Site.announces_of_launchSlots hbuild hlaunched hparts
      (Site.sizes_of_launchSlots h.exists_root.1 hslots)
  refine ⟨hcount, ?_, ?_, Spawned.child?_eq_getElem? ?_, ?_, hcover, ?_, rfl⟩
  · rw [hids]
    exact List.pairwise_lt_range'
  · intro id hid
    obtain ⟨child, hchild, rfl⟩ := List.mem_map.1 hid
    obtain ⟨hlow, hhigh⟩ := hlaunched.fresh child hchild
    exact ⟨hlow, hhigh, fun v hv => Nat.lt_of_lt_of_le (h.faithful.ids v hv) hlow⟩
  · obtain ⟨_, _, hlength, hnumbers, _⟩ := SpawnPlan.build_eq_ok hbuild
    rw [hcount, ← plan.length_partitions, hlength, ← hnumbers, ← hparts, List.map_map]
    rfl
  · intro slot hslot
    obtain ⟨child, hchild⟩ : ∃ child, spawned.children[slot]? = some child :=
      ⟨_, List.getElem?_eq_getElem (hcount ▸ hslot)⟩
    refine ⟨child, hchild, ?_, hannounced hchild, fun pe hpe => ?_⟩
    · rw [Spawned.vmIds, List.getElem?_map, hchild, Option.map_some]
    · exact (hlaunched.taken child (List.mem_of_getElem? hchild) pe hpe).1
  · intro pe hpe
    refine hlaunched.others pe fun child hchild hmem => hpe ?_
    rw [← hcover, ← hparts]
    exact List.mem_flatMap.2 ⟨_, List.mem_map_of_mem hchild, hmem⟩

/-- VM 4 of `regrouped` has the three cores of an image; this is a plan for children of two cores and
of one. -/
def thirds : SpawnPlan where
  parent := ⟨.ofGroups 4 (some 2) 2 [[⟨1, 0⟩], [⟨1, 1⟩], [⟨1, 2⟩]] false ⟨4, 3, 3⟩, 0⟩
  policy := .maxPes
  slots := [{ partition := ⟨0, [⟨1, 0⟩, ⟨1, 1⟩]⟩ }, { partition := ⟨1, [⟨1, 2⟩]⟩ }]

/-- The sibling of VM 4 has the other image and keeps it. -/
theorem delivery_regrouped : ∃ spawned after,
    regrouped.stage.site.startup .ample (.pet 4 0) thirds = (.ok spawned, after) ∧
    spawned.children.length = 2 ∧
    (∀ slot < 2, ∃ child, spawned.child? slot = some child ∧ thirds.Announces slot child ∧
      ∀ pe ∈ child.partition.pes, after.registry.owner? pe = some child.vm.id) ∧
    (∀ core < 3, after.registry.owner? ⟨0, core⟩ = some 3) ∧
    regrouped.stage.site.registry.children <+: after.registry.children := by
  have hok : (regrouped.stage.site.startup .ample (.pet 4 0) thirds).1.isOk = true := by decide
  rcases hstarted : regrouped.stage.site.startup .ample (.pet 4 0) thirds with
    ⟨e | spawned, after⟩
  · rw [hstarted] at hok
    cases hok
  have hcurrent : regrouped.stage.site.current (.pet 4 0) = .ok thirds.parent := rfl
  have hmade := reachable_regrouped.stage.sound.mem_made_of_live
    (reachable_regrouped.stage.sound.live_of_current hcurrent)
  obtain ⟨hcount, _, _, hfound, hslots, _, hothers, hregistry⟩ :=
    Reachable.delivery reachable_regrouped ⟨thirds.parent, 2, .maxPes, by decide, Or.inl hmade⟩
      hstarted
  refine ⟨spawned, after, rfl, hcount, ?_, ?_, ?_⟩
  · intro slot hslot
    obtain ⟨child, hchild, _, hannounced, htaken⟩ := hslots slot hslot
    exact ⟨child, (hfound slot).trans hchild, hannounced, htaken⟩
  · intro core hcore
    rw [hothers ⟨0, core⟩ (by decide +revert)]
    decide +revert
  · rw [hregistry]
    exact List.prefix_append _ _

end Chronicle

end VirtualTopology
