import VirtualTopology.Proofs.Chronicle
import VirtualTopology.Proofs.Directories
import VirtualTopology.Proofs.Grouping
import VirtualTopology.Transport.Local

/-!
# How VMs lie on the host

A VM holds a contiguous run of the host's processing elements, and its PETs run at places that go
up from PET to PET, however deep it is in the spawn tree and by whatever counts and policies its
ancestors were cut. What makes the induction over the tree go through is that the elements are
strictly sorted: a part of a sorted list is sorted, no policy reorders it, and the first elements of
the PETs are sorted with it.

## Main definitions

- `Vm.LaidOut`: how a VM lies on a host.
- `Vm.Grown`: the VMs that come of a Global VM.
- `Surroundings.anyLocal`: a local transport that others may use as they like.

## Main statements

- `Vm.laidOut_ofGroups`, `Vm.Grown.laidOut`: a VM from its groups, and all VMs of a spawn tree.
- `Chronicle.Reachable.layout`: every VM of every run.
-/

namespace VirtualTopology

/-- By image, and by thread within an image. -/
def Location.Before (a b : Location) : Prop :=
  a.image < b.image ∨ a.image = b.image ∧ a.thread < b.thread

/-- Elements in image-major order, each once. -/
def Sorted (pes : List Pe) : Prop := pes.Pairwise fun a b => a.location.Before b.location

theorem Sorted.of_piece {part pes : List Pe} (h : Sorted pes) (hp : part <:+: pes) : Sorted part :=
  List.Pairwise.sublist hp.sublist h

theorem Sorted.imageOrdered {pes : List Pe} (h : Sorted pes) : ImageOrdered pes := by
  refine List.Pairwise.imp (fun {a b} hab => ?_) h
  rcases hab with hlt | ⟨heq, _⟩
  · exact Nat.le_of_lt hlt
  · exact Nat.le_of_eq heq

theorem Topology.sorted_pes_uniform (images cores : Nat) (compat : Bool) :
    Sorted (uniform images cores compat).pes :=
  pairwise_pes_uniform images cores compat

theorem DiscoveryConfig.sorted_of_discover {config : DiscoveryConfig} {detected : Nat} {t : Topology}
    (h : config.discover detected = .ok t) : Sorted t.pes := by
  obtain ⟨images, cores, rfl, _⟩ := discover_eq_ok h
  exact Topology.sorted_pes_uniform ..

namespace Vm

variable {groups : List (List Pe)} {host : List Pe} {id depth : Nat} {parent : Option Nat}
  {compat : Bool} {communicator : Communicator} {g v : Vm}

/-! ### VMs from groups -/

/-- The first elements of groups are among all, in their order. -/
theorem map_anchor_sublist (h : ∀ g ∈ groups, g ≠ []) :
    List.Sublist (groups.map anchor) groups.flatten := by
  induction groups with
  | nil => exact List.Sublist.refl _
  | cons g groups ih =>
    obtain ⟨pe, rest, rfl⟩ := List.exists_cons_of_ne_nil (h g List.mem_cons_self)
    have htail := ih fun g' hg' => h g' (List.mem_cons_of_mem _ hg')
    exact (htail.trans (List.sublist_append_right rest _)).cons_cons pe

/-- How a VM lies on a host of these elements. -/
structure LaidOut (v : Vm) (host : List Pe) : Prop where
  nonempty : v.pes ≠ []
  contiguous : v.pes <:+: host
  numbers : v.pets.map PetRecord.pet = List.range v.petCount
  ascending : (v.pets.map PetRecord.location).Pairwise Location.Before
  anchored : ∀ r ∈ v.pets, r.pes.head?.map Pe.location = some r.location
  grouped : ∀ r ∈ v.pets,
    r.threadGroupSize = v.pets.countP (·.location.image == r.location.image)
  counted : v.peCount = v.pes.length
  ranks : v.communicator.size = v.petCount

/-- A VM made of a piece of a sorted host. -/
theorem laidOut_ofGroups (hsorted : Sorted host) (hpiece : groups.flatten <:+: host)
    (hgroups : groups ≠ []) (hfull : ∀ g ∈ groups, g ≠ [])
    (hsize : communicator.size = groups.length) :
    (ofGroups id parent depth groups compat communicator).LaidOut host where
  nonempty := by
    obtain ⟨g, hg⟩ := List.exists_mem_of_ne_nil _ hgroups
    obtain ⟨pe, hpe⟩ := List.exists_mem_of_ne_nil _ (hfull g hg)
    rw [pes_ofGroups]
    exact List.ne_nil_of_mem (List.mem_flatten.2 ⟨g, hg, hpe⟩)
  contiguous := by rwa [pes_ofGroups]
  numbers := by
    show (directoryOf groups).map PetRecord.pet = List.range (directoryOf groups).length
    rw [map_pet_directoryOf, length_directoryOf]
  ascending := by
    show ((directoryOf groups).map PetRecord.location).Pairwise Location.Before
    rw [map_location_directoryOf, List.pairwise_map]
    have hanchors := List.Pairwise.sublist (map_anchor_sublist hfull) (hsorted.of_piece hpiece)
    rwa [List.pairwise_map] at hanchors
  anchored := by
    intro r hr
    obtain ⟨i, hi, rfl⟩ := List.mem_mapIdx.1 hr
    obtain ⟨pe, rest, hpes⟩ := List.exists_cons_of_ne_nil (hfull _ (List.getElem_mem hi))
    simp [hpes, anchor]
  grouped := threadGroupSize_directoryOf
  counted := peCount_ofGroups groups
  ranks := by
    rw [petCount, ofGroups, length_directoryOf]
    exact hsize

theorem LaidOut.endpoint (h : v.LaidOut host) {pet : Nat} (hpet : pet < v.petCount) :
    (VmHandle.mk v pet).endpoint = .ok ⟨pet, v.communicator⟩ := by
  rw [VmHandle.endpoint, Communicator.endpoint, if_pos (h.ranks ▸ hpet)]

/-! ### The spawn tree -/

/-- The VMs that come of a Global VM, over a transport that makes communicators of the sizes it is
asked for: a child is made from a part of a plan for its parent. -/
inductive Grown (g : Vm) : Vm → Prop
  | root : Grown g g
  | child {parent : VmHandle} {count : Nat} {plan : SpawnPlan} {part : Partition}
      {communicator : Communicator} (id : Nat) (grown : Grown g parent.vm)
      (built : SpawnPlan.build parent count plan.policy = .ok plan) (mem : part ∈ plan.partitions)
      (size : communicator.size = (plan.policy.petGroups part.pes).length) :
      Grown g (.ofGroups id (some parent.vm.id) (parent.vm.depth + 1)
        (plan.policy.petGroups part.pes) plan.policy.threadCompat communicator)

theorem laidOut_of_part {parent : VmHandle} {count : Nat} {plan : SpawnPlan} {part : Partition}
    (hsorted : Sorted host) (hparent : parent.vm.pes <:+: host)
    (built : SpawnPlan.build parent count plan.policy = .ok plan) (hpart : part ∈ plan.partitions)
    (size : communicator.size = (plan.policy.petGroups part.pes).length) :
    (ofGroups id (some parent.vm.id) (parent.vm.depth + 1) (plan.policy.petGroups part.pes)
      plan.policy.threadCompat communicator).LaidOut host := by
  -- The part is sorted because it is a piece of the parent, which is a piece of the host.
  have hpiece : part.pes <:+: host := (SpawnPlan.infix_of_mem_partitions built hpart).trans hparent
  have hordered := (hsorted.of_piece hpiece).imageOrdered
  have hflat := plan.policy.flatten_petGroups hordered
  have hnonempty := SpawnPlan.pes_ne_nil_of_mem_partitions built hpart
  refine laidOut_ofGroups hsorted (by rwa [hflat]) ?_
    plan.policy.ne_nil_of_mem_petGroups size
  intro hnil
  rw [hnil] at hflat
  exact hnonempty hflat.symm

theorem Grown.laidOut (h : Grown g v) (hroot : g.LaidOut host) (hsorted : Sorted host) :
    v.LaidOut host := by
  induction h with
  | root => exact hroot
  | child id _ built hpart size ih => exact laidOut_of_part hsorted ih.contiguous built hpart size

theorem laidOut_ofTopology {config : DiscoveryConfig} {detected : Nat} {t : Topology}
    {world : Communicator} (h : config.discover detected = .ok t) (hsize : world.size = t.peCount) :
    (ofTopology id t world).LaidOut t.pes := by
  obtain ⟨_, hlength, hpos⟩ := DiscoveryConfig.placeable_of_discover h
  have hflat : (t.pes.map fun pe => [pe]).flatten = t.pes := by
    rw [← List.flatMap_def, List.flatMap_singleton']
  have hpiece : (t.pes.map fun pe => [pe]).flatten <:+: t.pes := ⟨[], [], by simp [hflat]⟩
  refine laidOut_ofGroups (DiscoveryConfig.sorted_of_discover h) hpiece ?_ (by simp) ?_
  · intro hnil
    rw [List.map_eq_nil_iff] at hnil
    rw [hnil, List.length_nil] at hlength
    omega
  · rw [List.length_map, hlength, hsize]

theorem petCount_ofTopology (t : Topology) (world : Communicator) :
    (ofTopology id t world).petCount = t.pes.length := by
  simp [ofTopology, ofGroups, petCount]

theorem LaidOut.petCount_pos (h : v.LaidOut host) : 0 < v.petCount := by
  rw [petCount, List.length_pos_iff]
  intro hnil
  exact h.nonempty (by rw [pes, hnil]; rfl)

end Vm

/-! ### Runs -/

/-- A local transport that others may use as they like. -/
def Surroundings.anyLocal : Surroundings (Fabric × LocalTransport) where
  transport := LocalTransport.transport
  fresh _ := True
  meanwhile _ _ := True

namespace LocalTransport

variable {net net' : Fabric × LocalTransport} {c parent : Communicator} {size : Nat}

theorem size_of_create (h : create size net = (.ok c, net')) : c.size = size := by
  unfold create at h
  dsimp only at h
  split at h
  · rw [← Except.ok.inj (Prod.mk.inj h).1]
    rfl
  · simp at h

theorem size_of_derive (h : derive parent size net = (.ok c, net')) : c.size = size := by
  unfold derive at h
  dsimp only at h
  split at h
  · simp at h
  · exact size_of_create h

end LocalTransport

theorem Site.sizes_of_launchSlots {s s' : Site (Fabric × LocalTransport)} {parent : Vm}
    {policy : SpawnPolicy} {parts : List Partition} {children : List LaunchedChild}
    (ht : s.registry.transport = LocalTransport.transport)
    (h : launchSlots parent policy [] parts s = (.ok children, s')) :
    ∀ child ∈ children,
      child.communicator.size = (policy.petGroups child.partition.pes).length := by
  refine (launchSlots_induction
    (P := fun done s₁ => s₁.registry.transport = LocalTransport.transport ∧ ∀ child ∈ done,
      child.communicator.size = (policy.petGroups child.partition.pes).length) ?_ h
    ⟨ht, by simp⟩).2
  rintro done s₁ part child s₂ _ ⟨ht₁, hsizes⟩ hslot
  obtain ⟨owners, communicator, net, _, hderive, rfl, rfl⟩ := launchSlot_eq_ok hslot
  rw [ht₁] at hderive
  refine ⟨ht₁, fun child hchild => ?_⟩
  cases List.mem_append.1 hchild with
  | inl hchild => exact hsizes child hchild
  | inr hchild =>
    rw [List.mem_singleton.1 hchild]
    exact LocalTransport.size_of_derive hderive

namespace Stage

variable {σ : Type} {env : Surroundings σ} {s s' : Stage σ}

/-- Handles that are bound or published are of PETs there are. -/
theorem Reachable.ranked (h : Reachable env s) :
    (∀ b ∈ s.site.bindings, b.registry = s.site.registry.id →
      b.handle.localPet < b.handle.vm.petCount) ∧
    ∀ g, s.site.registry.global = some g → g.localPet < g.vm.petCount := by
  induction h with
  | start id config detected process unbound =>
    refine ⟨fun b hb hr => ?_, by simp [Stage.start]⟩
    have hnone : b ∈ process.bindings.ofRegistry id := List.mem_filter.2 ⟨hb, decide_eq_true hr⟩
    rw [unbound] at hnone
    cases hnone
  | @step s s' h next ih =>
    obtain ⟨hbound, hglobal⟩ := ih
    cases next.change h.sound with
    | still registry _ bindings =>
      rw [registry]
      exact ⟨fun b hb hr => hbound b (bindings b hb hr) hr, hglobal⟩
    | @up c t world net _ _ found =>
      obtain ⟨_, hlength, hpos⟩ := DiscoveryConfig.placeable_of_discover found
      have hpets : 0 < (Vm.ofTopology s.site.nextVm t world).petCount := by
        rw [Vm.petCount_ofTopology, hlength]
        exact hpos
      refine ⟨fun b hb hr => ?_, fun g hg => ?_⟩
      · rcases List.mem_cons.1 hb with rfl | hb
        · exact hpets
        · exact hbound b hb hr
      · rw [← Option.some.inj hg]
        exact hpets
    | down c net _ =>
      exact ⟨fun b hb hr => hbound b (List.mem_filter.1 hb).1 hr, fun g hg => by cases hg⟩
    | launch entered _ _ _ _ launched =>
      refine ⟨fun b hb hr => ?_, hglobal⟩
      cases List.mem_append.1 hb with
      | inl hb =>
        obtain ⟨pet, hpet, rfl⟩ := List.mem_map.1 (List.mem_reverse.1 hb)
        obtain ⟨child, _, n, hn, rfl, _⟩ := launched.pet_context hpet
        exact hn
      | inr hb => exact hbound b hb hr
    | retire net _ _ => exact ⟨hbound, hglobal⟩

theorem Reachable.localPet_lt_of_current (h : Reachable env s) {c : ExecutionContext}
    {handle : VmHandle} (hc : s.site.current c = .ok handle) :
    handle.localPet < handle.vm.petCount := by
  obtain ⟨_, b, hb, _, hregistry, _, rfl⟩ := Site.exists_of_current hc
  exact h.ranked.1 b hb hregistry

end Stage

namespace Chronicle

section

variable {σ : Type}

/-- The handles on VMs that can be had: of the Global VM, in a PET, and from a startup. -/
inductive Holds (k : Chronicle σ) : VmHandle → Prop
  | global {g} (published : k.stage.site.registry.global = some g) : Holds k g
  | current {h} (c : ExecutionContext) (bound : k.stage.site.current c = .ok h) : Holds k h
  | child {handle child} (mem : handle ∈ k.handles) (part : child ∈ handle.spawned.children) :
      Holds k child.handle

/-- The VM is a Global VM that was made for the host of the registry. -/
structure IsRoot (k : Chronicle σ) (g : Vm) (t : Topology) : Prop where
  mem : g ∈ k.built
  found : k.stage.site.registry.config.discover k.stage.site.registry.detected = .ok t
  form : g = .ofTopology g.id t g.communicator
  size : g.communicator.size = t.peCount

theorem IsRoot.pes {k : Chronicle σ} {g : Vm} {t : Topology} (h : k.IsRoot g t) :
    g.pes = t.pes := by
  rw [h.form, Vm.pes_ofTopology]

theorem IsRoot.laidOut {k : Chronicle σ} {g v : Vm} {t : Topology} (h : k.IsRoot g t)
    (hv : Vm.Grown g v) : v.LaidOut g.pes := by
  rw [h.pes]
  apply hv.laidOut
  · rw [h.form]
    exact Vm.laidOut_ofTopology h.found h.size
  · exact DiscoveryConfig.sorted_of_discover h.found

end

variable {k k' : Chronicle (Fabric × LocalTransport)}

theorem Step.exists_root (next : Step .anyLocal k k') (h : Reachable .anyLocal k)
    (ht : k.stage.site.registry.transport = LocalTransport.transport)
    (ih : ∀ v ∈ k.built, ∃ g t, k.IsRoot g t ∧ Vm.Grown g v) :
    ∀ v ∈ k'.built, ∃ g t, k'.IsRoot g t ∧ Vm.Grown g v := by
  obtain ⟨_, hconfig, hdetected⟩ := ((next.stage h.faithful).change h.stage.sound).settings
  have hkept : ∀ {g t}, k.IsRoot g t → k'.IsRoot g t := fun hroot =>
    { hroot with
      mem := next.built_prefix.subset hroot.mem
      found := by rw [hconfig, hdetected]; exact hroot.found }
  intro v hv
  rcases next.origin h.stage.sound h.faithful hv with
    hold | ⟨t, world, net, hfound, hinit, rfl⟩ |
    ⟨plan, count, before, launched, s₁, child, hparent, hplan, hslots, hchild, hmem, rfl, hform⟩
  · obtain ⟨g, t, hroot, hgrown⟩ := ih v hold
    exact ⟨g, t, hkept hroot, hgrown⟩
  · rw [ht] at hinit
    refine ⟨_, t, ⟨hv, ?_, rfl, LocalTransport.size_of_create hinit⟩, .root⟩
    rw [hconfig, hdetected]
    exact hfound
  · obtain ⟨g, t, hroot, hgrown⟩ := ih _ hparent
    refine ⟨g, t, hkept hroot, ?_⟩
    rw [hform]
    exact .child _ hgrown hplan hmem (Site.sizes_of_launchSlots ht hslots child hchild)

theorem Reachable.exists_root (h : Reachable .anyLocal k) :
    k.stage.site.registry.transport = LocalTransport.transport ∧
      ∀ v ∈ k.built, ∃ g t, k.IsRoot g t ∧ Vm.Grown g v := by
  induction h with
  | start => exact ⟨rfl, by simp⟩
  | step h next ih =>
    obtain ⟨ht, hroots⟩ := ih
    obtain ⟨hsame, _⟩ := ((next.stage h.faithful).change h.stage.sound).settings
    exact ⟨hsame.trans ht, next.exists_root h ht hroots⟩

/-- Over a local transport, every VM that is ever made lies on its Global VM like this: it holds a
contiguous run of the Global VM's elements, which are those of the host image by image. Its PETs are
numbered in the order of the directory, run at places that strictly ascend, each at the place of its
first element, and know how many of them share an image. The number of its elements is what the VM
says, and it has a rank for each PET, so every handle that can be had has its endpoint. -/
theorem Reachable.layout (h : Reachable .anyLocal k) :
    (∀ v ∈ k.built, ∃ g t, k.IsRoot g t ∧ g.pes = t.pes ∧ Vm.Grown g v ∧ v.LaidOut g.pes ∧
      ∀ pet < v.petCount, (VmHandle.mk v pet).endpoint = .ok ⟨pet, v.communicator⟩) ∧
    ∀ handle, k.Holds handle →
      handle.vm ∈ k.built ∧ handle.endpoint = .ok ⟨handle.localPet, handle.vm.communicator⟩ := by
  have hlaid : ∀ v ∈ k.built, ∃ g t, k.IsRoot g t ∧ Vm.Grown g v ∧ v.LaidOut g.pes := by
    intro v hv
    obtain ⟨g, t, hroot, hgrown⟩ := h.exists_root.2 v hv
    exact ⟨g, t, hroot, hgrown, hroot.laidOut hgrown⟩
  have hmade := fun {v} (hv : v ∈ k.stage.made) => h.faithful.built.subset hv
  constructor
  · intro v hv
    obtain ⟨g, t, hroot, hgrown, hv⟩ := hlaid v hv
    exact ⟨g, t, hroot, hroot.pes, hgrown, hv, fun pet hpet => hv.endpoint hpet⟩
  · intro handle hholds
    have hmem : handle.vm ∈ k.built ∧ handle.localPet < handle.vm.petCount := by
      cases hholds with
      | global published =>
        exact ⟨hmade (h.stage.sound.global_mem_made published), h.stage.ranked.2 _ published⟩
      | current c bound =>
        have hlive := h.stage.sound.live_of_current bound
        exact ⟨hmade (h.stage.sound.mem_made_of_live hlive), h.stage.localPet_lt_of_current bound⟩
      | @child handle child mem part =>
        have hchild : child.vm ∈ k.built := by
          apply hmade
          apply h.faithful.made.subset
          exact List.mem_map_of_mem (List.mem_flatMap.2 ⟨handle, mem, part⟩)
        obtain ⟨_, _, _, _, hv⟩ := hlaid _ hchild
        exact ⟨hchild, hv.petCount_pos⟩
    obtain ⟨_, _, _, _, hv⟩ := hlaid _ hmem.1
    exact ⟨hmem.1, hv.endpoint hmem.2⟩

/-- Two images of three cores. Child 2 has a PET on each image, and its children have a PET on each
core of one. -/
def regrouped : Chronicle (Fabric × LocalTransport) :=
  ((bringUp .main
    { stage := .start LocalTransport.transport 1 { images := some 2, pesPerImage := some 3 } 1
        { net := ({}, {}) } }).spawn .main 1 .maxPes).spawn (.pet 2 0) 2 .maxThreads

theorem reachable_regrouped : Reachable .anyLocal regrouped := by
  have hstart : Reachable .anyLocal _ :=
    .start 1 { images := some 2, pesPerImage := some 3 } 1 { net := ({}, {}) } rfl trivial
  exact reachable_spawn (reachable_spawn (hstart.step (.bringUp .main trivial)) _ _ _) _ _ _

theorem layout_regrouped :
    (regrouped.built.drop 1).map (fun v => (v.id, v.pets.map PetRecord.location)) =
      [(2, [⟨0, 0⟩, ⟨1, 0⟩]), (3, [⟨0, 0⟩, ⟨0, 1⟩, ⟨0, 2⟩]), (4, [⟨1, 0⟩, ⟨1, 1⟩, ⟨1, 2⟩])] ∧
    (∀ v ∈ regrouped.built, ∃ g t, regrouped.IsRoot g t ∧ v.LaidOut g.pes) ∧
    ∃ handle, regrouped.stage.site.current (.pet 4 2) = .ok handle ∧
      handle.endpoint = .ok ⟨2, handle.vm.communicator⟩ := by
  obtain ⟨hlaid, hholds⟩ := Reachable.layout reachable_regrouped
  refine ⟨by decide, fun v hv => ?_, ?_⟩
  · obtain ⟨g, t, hroot, _, _, hv, _⟩ := hlaid v hv
    exact ⟨g, t, hroot, hv⟩
  · exact ⟨_, rfl, (hholds _ (.current (.pet 4 2) rfl)).2⟩

end Chronicle

end VirtualTopology
