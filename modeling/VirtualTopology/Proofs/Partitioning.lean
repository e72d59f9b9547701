import VirtualTopology.Spawn.Plan

/-!
# Partitions and the VMs built from them

A plan cuts the processing elements of its VM into contiguous parts that together are all of them,
and the PETs built from a part hold the elements of the part in their order. The order matters for
policies that put an image's elements together: they keep it as long as no image comes back after
another.

## Main definitions

- `ImageOrdered`: no image comes back after another.
- `SeparateImages`: groups that each stay on one image, in the order of their images.

## Main statements

- `SpawnPlan.build_eq_ok`: what a plan consists of.
- `SpawnPolicy.flatten_petGroups`: grouping keeps the elements and their order.
- `Vm.pes_ofGroups`: a VM holds the elements of its groups.
-/

namespace VirtualTopology

/-- The images of the elements never fall. -/
def ImageOrdered (pes : List Pe) : Prop := pes.Pairwise (·.image ≤ ·.image)

theorem ImageOrdered.of_piece {part pes : List Pe} (h : ImageOrdered pes) (hp : part <:+: pes) :
    ImageOrdered part :=
  List.Pairwise.sublist hp.sublist h

/-- Where items are numbered by their places, the number of an item is its place. -/
theorem number_eq_of_map_eq_range {α : Type} (number : α → Nat) {items : List α} {a : α}
    {n place : Nat} (h : items.map number = List.range n) (ha : items[place]? = some a) :
    number a = place := by
  have hplace := congrArg (·[place]?) h
  simp only [List.getElem?_map, ha, Option.map_some] at hplace
  obtain ⟨_, heq⟩ := List.getElem?_eq_some_iff.1 hplace.symm
  rw [← heq, List.getElem_range]

/-! ### Plans -/

namespace SpawnPlan

variable {base extra count slot : Nat} {pes : List Pe}

/-- What is left after a part is as long as the parts that follow. -/
theorem length_drop_size (hlen : pes.length = (count + 1) * base + (extra - slot)) :
    (pes.drop (base + if slot < extra then 1 else 0)).length =
      count * base + (extra - (slot + 1)) := by
  have hmul : (count + 1) * base = count * base + base := Nat.succ_mul count base
  rw [List.length_drop]
  split <;> omega

/-- The parts of a list together are the list. -/
theorem flatMap_pes_cut (hlen : pes.length = count * base + (extra - slot))
    (hextra : extra ≤ slot + count) :
    (cut base extra count slot pes).flatMap Partition.pes = pes := by
  induction count generalizing slot pes with
  | zero =>
    have hzero : pes.length = 0 := by omega
    simp [cut, List.length_eq_zero_iff.1 hzero]
  | succ count ih =>
    rw [cut, List.flatMap_cons, ih (length_drop_size hlen) (by omega), List.take_append_drop]

/-- No part of a list that is long enough is empty. -/
theorem pes_ne_nil_of_mem_cut (hbase : 0 < base)
    (hlen : pes.length = count * base + (extra - slot)) (hextra : extra ≤ slot + count) :
    ∀ part ∈ cut base extra count slot pes, part.pes ≠ [] := by
  induction count generalizing slot pes with
  | zero => simp [cut]
  | succ count ih =>
    intro part hpart
    rw [cut, List.mem_cons] at hpart
    rcases hpart with rfl | hpart
    · have hmul : (count + 1) * base = count * base + base := Nat.succ_mul count base
      rw [Ne, ← List.length_eq_zero_iff, List.length_take]
      split <;> omega
    · exact ih (length_drop_size hlen) (by omega) part hpart

/-- A plan is for the VM and the policy it was asked for, has a part for each child, and its parts
are all of the VM's elements in their order. -/
theorem build_eq_ok {parent : VmHandle} {policy : SpawnPolicy} {plan : SpawnPlan}
    (h : build parent count policy = .ok plan) :
    plan.parent = parent ∧ plan.policy = policy ∧ plan.partitions.length = count ∧
      plan.partitions.map Partition.slot = List.range count ∧
      plan.partitions.flatMap Partition.pes = parent.vm.pes ∧
      ∀ part ∈ plan.partitions, part.pes ≠ [] := by
  rw [build] at h
  split at h
  · simp at h
  · next hcount =>
    dsimp only at h
    split at h
    · simp at h
    · next hle =>
      have hmod := Nat.mod_lt parent.vm.pes.length (Nat.pos_of_ne_zero hcount)
      have hdiv : 0 < parent.vm.pes.length / count :=
        Nat.div_pos (by omega) (Nat.pos_of_ne_zero hcount)
      have hlen : parent.vm.pes.length =
          count * (parent.vm.pes.length / count) + (parent.vm.pes.length % count - 0) := by
        rw [Nat.sub_zero, Nat.div_add_mod]
      obtain rfl := Except.ok.inj h
      have hparts : ∀ parts : List Partition,
          (parts.map fun part => ({ partition := part } : ChildSlot)).map ChildSlot.partition =
            parts := by
        intro parts
        simp [Function.comp_def]
      refine ⟨rfl, rfl, ?_, ?_, ?_, ?_⟩
      · simp [partitions]
      · rw [partitions, hparts, map_slot_cut, List.range_eq_range']
      · rw [partitions, hparts, flatMap_pes_cut hlen (by omega)]
      · rw [partitions, hparts]
        exact pes_ne_nil_of_mem_cut hdiv hlen (by omega)

section Built

variable {parent : VmHandle} {policy : SpawnPolicy} {plan : SpawnPlan} {part : Partition}

/-- There are no plans for no children. -/
theorem partitions_ne_nil (h : build parent count policy = .ok plan) : plan.partitions ≠ [] := by
  obtain ⟨_, _, hlength, _⟩ := build_eq_ok h
  rintro hnil
  rw [hnil] at hlength
  rw [← hlength] at h
  simp [build] at h

theorem flatMap_pes_partitions (h : build parent count policy = .ok plan) :
    plan.partitions.flatMap Partition.pes = parent.vm.pes := by
  obtain ⟨_, _, _, _, hcover, _⟩ := build_eq_ok h
  exact hcover

theorem pes_ne_nil_of_mem_partitions (h : build parent count policy = .ok plan)
    (hpart : part ∈ plan.partitions) : part.pes ≠ [] := by
  obtain ⟨_, _, _, _, _, hnonempty⟩ := build_eq_ok h
  exact hnonempty part hpart

/-- Slots are numbered in the order of the parts. -/
theorem slot_eq_length (h : build parent count policy = .ok plan) {before after : List Partition}
    (hparts : plan.partitions = before ++ part :: after) : part.slot = before.length := by
  obtain ⟨_, _, _, hslots, _⟩ := build_eq_ok h
  refine number_eq_of_map_eq_range Partition.slot hslots ?_
  rw [hparts, List.getElem?_append_right (Nat.le_refl _), Nat.sub_self, List.getElem?_cons_zero]

/-- A part of a plan is a contiguous piece of its VM. -/
theorem infix_of_mem_partitions (h : build parent count policy = .ok plan)
    (hpart : part ∈ plan.partitions) : part.pes <:+: parent.vm.pes := by
  rw [← flatMap_pes_partitions h, List.flatMap_def]
  exact List.infix_of_mem_flatten (List.mem_map_of_mem hpart)

end Built

end SpawnPlan

/-! ### Groups -/

/-- Groups that are not empty, stay on one image each, and go up from image to image. -/
def SeparateImages (groups : List (List Pe)) : Prop :=
  groups.Pairwise (fun g g' => ∀ a ∈ g, ∀ b ∈ g', a.image < b.image) ∧
    ∀ g ∈ groups, g ≠ [] ∧ ∀ a ∈ g, ∀ b ∈ g, a.image = b.image

theorem SeparateImages.length_le {groups : List (List Pe)} (h : SeparateImages groups) :
    groups.length ≤ groups.flatten.length := by
  induction groups with
  | nil => simp
  | cons g gs ih =>
    have hg := List.length_pos_iff.2 (h.2 g List.mem_cons_self).1
    have hgs := ih ⟨(List.pairwise_cons.1 h.1).2, fun g' hg' => h.2 g' (List.mem_cons_of_mem _ hg')⟩
    simp only [List.length_cons, List.flatten_cons, List.length_append]
    omega

namespace SpawnPolicy

variable {groups : List (List Pe)} {pes : List Pe} {pe : Pe}

/-- An element of an image that is not below those there are comes last. -/
theorem flatten_insertByImage (hg : SeparateImages groups)
    (hle : ∀ a ∈ groups.flatten, a.image ≤ pe.image) :
    (insertByImage pe groups).flatten = groups.flatten ++ [pe] ∧
      SeparateImages (insertByImage pe groups) := by
  induction groups with
  | nil => simp [insertByImage, SeparateImages]
  | cons g gs ih =>
    obtain ⟨hpair, hall⟩ := hg
    obtain ⟨hlt, hpair⟩ := List.pairwise_cons.1 hpair
    obtain ⟨hne, hsame⟩ := hall g List.mem_cons_self
    have hgs : SeparateImages gs := ⟨hpair, fun g' hg' => hall g' (List.mem_cons_of_mem _ hg')⟩
    obtain ⟨first, rest, rfl⟩ := List.exists_cons_of_ne_nil hne
    rw [insertByImage]
    split
    · next himage =>
      simp only [List.head?_cons, Option.map_some, Option.some.injEq] at himage
      -- A further group would lie above this one and not above the element.
      have hlast : gs = [] := by
        rw [List.eq_nil_iff_forall_not_mem]
        intro g' hg'
        obtain ⟨b, hb⟩ := List.exists_mem_of_ne_nil _ (hgs.2 g' hg').1
        have habove := hlt g' hg' first List.mem_cons_self b hb
        have hbelow := hle b (by simp only [List.flatten_cons, List.mem_append, List.mem_flatten]
                                 exact Or.inr ⟨g', hg', hb⟩)
        omega
      subst hlast
      refine ⟨by simp, by simp, ?_⟩
      intro g' hg'
      obtain rfl := List.mem_singleton.1 hg'
      refine ⟨by simp, fun a ha b hb => ?_⟩
      have hfirst : ∀ a ∈ first :: rest ++ [pe], a.image = first.image := by
        intro a ha
        cases List.mem_append.1 ha with
        | inl ha => exact hsame a ha first List.mem_cons_self
        | inr ha => rw [List.mem_singleton.1 ha, himage]
      rw [hfirst a ha, hfirst b hb]
    · next himage =>
      simp only [List.head?_cons, Option.map_some, Option.some.injEq] at himage
      obtain ⟨hflat, hsep⟩ := ih hgs fun a ha => hle a (List.mem_append_right _ ha)
      refine ⟨by simp [hflat], List.pairwise_cons.2 ⟨fun g' hg' a ha b hb => ?_, hsep.1⟩, ?_⟩
      · have hmem : b ∈ gs.flatten ++ [pe] := hflat ▸ List.mem_flatten.2 ⟨g', hg', hb⟩
        cases List.mem_append.1 hmem with
        | inl hb =>
          obtain ⟨g'', hg'', hb⟩ := List.mem_flatten.1 hb
          exact hlt g'' hg'' a ha b hb
        | inr hb =>
          rw [List.mem_singleton.1 hb]
          have hafirst := hsame a ha first List.mem_cons_self
          have hfirst := hle first (by simp)
          omega
      · intro g' hg'
        rcases List.mem_cons.1 hg' with rfl | hg'
        · exact ⟨by simp, hsame⟩
        · exact hsep.2 g' hg'

/-- Putting the elements of ordered images together one by one keeps their order. -/
theorem flatten_foldl_insertByImage (hg : SeparateImages groups)
    (hord : ImageOrdered (groups.flatten ++ pes)) :
    (pes.foldl (fun groups pe => insertByImage pe groups) groups).flatten = groups.flatten ++ pes ∧
      SeparateImages (pes.foldl (fun groups pe => insertByImage pe groups) groups) := by
  induction pes generalizing groups with
  | nil => simpa using hg
  | cons pe pes ih =>
    -- The groups stay separate because no element there is comes from a later image.
    have hle : ∀ a ∈ groups.flatten, a.image ≤ pe.image := fun a ha =>
      (List.pairwise_append.1 hord).2.2 a ha pe List.mem_cons_self
    obtain ⟨hflat, hsep⟩ := flatten_insertByImage hg hle
    have hnext := ih hsep (by rw [hflat]; simpa using hord)
    rw [hflat] at hnext
    simpa using hnext

/-- Elements of ordered images are put together in their order. -/
theorem flatten_petGroups_maxPes (h : ImageOrdered pes) :
    (maxPes.petGroups pes).flatten = pes ∧ SeparateImages (maxPes.petGroups pes) := by
  have hnil : SeparateImages [] := ⟨List.Pairwise.nil, by simp⟩
  exact flatten_foldl_insertByImage hnil h

/-- PETs hold the elements they are made from, in their order. -/
theorem flatten_petGroups (policy : SpawnPolicy) (h : ImageOrdered pes) :
    (policy.petGroups pes).flatten = pes := by
  cases policy with
  | maxThreads => simp [petGroups, ← List.flatMap_def]
  | maxPes => exact (flatten_petGroups_maxPes h).1

/-- There are PETs if there are elements, and no more PETs than elements. -/
theorem length_petGroups (policy : SpawnPolicy) (h : ImageOrdered pes) (hne : pes ≠ []) :
    0 < (policy.petGroups pes).length ∧ (policy.petGroups pes).length ≤ pes.length := by
  have hflat := flatten_petGroups policy h
  constructor
  · rw [List.length_pos_iff]
    intro hnil
    rw [hnil] at hflat
    exact hne hflat.symm
  · cases policy with
    | maxThreads => simp [petGroups]
    | maxPes =>
      have hle := (flatten_petGroups_maxPes h).2.length_le
      rwa [hflat] at hle

end SpawnPolicy

/-! ### VMs -/

namespace Vm

variable {id depth : Nat} {parent : Option Nat} {groups : List (List Pe)} {compat : Bool}
  {communicator : Communicator}

/-- A VM holds the elements of its groups, in their order. -/
@[simp] theorem pes_ofGroups :
    (ofGroups id parent depth groups compat communicator).pes = groups.flatten := by
  simp only [ofGroups, pes, directoryOf, List.mapIdx_eq_zipIdx_map, List.flatMap_map]
  rw [List.flatMap_def]
  exact congrArg _ (List.zipIdx_map_fst 0 groups)

/-- The Global VM holds all elements of its host. -/
@[simp] theorem pes_ofTopology (t : Topology) (world : Communicator) :
    (ofTopology id t world).pes = t.pes := by
  rw [ofTopology, pes_ofGroups, ← List.flatMap_def, List.flatMap_singleton']

end Vm

end VirtualTopology
