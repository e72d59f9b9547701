import VirtualTopology.Proofs.Directories

/-!
# Where the parts of a plan lie

The parts of a plan are cut off one after the other, and where a part starts is nowhere compared with
where the elements end. Here is where each of them starts and how long it is, by its slot: an even
share for every slot, and what is over goes to the first slots, one element each.

## Main definitions

- `SpawnPlan.start`, `SpawnPlan.share`: where the part of a slot starts, and its length.
- `SpawnPlan.slice`: the part of a slot.

## Main statements

- `SpawnPlan.getElem?_cut`: what is cut off for a slot.
- `SpawnPlan.build_eq`: the plan for a number of children there can be.
- `SpawnPlan.build_slices`: which plans there are, and what they consist of.
-/

namespace VirtualTopology

namespace SpawnPlan

variable {total count slot : Nat}

/-- Where the part of a slot starts when `total` elements are cut for `count` children. -/
def start (total count slot : Nat) : Nat := slot * (total / count) + min slot (total % count)

/-- How many elements a slot gets when `total` elements are cut for `count` children. -/
def share (total count slot : Nat) : Nat :=
  total / count + if slot < total % count then 1 else 0

@[simp] theorem start_zero (total count : Nat) : start total count 0 = 0 := by simp [start]

/-- Parts follow each other without a gap. -/
theorem start_succ (total count slot : Nat) :
    start total count (slot + 1) = start total count slot + share total count slot := by
  rw [start, start, share, Nat.succ_mul]
  split <;> omega

/-- Behind the last part there is nothing left. -/
theorem start_self (hcount : 0 < count) : start total count count = total := by
  rw [start, Nat.min_eq_right (Nat.le_of_lt (Nat.mod_lt total hcount)), Nat.div_add_mod]

theorem start_mono (h : slot ≤ count) (total : Nat) :
    start total count slot ≤ start total count count := by
  have hmul : slot * (total / count) ≤ count * (total / count) := Nat.mul_le_mul_right _ h
  rw [start, start]
  omega

/-- Every part ends where the elements end at the latest. -/
theorem start_add_share_le (total : Nat) (h : slot < count) :
    start total count slot + share total count slot ≤ total := by
  rw [← start_succ]
  exact Nat.le_trans (start_mono h total) (Nat.le_of_eq (start_self (Nat.zero_lt_of_lt h)))

theorem share_pos (hcount : 0 < count) (h : count ≤ total) (slot : Nat) :
    0 < share total count slot :=
  Nat.lt_of_lt_of_le (Nat.div_pos h hcount) (Nat.le_add_right _ _)

/-- Shares differ by one at most, and the larger ones come first. -/
theorem share_anti {i j : Nat} (h : i ≤ j) (total count : Nat) :
    share total count j ≤ share total count i ∧
      share total count i ≤ share total count j + 1 := by
  rw [share, share]
  split <;> split <;> omega

/-- The part of the slot that is `k` places on. -/
theorem getElem?_cut (base extra : Nat) {k : Nat} (hk : k < count) (slot : Nat) (pes : List Pe) :
    (cut base extra count slot pes)[k]? =
      some ⟨slot + k, (pes.drop (k * base + (min (slot + k) extra - min slot extra))).take
        (base + if slot + k < extra then 1 else 0)⟩ := by
  induction count generalizing k slot pes with
  | zero => cases hk
  | succ count ih =>
    cases k with
    | zero => simp [cut]
    | succ k =>
      -- What is dropped here and what the later parts drop make up what is dropped in all.
      have hdrop : (base + if slot < extra then 1 else 0) +
          (k * base + (min (slot + 1 + k) extra - min (slot + 1) extra)) =
          (k + 1) * base + (min (slot + (k + 1)) extra - min slot extra) := by
        rw [Nat.succ_mul]
        split <;> omega
      have hslot : slot + 1 + k = slot + (k + 1) := by omega
      rw [cut, List.getElem?_cons_succ, ih (Nat.lt_of_succ_lt_succ hk), List.drop_drop, hdrop, hslot]

/-- The part of a slot when a list is cut for `count` children. -/
def slice (pes : List Pe) (count slot : Nat) : Partition :=
  ⟨slot, (pes.drop (start pes.length count slot)).take (share pes.length count slot)⟩

theorem length_slice (pes : List Pe) (h : slot < count) :
    (slice pes count slot).pes.length = share pes.length count slot := by
  have hle := start_add_share_le pes.length h
  rw [slice, List.length_take, List.length_drop]
  omega

/-- The parts of a list, slot by slot. -/
theorem cut_eq_map (count : Nat) (pes : List Pe) :
    cut (pes.length / count) (pes.length % count) count 0 pes =
      (List.range count).map (slice pes count) := by
  apply List.ext_getElem?
  intro slot
  rw [List.getElem?_map]
  by_cases hslot : slot < count
  · rw [getElem?_cut _ _ hslot, List.getElem?_range hslot, Option.map_some, Nat.zero_add,
      Nat.zero_min, Nat.sub_zero]
    rfl
  · rw [List.getElem?_eq_none (by simpa using hslot), List.getElem?_eq_none (by simpa using hslot)]
    rfl

variable {parent : VmHandle} {policy : SpawnPolicy} {plan : SpawnPlan}

/-- The plan for a number of children there can be. -/
theorem build_eq (parent : VmHandle) (policy : SpawnPolicy) (hcount : 0 < count)
    (hroom : count ≤ parent.vm.pes.length) : build parent count policy =
      .ok ⟨parent, policy, (List.range count).map fun slot =>
        { partition := slice parent.vm.pes count slot }⟩ := by
  rw [build, if_neg (Nat.ne_of_gt hcount)]
  dsimp only
  rw [if_neg (Nat.not_lt.2 hroom), cut_eq_map, List.map_map]
  rfl

theorem build_eq_error_iff {e : VmError} : build parent count policy = .error e ↔
    count = 0 ∧ e = .invalidSpawnCount 0 ∨
    parent.vm.pes.length < count ∧ e = .insufficientResources count parent.vm.pes.length := by
  rw [build]
  split
  · next hzero => simp [hzero, eq_comm]
  · next hcount =>
    dsimp only
    split
    · next hshort => simp [hcount, hshort, eq_comm]
    · next hroom => simp [hcount, hroom]

/-- A plan covers all elements of its VM. -/
theorem totalPes_eq (h : build parent count policy = .ok plan) :
    plan.totalPes = parent.vm.pes.length := by
  rw [← flatMap_pes_partitions h, List.length_flatMap, totalPes, partitions, List.map_map]
  rfl

/-- For a VM with any PETs there is a plan for every number of children from one to the number of its
elements. A slot of the plan has the piece of the VM's elements that starts where the pieces of the
slots before it end; together the pieces are all elements, none is empty, and the first ones are the
longer ones, by one element. -/
theorem build_slices (id depth localPet count : Nat) (parent : Option Nat)
    (groups : List (List Pe)) (compat : Bool) (communicator : Communicator)
    (policy : SpawnPolicy) :
    let vm := Vm.ofGroups id parent depth groups compat communicator
    let total := vm.pes.length
    (∀ e, build ⟨vm, localPet⟩ count policy = .error e ↔
      count = 0 ∧ e = .invalidSpawnCount 0 ∨
      total < count ∧ e = .insufficientResources count total) ∧
    (0 < count → count ≤ total → ∃ plan, build ⟨vm, localPet⟩ count policy = .ok plan ∧
      plan.parent = ⟨vm, localPet⟩ ∧ plan.policy = policy ∧ plan.childCount = count ∧
      (∀ slot < count,
        plan.state? slot = some .planned ∧
        plan.partition? slot = some
          ⟨slot, (vm.pes.drop (start total count slot)).take (share total count slot)⟩ ∧
        0 < share total count slot ∧
        start total count slot + share total count slot ≤ total) ∧
      plan.partitions.flatMap Partition.pes = vm.pes ∧
      plan.partitions.map Partition.peCount = (List.range count).map (share total count) ∧
      (plan.partitions.map Partition.peCount).Pairwise (fun a b => b ≤ a ∧ a ≤ b + 1) ∧
      plan.totalPes = vm.peCount) := by
  intro vm total
  refine ⟨fun e => build_eq_error_iff, fun hcount hroom => ?_⟩
  have hbuild := build_eq ⟨vm, localPet⟩ policy hcount hroom
  have hsizes : (List.range count).map (fun slot => (slice vm.pes count slot).peCount) =
      (List.range count).map (share total count) :=
    List.map_congr_left fun slot hslot => length_slice vm.pes (List.mem_range.1 hslot)
  refine ⟨_, hbuild, rfl, rfl, by simp [childCount], fun slot hslot => ⟨?_, ?_, ?_, ?_⟩,
    flatMap_pes_partitions hbuild, ?_, ?_, ?_⟩
  · simp [state?, hslot]
  · simp [partition?, hslot, slice, vm, total]
  · exact share_pos hcount hroom slot
  · exact start_add_share_le total hslot
  · simpa [partitions, Function.comp_def] using hsizes
  · have hpairwise : ((List.range count).map (share total count)).Pairwise
        (fun a b => b ≤ a ∧ a ≤ b + 1) :=
      List.pairwise_map.2
        (List.pairwise_lt_range.imp fun hlt => share_anti (Nat.le_of_lt hlt) total count)
    rw [← hsizes] at hpairwise
    simpa [partitions, Function.comp_def] using hpairwise
  · rw [totalPes_eq hbuild]
    exact (Vm.peCount_ofGroups groups).symm

/-- A child of a child whose two PETs hold a whole image and a part of the next: seven elements for
three children. -/
theorem build_slices_regrouped : 0 < 3 ∧ 3 ≤ 7 ∧ ∃ plan,
    build ⟨.ofGroups 5 (some 2) 2 [[⟨0, 1⟩, ⟨0, 2⟩, ⟨0, 3⟩], [⟨1, 0⟩, ⟨1, 1⟩, ⟨1, 2⟩, ⟨1, 3⟩]] true
      ⟨3, 2, 2⟩, 1⟩ 3 .maxThreads = .ok plan ∧
    plan.partition? 0 = some ⟨0, [⟨0, 1⟩, ⟨0, 2⟩, ⟨0, 3⟩]⟩ ∧
    plan.partition? 1 = some ⟨1, [⟨1, 0⟩, ⟨1, 1⟩]⟩ ∧
    plan.partition? 2 = some ⟨2, [⟨1, 2⟩, ⟨1, 3⟩]⟩ ∧ plan.totalPes = 7 := by
  obtain ⟨plan, hbuild, _, _, _, hslots, _, _, _, htotal⟩ :=
    (build_slices 5 2 1 3 (some 2) [[⟨0, 1⟩, ⟨0, 2⟩, ⟨0, 3⟩], [⟨1, 0⟩, ⟨1, 1⟩, ⟨1, 2⟩, ⟨1, 3⟩]] true
      ⟨3, 2, 2⟩ .maxThreads).2 (by decide) (by decide)
  obtain ⟨_, hzero, _⟩ := hslots 0 (by decide)
  obtain ⟨_, hone, _⟩ := hslots 1 (by decide)
  obtain ⟨_, htwo, _⟩ := hslots 2 (by decide)
  exact ⟨by decide, by decide, plan, hbuild, hzero, hone, htwo, htotal⟩

end SpawnPlan

end VirtualTopology
