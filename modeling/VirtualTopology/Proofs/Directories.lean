import VirtualTopology.Proofs.Partitioning

/-!
# Directories built from groups

A directory is built in two passes. The first counts the groups of each image, the second looks the
counts up again, and both go by the first elements of the groups. So building can only go wrong where
a group has no first element: if none is empty, every count that is looked up was made, whatever
order the images come in.

## Main definitions

- `Vm.recordOf?`, `Vm.ofGroups?`: building with look-ups that may find nothing.

## Main statements

- `Vm.getD_groupsPerImage`: what the first pass counts.
- `Vm.ofGroups?_eq_some_iff`: building goes through if and only if no group is empty.
- `Vm.ofGroups_directory`: what is built, PET by PET.
-/

namespace VirtualTopology.Vm

variable {id depth image : Nat} {parent : Option Nat} {groups : List (List Pe)} {g : List Pe}
  {compat : Bool} {communicator : Communicator}

/-! ### Views of a directory -/

@[simp] theorem length_directoryOf (groups : List (List Pe)) :
    (directoryOf groups).length = groups.length := by
  simp [directoryOf]

theorem map_pet_directoryOf (groups : List (List Pe)) :
    (directoryOf groups).map PetRecord.pet = List.range groups.length := by
  apply List.ext_getElem <;> simp [directoryOf]

theorem map_location_directoryOf (groups : List (List Pe)) :
    (directoryOf groups).map PetRecord.location = groups.map fun g => (anchor g).location := by
  apply List.ext_getElem <;> simp [directoryOf]

theorem map_pes_directoryOf (groups : List (List Pe)) :
    (directoryOf groups).map PetRecord.pes = groups := by
  apply List.ext_getElem <;> simp [directoryOf]

/-- The number that a VM keeps is that of its elements. -/
theorem peCount_ofGroups (groups : List (List Pe)) :
    (ofGroups id parent depth groups compat communicator).peCount =
      (ofGroups id parent depth groups compat communicator).pes.length := by
  show ((directoryOf groups).map (·.pes.length)).sum = ((directoryOf groups).flatMap _).length
  rw [List.length_flatMap]

/-! ### Counts -/

theorem getD_groupsPerImage (groups : List (List Pe)) (image : Nat) :
    (groupsPerImage groups).getD image 0 = groups.countP fun g => (anchor g).image == image := by
  have hfold : ∀ counts : Std.TreeMap Nat Nat,
      (groups.foldl (fun counts g => counts.alter (anchor g).image fun n => some (n.getD 0 + 1))
        counts).getD image 0 = counts.getD image 0 + groups.countP fun g => (anchor g).image == image := by
    induction groups with
    | nil => simp
    | cons g groups ih =>
      intro counts
      rw [List.foldl_cons, ih, Std.TreeMap.getD_alter, List.countP_cons]
      by_cases himage : (anchor g).image = image
      · subst himage
        simp [Std.TreeMap.getD_eq_getD_getElem?]
        omega
      · simp [himage]
  rw [groupsPerImage, hfold]
  simp

/-- The image of every group was counted. -/
theorem getElem?_groupsPerImage (h : g ∈ groups) :
    (groupsPerImage groups)[(anchor g).image]? =
      some ((groupsPerImage groups).getD (anchor g).image 0) := by
  have hpos : 0 < (groupsPerImage groups).getD (anchor g).image 0 := by
    rw [getD_groupsPerImage, List.countP_pos_iff]
    exact ⟨g, h, beq_self_eq_true _⟩
  rw [Std.TreeMap.getD_eq_getD_getElem?] at hpos ⊢
  cases hcount : (groupsPerImage groups)[(anchor g).image]? with
  | none => simp [hcount] at hpos
  | some n => rfl

/-- The PETs on an image are as many as groups are anchored there. -/
theorem countP_image_directoryOf (groups : List (List Pe)) (image : Nat) :
    (directoryOf groups).countP (·.location.image == image) =
      groups.countP fun g => (anchor g).image == image := by
  have hcount := congrArg (List.countP (·.image == image)) (map_location_directoryOf groups)
  rwa [List.countP_map, List.countP_map] at hcount

/-- A PET knows how many there are on its image. -/
theorem threadGroupSize_directoryOf : ∀ r ∈ directoryOf groups,
    r.threadGroupSize = (directoryOf groups).countP (·.location.image == r.location.image) := by
  intro r hr
  obtain ⟨i, hi, rfl⟩ := List.mem_mapIdx.1 hr
  rw [countP_image_directoryOf]
  exact getD_groupsPerImage groups _

/-! ### Building that may fail -/

/-- The count of the groups on each image, if every group has a first element. -/
def groupsPerImage? (groups : List (List Pe)) : Option (Std.TreeMap Nat Nat) :=
  groups.foldlM
    (fun counts g => g.head?.map fun first =>
      counts.alter first.image fun n => some (n.getD 0 + 1)) ∅

/-- The entry of a PET, if its group has a first element and the image of that was counted. -/
def recordOf? (counts : Std.TreeMap Nat Nat) (pet : Nat) (group : List Pe) : Option PetRecord :=
  group.head?.bind fun first =>
    counts[first.image]?.map fun size =>
      { pet, location := first.location, threadGroupSize := size, pes := group }

/-- The directory with one PET for each group, if every look-up finds something. -/
def directoryOf? (groups : List (List Pe)) : Option (List PetRecord) :=
  (groupsPerImage? groups).bind fun counts =>
    groups.zipIdx.mapM fun (group, pet) => recordOf? counts pet group

/-- A VM with one PET for each group, if every look-up finds something. -/
def ofGroups? (id : Nat) (parent : Option Nat) (depth : Nat) (groups : List (List Pe))
    (threadCompat : Bool) (communicator : Communicator) : Option Vm :=
  (directoryOf? groups).map fun pets =>
    let peCount := (pets.map (·.pes.length)).foldr (· + ·) 0
    { id, parent, depth, pets, peCount, threadCompat, communicator }

theorem anchor_of_head? {first : Pe} (h : g.head? = some first) : anchor g = first := by
  rw [anchor, List.headD_eq_head?_getD, h, Option.getD_some]

theorem head?_eq_anchor (h : g ≠ []) : g.head? = some (anchor g) := by
  obtain ⟨pe, rest, rfl⟩ := List.exists_cons_of_ne_nil h
  rfl

theorem groupsPerImage?_eq (h : ∀ g ∈ groups, g ≠ []) :
    groupsPerImage? groups = some (groupsPerImage groups) := by
  rw [groupsPerImage?, groupsPerImage]
  generalize (∅ : Std.TreeMap Nat Nat) = counts
  induction groups generalizing counts with
  | nil => rfl
  | cons g groups ih =>
    rw [List.foldlM_cons, head?_eq_anchor (h g List.mem_cons_self)]
    exact ih (fun g' hg' => h g' (List.mem_cons_of_mem _ hg')) _

theorem groupsPerImage?_eq_none (h : [] ∈ groups) : groupsPerImage? groups = none := by
  rw [groupsPerImage?]
  generalize (∅ : Std.TreeMap Nat Nat) = counts
  induction groups generalizing counts with
  | nil => cases h
  | cons g groups ih =>
    rw [List.foldlM_cons]
    cases g with
    | nil => rfl
    | cons pe rest => exact ih (List.mem_of_ne_of_mem (by simp) h) _

theorem mapM_eq_some {α β : Type} {f : α → Option β} {result : α → β} {items : List α}
    (h : ∀ a ∈ items, f a = some (result a)) : items.mapM f = some (items.map result) := by
  induction items with
  | nil => rfl
  | cons a items ih =>
    rw [List.mapM_cons, h a List.mem_cons_self, ih fun b hb => h b (List.mem_cons_of_mem _ hb)]
    rfl

/-- The second pass finds what the first has counted. -/
theorem directoryOf?_eq (h : ∀ g ∈ groups, g ≠ []) :
    directoryOf? groups = some (directoryOf groups) := by
  have hrecord : ∀ x ∈ groups.zipIdx, recordOf? (groupsPerImage groups) x.2 x.1 =
      some { pet := x.2, location := (anchor x.1).location
             threadGroupSize := (groupsPerImage groups).getD (anchor x.1).image 0, pes := x.1 } := by
    intro x hx
    have hmem : x.1 ∈ groups := List.fst_mem_of_mem_zipIdx hx
    rw [recordOf?, head?_eq_anchor (h _ hmem), Option.bind_some, getElem?_groupsPerImage hmem]
    rfl
  rw [directoryOf?, groupsPerImage?_eq h, Option.bind_some, mapM_eq_some hrecord, directoryOf,
    List.mapIdx_eq_zipIdx_map]

/-- Building goes through if and only if no group is empty, and then nothing was missing. -/
theorem ofGroups?_eq_some_iff :
    ofGroups? id parent depth groups compat communicator =
      some (ofGroups id parent depth groups compat communicator) ↔ ∀ g ∈ groups, g ≠ [] := by
  constructor
  · rintro hsome g hg rfl
    rw [ofGroups?, directoryOf?, groupsPerImage?_eq_none hg] at hsome
    cases hsome
  · intro h
    rw [ofGroups?, directoryOf?_eq h]
    rfl

/-! ### What is built -/

/-- The entry of a PET by its number. -/
theorem record_ofGroups {pet : Nat} {first : Pe} (hg : groups[pet]? = some g)
    (hfirst : g.head? = some first) :
    (ofGroups id parent depth groups compat communicator).directory.record pet =
      .ok { pet, location := first.location
            threadGroupSize := groups.countP fun g => (anchor g).image == first.image, pes := g } := by
  have hrecord : (directoryOf groups)[pet]? = some
      { pet, location := first.location
        threadGroupSize := groups.countP fun g => (anchor g).image == first.image, pes := g } := by
    rw [← anchor_of_head? hfirst, ← getD_groupsPerImage]
    simp [directoryOf, hg]
  rw [PetDirectory.record]
  simp only [directory, ofGroups, hrecord]

/-- A VM can be built of groups if and only if none of them is empty. It has a PET for each group, in
order: the PET has the number of the group, holds its elements, runs where the first of them is, and
knows how many groups start on that image, which is how many PETs there are on it. The number of
elements is the same counted when the VM is built, counted over its directory, and of the elements
listed, which are those of the groups one after the other. -/
theorem ofGroups_directory (id depth : Nat) (parent : Option Nat) (groups : List (List Pe))
    (compat : Bool) (communicator : Communicator) :
    let vm := ofGroups id parent depth groups compat communicator
    (ofGroups? id parent depth groups compat communicator = some vm ↔ ∀ g ∈ groups, g ≠ []) ∧
    ((∀ g ∈ groups, g ≠ []) →
      vm.petCount = groups.length ∧
      (∀ pet g, groups[pet]? = some g → ∃ first size,
        g.head? = some first ∧
        size = groups.countP (fun other => other.head?.map Pe.image = some first.image) ∧
        vm.directory.record pet = .ok ⟨pet, ⟨first.image, first.core⟩, size, g⟩) ∧
      vm.peCount = vm.directory.peCount ∧ vm.peCount = vm.pes.length ∧
      vm.pes = groups.flatten ∧
      ∀ image, ∀ r ∈ vm.pets, r.location.image = image →
        vm.pets.countP (·.location.image = image) = r.threadGroupSize) := by
  intro vm
  refine ⟨ofGroups?_eq_some_iff, fun h => ⟨length_directoryOf groups, fun pet g hg => ?_, rfl,
    peCount_ofGroups groups, pes_ofGroups, ?_⟩⟩
  · have hfirst := head?_eq_anchor (h g (List.mem_of_getElem? hg))
    have hsize : groups.countP (fun other => (anchor other).image == (anchor g).image) =
        groups.countP fun other => other.head?.map Pe.image = some (anchor g).image := by
      refine List.countP_congr fun other hother => ?_
      simp [head?_eq_anchor (h other hother)]
    exact ⟨anchor g, _, hfirst, hsize, record_ofGroups hg hfirst⟩
  · rintro _ r hr rfl
    rw [threadGroupSize_directoryOf r hr]
    exact List.countP_congr fun _ _ => by simp

/-- Three groups whose images come in turns. -/
theorem ofGroups_directory_turns :
    let groups : List (List Pe) := [[⟨0, 1⟩, ⟨0, 2⟩], [⟨1, 0⟩], [⟨0, 3⟩]]
    let vm := ofGroups 4 (some 1) 1 groups true ⟨2, 3, 1⟩
    (∀ g ∈ groups, g ≠ []) ∧
    ofGroups? 4 (some 1) 1 groups true ⟨2, 3, 1⟩ = some vm ∧
    (∃ first size, [(⟨0, 3⟩ : Pe)].head? = some first ∧ size = 2 ∧
      vm.directory.record 2 = .ok ⟨2, ⟨first.image, first.core⟩, size, [⟨0, 3⟩]⟩) ∧
    vm.peCount = 4 ∧ vm.pes = [⟨0, 1⟩, ⟨0, 2⟩, ⟨1, 0⟩, ⟨0, 3⟩] ∧
    vm.pets.countP (·.location.image = 0) = 2 := by
  intro groups vm
  have hfull : ∀ g ∈ groups, g ≠ [] := by decide
  obtain ⟨hbuilt, h⟩ := ofGroups_directory 4 1 (some 1) groups true ⟨2, 3, 1⟩
  obtain ⟨_, hrecord, _, hcount, hpes, hthreads⟩ := h hfull
  obtain ⟨first, size, hfirst, hsize, hrecord⟩ := hrecord 2 [⟨0, 3⟩] rfl
  obtain rfl : size = 2 := hsize.trans (by rw [← Option.some.inj hfirst]; decide)
  exact ⟨hfull, hbuilt.2 hfull, ⟨first, 2, hfirst, rfl, hrecord⟩,
    hcount.trans (congrArg List.length hpes), hpes,
    hthreads 0 ⟨2, ⟨0, 3⟩, 2, [⟨0, 3⟩]⟩ (by decide) rfl⟩

end VirtualTopology.Vm
