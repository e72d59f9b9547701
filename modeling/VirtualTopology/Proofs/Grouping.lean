import Mathlib.Data.List.Induction
import Mathlib.Data.List.Nodup
import VirtualTopology.Proofs.Partitioning

/-!
# Elements put together by image

Where elements come in no order, putting an image's elements together one by one is a search among
the groups made so far. Read from the end of the input, a further element changes the one group of
its image or makes a new last group, so the groups are at every moment the input seen so far, image
by image. No order of the images is asked for here.

## Main definitions

- `Pe.images`: the images of a list in the order they first appear in.
- `Pe.onImage`: what a list has on an image.
- `SpawnPolicy.Apart`: groups that have an image each.

## Main statements

- `SpawnPolicy.insertByImage_map`: what a further element changes.
- `SpawnPolicy.petGroups_flatten_of_apart`: groups that have an image each are found again.
- `SpawnPolicy.petGroups_byImage`: the groups of any list, by either policy.
-/

namespace VirtualTopology

namespace Pe

variable {pes : List Pe} {pe : Pe} {image : Nat}

/-- The images that elements are on, in the order they first appear in. -/
def images (pes : List Pe) : List Nat := (pes.map Pe.image).eraseDups

/-- The elements on an image, in their order. -/
def onImage (pes : List Pe) (image : Nat) : List Pe := pes.filter (·.image = image)

theorem mem_images : image ∈ images pes ↔ ∃ pe ∈ pes, pe.image = image := by
  rw [images, List.mem_eraseDups, List.mem_map]

/-- A further element adds its image if that has not appeared yet. -/
theorem images_concat (pes : List Pe) (pe : Pe) : images (pes ++ [pe]) =
    if pe.image ∈ images pes then images pes else images pes ++ [pe.image] := by
  rw [images, images, List.map_append, List.map_singleton, List.eraseDups_append]
  generalize pes.map Pe.image = seen
  by_cases h : pe.image ∈ seen
  · simp [List.removeAll, h]
  · simp [List.removeAll, h, List.eraseDups_cons]

theorem nodup_images (pes : List Pe) : (images pes).Nodup := by
  induction pes using List.reverseRecOn with
  | nil => exact List.nodup_nil
  | append_singleton pes pe ih =>
    rw [images_concat]
    split
    · exact ih
    · next hnew =>
      rw [← List.concat_eq_append]
      exact ih.concat hnew

theorem onImage_concat (pes : List Pe) (pe : Pe) (image : Nat) : onImage (pes ++ [pe]) image =
    if image = pe.image then onImage pes image ++ [pe] else onImage pes image := by
  by_cases h : image = pe.image
  · simp [onImage, h]
  · simp [onImage, h, Ne.symm h]

theorem image_of_mem_onImage (h : pe ∈ onImage pes image) : pe.image = image := by
  simpa using (List.mem_filter.1 h).2

theorem onImage_ne_nil (h : image ∈ images pes) : onImage pes image ≠ [] := by
  obtain ⟨pe, hpe, rfl⟩ := mem_images.1 h
  exact List.ne_nil_of_mem (List.mem_filter.2 ⟨hpe, by simp⟩)

/-- What is on an image that appears starts with an element of it. -/
theorem head?_onImage (h : image ∈ images pes) :
    (onImage pes image).head?.map Pe.image = some image := by
  obtain ⟨pe, rest, hpes⟩ := List.exists_cons_of_ne_nil (onImage_ne_nil h)
  have hpe : pe ∈ onImage pes image := hpes ▸ List.mem_cons_self
  rw [hpes, List.head?_cons, Option.map_some, image_of_mem_onImage hpe]

end Pe

namespace SpawnPolicy

variable {groups before : List (List Pe)} {g pes : List Pe} {pe : Pe}

/-! ### One further element -/

/-- Among groups that have an image each, a further element goes to the end of its image's group,
or into a new last group if there is none. -/
theorem insertByImage_map {group : Nat → List Pe} {images : List Nat} (pe : Pe)
    (hhead : ∀ image ∈ images, (group image).head?.map Pe.image = some image)
    (hnodup : images.Nodup) : insertByImage pe (images.map group) =
      if pe.image ∈ images then
        images.map fun image => if image = pe.image then group image ++ [pe] else group image
      else images.map group ++ [[pe]] := by
  induction images with
  | nil => rfl
  | cons image images ih =>
    obtain ⟨hnotin, hnodup⟩ := List.nodup_cons.1 hnodup
    have hfirst := hhead image List.mem_cons_self
    have hrest := ih (fun i hi => hhead i (List.mem_cons_of_mem _ hi)) hnodup
    rw [List.map_cons, insertByImage, hfirst]
    by_cases hpe : image = pe.image
    · -- The image does not come again, so the groups behind stay as they are.
      have hbehind : (images.map fun i => if i = pe.image then group i ++ [pe] else group i) =
          images.map group :=
        List.map_congr_left fun i hi => if_neg fun h : i = pe.image => hnotin (hpe ▸ h ▸ hi)
      simp [hpe, hbehind]
    · rw [if_neg (by simpa using hpe), hrest]
      by_cases hmem : pe.image ∈ images
      · simp [hmem, hpe]
      · simp [hmem, Ne.symm hpe]

/-- Groups of other images are passed by. -/
theorem insertByImage_append (pe : Pe) (groups : List (List Pe))
    (h : ∀ g ∈ before, g.head?.map Pe.image ≠ some pe.image) :
    insertByImage pe (before ++ groups) = before ++ insertByImage pe groups := by
  induction before with
  | nil => rfl
  | cons g before ih =>
    rw [List.cons_append, insertByImage, if_neg (h g List.mem_cons_self),
      ih fun g' hg' => h g' (List.mem_cons_of_mem _ hg'), List.cons_append]

theorem perm_flatten_insertByImage (pe : Pe) (groups : List (List Pe)) :
    (insertByImage pe groups).flatten.Perm (groups.flatten ++ [pe]) := by
  induction groups with
  | nil => exact List.Perm.refl _
  | cons g groups ih =>
    rw [insertByImage, List.flatten_cons, List.append_assoc]
    split
    · rw [List.flatten_cons, List.append_assoc]
      exact List.perm_append_comm.append_left g
    · rw [List.flatten_cons]
      exact ih.append_left g

theorem petGroups_maxPes_concat (pes : List Pe) (pe : Pe) :
    maxPes.petGroups (pes ++ [pe]) = insertByImage pe (maxPes.petGroups pes) := by
  rw [petGroups, List.foldl_append]
  rfl

/-! ### All elements -/

/-- The groups are what is on each image, by the first appearance of the images. -/
theorem petGroups_maxPes_eq (pes : List Pe) :
    maxPes.petGroups pes = (Pe.images pes).map (Pe.onImage pes) := by
  induction pes using List.reverseRecOn with
  | nil => rfl
  | append_singleton pes pe ih =>
    rw [petGroups_maxPes_concat, ih,
      insertByImage_map pe (fun _ => Pe.head?_onImage) (Pe.nodup_images pes), Pe.images_concat]
    split
    · exact List.map_congr_left fun image _ => (Pe.onImage_concat pes pe image).symm
    · next hnew =>
      have hold : (Pe.images pes).map (Pe.onImage (pes ++ [pe])) =
          (Pe.images pes).map (Pe.onImage pes) := by
        refine List.map_congr_left fun image himage => ?_
        rw [Pe.onImage_concat, if_neg fun h : image = pe.image => hnew (h ▸ himage)]
      have hnone : Pe.onImage pes pe.image = [] := by
        by_contra hsome
        obtain ⟨pe', hpe'⟩ := List.exists_mem_of_ne_nil _ hsome
        exact hnew (Pe.mem_images.2 ⟨pe', (List.mem_filter.1 hpe').1, Pe.image_of_mem_onImage hpe'⟩)
      rw [List.map_append, hold, List.map_singleton, Pe.onImage_concat, if_pos rfl, hnone]
      rfl

theorem perm_flatten_petGroups_maxPes (pes : List Pe) : (maxPes.petGroups pes).flatten.Perm pes := by
  induction pes using List.reverseRecOn with
  | nil => exact List.Perm.refl _
  | append_singleton pes pe ih =>
    rw [petGroups_maxPes_concat]
    exact (perm_flatten_insertByImage pe _).trans (ih.append_right [pe])

/-- Groups that are not empty and have an image each. -/
structure Apart (groups : List (List Pe)) : Prop where
  nonempty : ∀ g ∈ groups, g ≠ []
  sameImage : ∀ g ∈ groups, ∀ a ∈ g, ∀ b ∈ g, a.image = b.image
  otherImages : groups.Pairwise fun g g' => ∀ a ∈ g, ∀ b ∈ g', a.image ≠ b.image

theorem apart_petGroups_maxPes (pes : List Pe) : Apart (maxPes.petGroups pes) := by
  rw [petGroups_maxPes_eq]
  refine ⟨fun g hg => ?_, fun g hg a ha b hb => ?_, ?_⟩
  · obtain ⟨image, himage, rfl⟩ := List.mem_map.1 hg
    exact Pe.onImage_ne_nil himage
  · obtain ⟨image, _, rfl⟩ := List.mem_map.1 hg
    rw [Pe.image_of_mem_onImage ha, Pe.image_of_mem_onImage hb]
  · refine List.Pairwise.map _ (fun i j hij a ha b hb => ?_) (Pe.nodup_images pes)
    rwa [Pe.image_of_mem_onImage ha, Pe.image_of_mem_onImage hb]

/-- No PET is without elements. -/
theorem ne_nil_of_mem_petGroups (policy : SpawnPolicy) : ∀ g ∈ policy.petGroups pes, g ≠ [] := by
  cases policy with
  | maxThreads => simp [petGroups]
  | maxPes => exact (apart_petGroups_maxPes pes).nonempty

/-- A group whose image is new is put together behind the others. -/
theorem foldl_insertByImage_group (hg : ∀ a ∈ g, a.image = pe.image)
    (hnew : ∀ g' ∈ groups, g'.head?.map Pe.image ≠ some pe.image) :
    (pe :: g).foldl (fun groups pe => insertByImage pe groups) groups = groups ++ [pe :: g] := by
  induction g using List.reverseRecOn with
  | nil =>
    have hlast := insertByImage_append pe [] hnew
    rw [List.append_nil] at hlast
    exact hlast
  | append_singleton g a ih =>
    have ha : a.image = pe.image := hg a (by simp)
    rw [← List.cons_append, List.foldl_append, ih fun b hb => hg b (List.mem_append_left _ hb),
      List.foldl_cons, List.foldl_nil, insertByImage_append a _ (ha ▸ hnew)]
    simp [insertByImage, ha]

/-- Groups that have an image each are what their elements are put together to. -/
theorem petGroups_flatten_of_apart (h : Apart groups) :
    maxPes.petGroups groups.flatten = groups := by
  induction groups using List.reverseRecOn with
  | nil => rfl
  | append_singleton groups g ih =>
    obtain ⟨hnonempty, hsame, hother⟩ := h
    obtain ⟨hpair, _, hlast⟩ := List.pairwise_append.1 hother
    have hg : g ∈ groups ++ [g] := List.mem_append_right _ (List.mem_singleton_self g)
    obtain ⟨pe, rest, rfl⟩ := List.exists_cons_of_ne_nil (hnonempty g hg)
    have hgroups : maxPes.petGroups groups.flatten = groups :=
      ih ⟨fun g' hg' => hnonempty g' (List.mem_append_left _ hg'),
        fun g' hg' => hsame g' (List.mem_append_left _ hg'), hpair⟩
    have hnew : ∀ g' ∈ groups, g'.head?.map Pe.image ≠ some pe.image := by
      intro g' hg' heq
      obtain ⟨a, ha, himage⟩ := Option.map_eq_some_iff.1 heq
      exact hlast g' hg' _ List.mem_cons_self a (List.mem_of_head? ha) pe List.mem_cons_self himage
    rw [List.flatten_append, List.flatten_singleton, petGroups, List.foldl_append]
    change List.foldl _ (maxPes.petGroups groups.flatten) _ = _
    rw [hgroups]
    exact foldl_insertByImage_group
      (fun a ha => hsame _ hg a (List.mem_cons_of_mem _ ha) pe List.mem_cons_self) hnew

/-- Put together by image, elements in any order make one group for each image, in the order of the
images' first elements, with what is on the image in its order. So every group has an image of its
own and starts with the first element there is of it, together the groups are the elements, each as
often as it was there, and if no image comes back after another, they are in their order. Putting
the groups together once more changes nothing. One by one, the elements always stay in their order. -/
theorem petGroups_byImage (pes : List Pe) :
    maxPes.petGroups pes =
      (Pe.images pes).map (fun image => pes.filter fun pe => pe.image = image) ∧
    Apart (maxPes.petGroups pes) ∧
    (maxPes.petGroups pes).flatten.Perm pes ∧
    (∀ g ∈ maxPes.petGroups pes, ∀ pe ∈ g,
      g.head? = pes.find? fun other => other.image = pe.image) ∧
    (ImageOrdered pes → (maxPes.petGroups pes).flatten = pes) ∧
    maxPes.petGroups (maxPes.petGroups pes).flatten = maxPes.petGroups pes ∧
    (maxThreads.petGroups pes).flatten = pes ∧
    ∀ g ∈ maxThreads.petGroups pes, g.length = 1 := by
  have hapart := apart_petGroups_maxPes pes
  refine ⟨petGroups_maxPes_eq pes, hapart, perm_flatten_petGroups_maxPes pes, ?_,
    fun hordered => (flatten_petGroups_maxPes hordered).1, petGroups_flatten_of_apart hapart, ?_, ?_⟩
  · intro g hg pe hpe
    rw [petGroups_maxPes_eq] at hg
    obtain ⟨image, _, rfl⟩ := List.mem_map.1 hg
    rw [Pe.image_of_mem_onImage hpe, Pe.onImage, List.head?_filter]
  · simp [petGroups, ← List.flatMap_def]
  · simp [petGroups]

/-- Two images that come in turns, with a repetition, and the same elements in order. -/
theorem petGroups_byImage_interleaved :
    let pes : List Pe := [⟨1, 2⟩, ⟨0, 3⟩, ⟨1, 0⟩, ⟨0, 3⟩]
    let ordered : List Pe := [⟨0, 3⟩, ⟨0, 3⟩, ⟨1, 0⟩, ⟨1, 2⟩]
    maxPes.petGroups pes = [[⟨1, 2⟩, ⟨1, 0⟩], [⟨0, 3⟩, ⟨0, 3⟩]] ∧
    [⟨1, 2⟩, ⟨1, 0⟩] ∈ maxPes.petGroups pes ∧
    some ⟨1, 2⟩ = pes.find? (fun other => other.image = 1) ∧
    ImageOrdered ordered ∧ (maxPes.petGroups ordered).flatten = ordered := by
  intro pes ordered
  obtain ⟨hgroups, _, _, hfirst, _⟩ := petGroups_byImage pes
  have hmem : [⟨1, 2⟩, ⟨1, 0⟩] ∈ maxPes.petGroups pes := by decide
  have hordered : ImageOrdered ordered := by simp [ImageOrdered, ordered]
  exact ⟨hgroups.trans (by decide), hmem, hfirst _ hmem ⟨1, 0⟩ (by decide), hordered,
    (petGroups_byImage ordered).2.2.2.2.1 hordered⟩

end SpawnPolicy

end VirtualTopology
