import VirtualTopology.Discovery
import VirtualTopology.Proofs.Partitioning

/-!
# Hosts that are discovered

Discovery yields a host of equal images within the limits. Its processing elements are distinct
and go up from image to image, and there are not more of them than a communicator can have ranks.

## Main definitions

- `Placeable`: elements that a VM can have.

## Main statements

- `Topology.getElem?_pes_place`: the cores of a host by their numbers.
- `DiscoveryConfig.discover_eq_ok_iff`, `DiscoveryConfig.discover_eq_ok`: what discovery yields.
- `DiscoveryConfig.placeable_of_discover`: the elements of such a host.
-/

namespace VirtualTopology

/-- Distinct elements, image by image, and no more of them than a communicator may have ranks. -/
structure Placeable (pes : List Pe) : Prop where
  nodup : pes.Nodup
  ordered : ImageOrdered pes
  length_le : pes.length ≤ Limits.maxCommunicatorSize

theorem Placeable.of_piece {part pes : List Pe} (h : Placeable pes) (hp : part <:+: pes) :
    Placeable part where
  nodup := h.nodup.sublist hp.sublist
  ordered := h.ordered.of_piece hp
  length_le := Nat.le_trans hp.length_le h.length_le

namespace Topology

variable (images cores : Nat) (compat : Bool)

theorem pes_uniform : (uniform images cores compat).pes =
    (List.range images).flatMap fun image => (List.range cores).map fun core => ⟨image, core⟩ := by
  simp [uniform, pes, Image.pes, List.flatMap_map]

/-- The cores go up from image to image, and within an image. -/
theorem pairwise_pes_uniform : (uniform images cores compat).pes.Pairwise fun a b =>
    a.image < b.image ∨ a.image = b.image ∧ a.core < b.core := by
  rw [pes_uniform, List.flatMap_def, List.pairwise_flatten]
  constructor
  · intro l hl
    obtain ⟨image, _, rfl⟩ := List.mem_map.1 hl
    exact List.Pairwise.map _ (fun _ _ hlt => Or.inr ⟨rfl, hlt⟩) List.pairwise_lt_range
  · refine List.Pairwise.map _ (fun a b hab => ?_) List.pairwise_lt_range
    intro x hx y hy
    obtain ⟨_, _, rfl⟩ := List.mem_map.1 hx
    obtain ⟨_, _, rfl⟩ := List.mem_map.1 hy
    exact Or.inl hab

theorem nodup_pes_uniform : (uniform images cores compat).pes.Nodup := by
  refine (pairwise_pes_uniform images cores compat).imp ?_
  rintro a _ hab rfl
  omega

theorem imageOrdered_pes_uniform : ImageOrdered (uniform images cores compat).pes :=
  (pairwise_pes_uniform images cores compat).imp fun hab => by omega

theorem length_pes_uniform : (uniform images cores compat).pes.length = images * cores := by
  simp [pes_uniform, List.length_flatMap, List.map_const']

theorem peCount_uniform : (uniform images cores compat).peCount = images * cores := by
  have hcores : (uniform images cores compat).images.map Image.cores =
      List.replicate images cores := by
    simp [uniform, Function.comp_def, List.map_const']
  have hsum : ∀ n, (List.replicate n cores).foldr (· + ·) 0 = n * cores := by
    intro n
    induction n with
    | zero => simp
    | succ n ih => rw [List.replicate_succ, List.foldr_cons, ih, Nat.succ_mul, Nat.add_comm]
  rw [peCount, hcores, hsum]

/-- The cores of a host of equal images are listed image by image. -/
theorem getElem?_pes_uniform {images cores image core : Nat} (compat : Bool)
    (himage : image < images) (hcore : core < cores) :
    (uniform images cores compat).pes[image * cores + core]? = some ⟨image, core⟩ := by
  rw [pes_uniform]
  induction images with
  | zero => cases himage
  | succ images ih =>
    have hlength : ((List.range images).flatMap fun image =>
        (List.range cores).map fun core => Pe.mk image core).length = images * cores := by
      rw [← length_pes_uniform images cores compat, pes_uniform]
    rw [List.range_succ, List.flatMap_append, List.flatMap_singleton]
    rcases Nat.lt_succ_iff_lt_or_eq.1 himage with hlt | rfl
    · have hmul : (image + 1) * cores ≤ images * cores := Nat.mul_le_mul_right cores hlt
      have hbelow : image * cores + core < images * cores := by
        rw [Nat.succ_mul] at hmul
        omega
      rw [List.getElem?_append_left (hlength ▸ hbelow), ih hlt]
    · rw [List.getElem?_append_right (by omega), hlength, Nat.add_sub_cancel_left]
      simp [hcore]

/-- A core of a host of equal images, from its number. -/
theorem getElem?_pes_place {images cores k : Nat} (compat : Bool) (hk : k < images * cores) :
    (uniform images cores compat).pes[k]? = some ⟨k / cores, k % cores⟩ := by
  have hcores : 0 < cores := Nat.pos_of_mul_pos_left (Nat.zero_lt_of_lt hk)
  have hplace := getElem?_pes_uniform compat
    (Nat.div_lt_of_lt_mul (Nat.mul_comm images cores ▸ hk)) (Nat.mod_lt k hcores)
  rwa [Nat.div_add_mod'] at hplace

end Topology

namespace DiscoveryConfig

variable {c : DiscoveryConfig} {detected : Nat} {t : Topology}

theorem inRange_iff {limit : Nat} {setting : Option Nat} :
    inRange limit setting = true ↔ ∀ n ∈ setting, 1 ≤ n ∧ n ≤ limit := by
  cases setting <;> simp [inRange]

theorem bounds_of_inRange {limit default : Nat} {setting : Option Nat}
    (h : inRange limit setting = true) (hone : 1 ≤ default) (hle : default ≤ limit) :
    1 ≤ setting.getD default ∧ setting.getD default ≤ limit := by
  cases setting with
  | none => exact ⟨hone, hle⟩
  | some n => exact inRange_iff.1 h n rfl

theorem validate_eq_ok_iff : c.validate = .ok () ↔
    inRange Limits.maxImages c.images = true ∧
      inRange Limits.maxPesPerImage c.pesPerImage = true := by
  rw [validate]
  by_cases himages : inRange Limits.maxImages c.images = true
  · by_cases hpes : inRange Limits.maxPesPerImage c.pesPerImage = true
    · simp [himages, hpes]
    · simp [himages, hpes]
  · simp [himages]

/-- A host that is valid is found. -/
theorem discover_eq_ok_iff : c.discover detected = .ok t ↔
    c.validate = .ok () ∧
      t = .uniform (c.images.getD 1) (c.coresPerImage detected) c.threadCompat := by
  rw [discover]
  cases c.validate with
  | error fault => simp
  | ok u => simp [eq_comm]

theorem images_bounds (h : c.validate = .ok ()) :
    1 ≤ c.images.getD 1 ∧ c.images.getD 1 ≤ Limits.maxImages :=
  bounds_of_inRange (validate_eq_ok_iff.1 h).1 (Nat.le_refl 1) (by decide)

theorem cores_bounds (h : c.validate = .ok ()) (detected : Nat) :
    1 ≤ c.coresPerImage detected ∧ c.coresPerImage detected ≤ Limits.maxPesPerImage :=
  bounds_of_inRange (validate_eq_ok_iff.1 h).2 (Nat.le_max_left 1 _)
    (Nat.max_le.2 ⟨by decide, Nat.min_le_right _ _⟩)

/-- Discovery yields a host of equal images, neither their number nor their size out of bounds. -/
theorem discover_eq_ok (h : c.discover detected = .ok t) :
    ∃ images cores, t = .uniform images cores c.threadCompat ∧
      1 ≤ images ∧ images ≤ Limits.maxImages ∧ 1 ≤ cores ∧ cores ≤ Limits.maxPesPerImage := by
  obtain ⟨hvalid, rfl⟩ := discover_eq_ok_iff.1 h
  obtain ⟨himages, himages'⟩ := images_bounds hvalid
  obtain ⟨hcores, hcores'⟩ := cores_bounds hvalid detected
  exact ⟨_, _, rfl, himages, himages', hcores, hcores'⟩

theorem placeable_of_discover (h : c.discover detected = .ok t) :
    Placeable t.pes ∧ t.pes.length = t.peCount ∧ 0 < t.peCount := by
  obtain ⟨images, cores, rfl, himages, himages', hcores, hcores'⟩ := discover_eq_ok h
  refine ⟨⟨Topology.nodup_pes_uniform .., Topology.imageOrdered_pes_uniform .., ?_⟩, ?_, ?_⟩
  · rw [Topology.length_pes_uniform]
    exact Nat.mul_le_mul himages' hcores'
  · rw [Topology.length_pes_uniform, Topology.peCount_uniform]
  · rw [Topology.peCount_uniform]
    exact Nat.mul_pos himages hcores

end DiscoveryConfig

end VirtualTopology
