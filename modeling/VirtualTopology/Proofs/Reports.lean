import VirtualTopology.Codec.Report
import VirtualTopology.Proofs.Spelling

/-!
# Reports that lose nothing

Reports, configurations, topologies and partitions are read back from the text they are written as,
whatever is left out of it: a missing parent, a depth of zero, a switch that is off, an override
that is not made. They are also read from every other spelling of that text, with the members of
each object in another order and with members of other names added.

The report of a PET has the fields of its placement among its own, and to find them everything but
its own two fields is held back. What is added there has to be of a kind that can be: a number too
large for a floating-point number, or a string without a text, is refused by this reader, though
every other passes it over.

## Main definitions

- `Pe.shape`, `PetReport.shape`, `VmReport.shape`, …: where in a text the records are.
- `Pe.Fits`, `PetReport.Fits`, `VmReport.Fits`, …: the numbers of a record are words.

## Main statements

- `PetReport.lossless`, `VmReport.lossless`, …: one codec each.
- `reports_faithful`: what this means for texts.
- `not_faithful_petReport`: a member that cannot be held back.
-/

namespace VirtualTopology

open Json

/-! ### Processing elements -/

namespace Pe

/-- The numbers of a processing element are words. -/
structure Fits (pe : Pe) : Prop where
  image : IsWord pe.image
  core : IsWord pe.core

def slots (pe : Pe) : List Slot :=
  [⟨"image", .plain, some (.nat pe.image)⟩, ⟨"core", .plain, some (.nat pe.core)⟩]

/-- The fields of a processing element. -/
def shape : Shape := .record Value.isScalar [("image", .plain), ("core", .plain)]

theorem lossless : Lossless shape toJson ofJson? Fits := by
  refine .of_fields slots ["image", "core"] (by decide) (fun _ => ⟨rfl, rfl, rfl⟩) (fun _ => rfl)
    (by simp [slots]) ?back ?only
  case back =>
    rintro pe _ fits (_ | ⟨himage, _ | ⟨hcore, _ | _⟩⟩)
    rw [rel_plain_iff.1 himage, rel_plain_iff.1 hcore]
    simp [required_word fits.image, required_word fits.core]
  case only =>
    intro answers pe h
    split at h
    · obtain ⟨image, himage, h⟩ := Option.bind_eq_some_iff.1 h
      obtain ⟨core, hcore, h⟩ := Option.bind_eq_some_iff.1 h
      obtain rfl := Option.some.inj h
      exact ⟨isWord_of_required himage, isWord_of_required hcore⟩
    · cases h

end Pe

/-! ### Partitions -/

namespace Partition

/-- The numbers of a partition are words. -/
structure Fits (p : Partition) : Prop where
  slot : IsWord p.slot
  pes : ∀ pe ∈ p.pes, pe.Fits

def slots (p : Partition) : List Slot :=
  [⟨"slot", .plain, some (.nat p.slot)⟩,
    ⟨"pes", .list Pe.shape, some (.array (p.pes.map Pe.toJson))⟩]

/-- The fields of a partition. -/
def shape : Shape := .record Value.isScalar [("slot", .plain), ("pes", .list Pe.shape)]

theorem lossless : Lossless shape toJson ofJson? Fits := by
  refine .of_fields slots ["slot", "pes"] (by decide) (fun _ => ⟨rfl, rfl, rfl⟩) (fun _ => rfl)
    ?self ?back ?only
  case self =>
    intro p
    simpa [slots] using Shape.Varies.list (itemsVary_self Pe.lossless.varies_self)
  case back =>
    rintro p _ fits (_ | ⟨hslot, _ | ⟨⟨hpes⟩, _ | _⟩⟩)
    have hlist : required (Value.listOf Pe.ofJson?) (some _) = some p.pes :=
      listOf_of_varies hpes fun pe hpe _ => Pe.lossless.read_varies (fits.pes pe hpe)
    rw [rel_plain_iff.1 hslot]
    simp [required_word fits.slot, hlist]
  case only =>
    intro answers p h
    split at h
    · obtain ⟨slot, hslot, h⟩ := Option.bind_eq_some_iff.1 h
      obtain ⟨pes, hpes, h⟩ := Option.bind_eq_some_iff.1 h
      obtain rfl := Option.some.inj h
      exact ⟨isWord_of_required hslot,
        forall_of_required_listOf (fun _ _ => Pe.lossless.fits_of_read) hpes⟩
    · cases h

end Partition

/-! ### Hosts -/

namespace Image

/-- The numbers of an image are words. -/
structure Fits (i : Image) : Prop where
  id : IsWord i.id
  cores : IsWord i.cores

def slots (i : Image) : List Slot :=
  [⟨"id", .plain, some (.nat i.id)⟩, ⟨"cores", .plain, some (.nat i.cores)⟩]

/-- The fields of an image. -/
def shape : Shape := .record Value.isScalar [("id", .plain), ("cores", .plain)]

theorem lossless : Lossless shape toJson ofJson? Fits := by
  refine .of_fields slots ["id", "cores"] (by decide) (fun _ => ⟨rfl, rfl, rfl⟩) (fun _ => rfl)
    (by simp [slots]) ?back ?only
  case back =>
    rintro i _ fits (_ | ⟨hid, _ | ⟨hcores, _ | _⟩⟩)
    rw [rel_plain_iff.1 hid, rel_plain_iff.1 hcores]
    simp [required_word fits.id, required_word fits.cores]
  case only =>
    intro answers i h
    split at h
    · obtain ⟨id, hid, h⟩ := Option.bind_eq_some_iff.1 h
      obtain ⟨cores, hcores, h⟩ := Option.bind_eq_some_iff.1 h
      obtain rfl := Option.some.inj h
      exact ⟨isWord_of_required hid, isWord_of_required hcores⟩
    · cases h

end Image

namespace Topology

/-- The numbers of a topology are words. -/
structure Fits (t : Topology) : Prop where
  images : ∀ i ∈ t.images, i.Fits

def slots (t : Topology) : List Slot :=
  [⟨"images", .list Image.shape, some (.array (t.images.map Image.toJson))⟩,
    ⟨"thread_compat", .plain, some (.bool t.threadCompat)⟩]

/-- The fields of a topology. -/
def shape : Shape :=
  .record Value.isScalar [("images", .list Image.shape), ("thread_compat", .plain)]

theorem lossless : Lossless shape toJson ofJson? Fits := by
  refine .of_fields slots ["images", "thread_compat"] (by decide) (fun _ => ⟨rfl, rfl, rfl⟩)
    (fun _ => rfl) ?self ?back ?only
  case self =>
    intro t
    simpa [slots] using Shape.Varies.list (itemsVary_self Image.lossless.varies_self)
  case back =>
    rintro t _ fits (_ | ⟨⟨himages⟩, _ | ⟨hcompat, _ | _⟩⟩)
    have hlist : required (Value.listOf Image.ofJson?) (some _) = some t.images :=
      listOf_of_varies himages fun i hi _ => Image.lossless.read_varies (fits.images i hi)
    rw [rel_plain_iff.1 hcompat]
    simp [hlist, required_flag]
  case only =>
    intro answers t h
    split at h
    · obtain ⟨images, himages, h⟩ := Option.bind_eq_some_iff.1 h
      obtain ⟨compat, hcompat, h⟩ := Option.bind_eq_some_iff.1 h
      obtain rfl := Option.some.inj h
      exact ⟨forall_of_required_listOf (fun _ _ => Image.lossless.fits_of_read) himages⟩
    · cases h

end Topology

/-- A number that may be left out is a field without a value then. -/
theorem map_natMember (name : String) (value : Option Nat) :
    (natMember name value).map (fun (name, v) => (some name, v)) =
      Slot.members ⟨name, .plain, value.map .nat⟩ := by
  cases value <;> rfl

namespace DiscoveryConfig

/-- The overrides of a configuration are words. -/
structure Fits (c : DiscoveryConfig) : Prop where
  images : ∀ n ∈ c.images, IsWord n
  pesPerImage : ∀ n ∈ c.pesPerImage, IsWord n

def slots (c : DiscoveryConfig) : List Slot :=
  [⟨"images", .plain, c.images.map .nat⟩, ⟨"pes_per_image", .plain, c.pesPerImage.map .nat⟩,
    ⟨"thread_compat", .plain, some (.bool c.threadCompat)⟩]

/-- The fields of a configuration. -/
def shape : Shape :=
  .record Value.isScalar [("images", .plain), ("pes_per_image", .plain), ("thread_compat", .plain)]

theorem toJson_eq (c : DiscoveryConfig) : c.toJson = .object (written c.slots) := by
  rw [toJson, Value.record, List.map_append, List.map_append, map_natMember, map_natMember]
  simp [slots, written, Slot.members]

theorem lossless : Lossless shape toJson ofJson? Fits := by
  refine .of_fields slots ["images", "pes_per_image", "thread_compat"] (by decide)
    (fun c => ⟨rfl, rfl, c.toJson_eq⟩) (fun _ => rfl) (by simp [slots]) ?back ?only
  case back =>
    rintro c _ fits (_ | ⟨himages, _ | ⟨hpes, _ | ⟨hcompat, _ | _⟩⟩⟩)
    rw [rel_plain_iff.1 himages, rel_plain_iff.1 hpes, rel_plain_iff.1 hcompat]
    simp [nullable_word fits.images, nullable_word fits.pesPerImage, orDefault, Value.flag]
  case only =>
    intro answers c h
    split at h
    · obtain ⟨images, himages, h⟩ := Option.bind_eq_some_iff.1 h
      obtain ⟨pes, hpes, h⟩ := Option.bind_eq_some_iff.1 h
      obtain ⟨compat, hcompat, h⟩ := Option.bind_eq_some_iff.1 h
      obtain rfl := Option.some.inj h
      exact ⟨isWord_of_nullable himages, isWord_of_nullable hpes⟩
    · cases h

end DiscoveryConfig

/-! ### Reports of PETs -/

namespace Placement

/-- The numbers of a placement are words. -/
structure Fits (p : Placement) : Prop where
  peCount : IsWord p.peCount
  imageId : IsWord p.imageId
  threadGroupSize : IsWord p.threadGroupSize
  threadId : IsWord p.threadId

def slots (p : Placement) : List Slot :=
  [⟨"pe_count", .plain, some (.nat p.peCount)⟩, ⟨"image_id", .plain, some (.nat p.imageId)⟩,
    ⟨"thread_group_size", .plain, some (.nat p.threadGroupSize)⟩,
    ⟨"thread_id", .plain, some (.nat p.threadId)⟩]

/-- A placement is read from any object that has its fields. -/
theorem ofJson?_object {p : Placement} {ws : List (Option String × Value)} (fits : p.Fits)
    (named : ∀ m ∈ ws, m.1.isSome = true)
    (field : ∀ slot ∈ p.slots, only? ws slot.name = some slot.value) :
    ofJson? (.object ws) = some p := by
  have hnamed : ws.all (·.1.isSome) = true := List.all_eq_true.2 named
  simp only [slots, List.forall_mem_cons] at field
  obtain ⟨hcount, himage, hsize, hthread, -⟩ := field
  simp [ofJson?, Value.fields, hnamed, memberNames, hcount, himage, hsize, hthread,
    required_word fits.peCount, required_word fits.imageId, required_word fits.threadGroupSize,
    required_word fits.threadId]

theorem fits_of_ofJson? {p : Placement} {v : Value} (h : ofJson? v = some p) : p.Fits := by
  unfold ofJson? at h
  obtain ⟨answers, hfields, h⟩ := Option.bind_eq_some_iff.1 h
  split at h
  · obtain ⟨count, hcount, h⟩ := Option.bind_eq_some_iff.1 h
    obtain ⟨image, himage, h⟩ := Option.bind_eq_some_iff.1 h
    obtain ⟨size, hsize, h⟩ := Option.bind_eq_some_iff.1 h
    obtain ⟨thread, hthread, h⟩ := Option.bind_eq_some_iff.1 h
    obtain rfl := Option.some.inj h
    exact ⟨isWord_of_required hcount, isWord_of_required himage, isWord_of_required hsize,
      isWord_of_required hthread⟩
  · cases h

end Placement

namespace PetReport

/-- The numbers of the report of a PET are words. -/
structure Fits (r : PetReport) : Prop where
  pet : IsWord r.pet
  placement : r.placement.Fits
  pes : ∀ pe ∈ r.pes, pe.Fits

def slots (r : PetReport) : List Slot :=
  [⟨"pet", .plain, some (.nat r.pet)⟩] ++ r.placement.slots ++
    [⟨"pes", .list Pe.shape, some (.array (r.pes.map Pe.toJson))⟩]

/-- The fields of the report of a PET, those of its placement among them. What may be added to the
object is up to its reader, which holds it back. -/
def shape (free : Value → Bool) : Shape :=
  .record free [("pet", .plain), ("pe_count", .plain), ("image_id", .plain),
    ("thread_group_size", .plain), ("thread_id", .plain), ("pes", .list Pe.shape)]

variable {r : PetReport} {free : Value → Bool} {ws : List (Option String × Value)} {w : Value}

theorem slots_vary_self (r : PetReport) :
    ∀ slot ∈ r.slots, ∀ v ∈ slot.value, slot.shape.Varies v v := by
  simpa [slots, Placement.slots] using Shape.Varies.list (itemsVary_self Pe.lossless.varies_self)

/-- Everything but the two fields of the report itself can be held back. -/
theorem fitsBuffer_of_spelt (fits : r.Fits) (h : Spelt Value.isHoldable r.slots ws) {name : String}
    (hmem : (some name, w) ∈ ws) (hother : some name ∉ ownNames) (levels : Nat) :
    w.fitsBuffer levels = true := by
  have hplaced : ∀ n, IsWord n → ⟨name, .plain, some (.nat n)⟩ ∈ r.slots →
      w.fitsBuffer levels = true := by
    intro n hn hslot
    obtain ⟨v, hv, hvaries⟩ := h.of_mem hslot hmem
    obtain rfl := varies_plain_iff.1 hvaries
    obtain rfl := Option.some.inj hv
    exact Value.fitsBuffer_nat hn levels
  by_cases hname : name ∈ r.slots.map Slot.name
  · simp only [slots, Placement.slots, List.map_cons, List.map_nil,
      List.cons_append, List.nil_append, List.mem_cons, List.not_mem_nil, or_false] at hname
    obtain rfl | rfl | rfl | rfl | rfl | rfl := hname
    · exact absurd (by decide) hother
    · exact hplaced _ fits.placement.peCount (by simp [slots, Placement.slots])
    · exact hplaced _ fits.placement.imageId (by simp [slots, Placement.slots])
    · exact hplaced _ fits.placement.threadGroupSize (by simp [slots, Placement.slots])
    · exact hplaced _ fits.placement.threadId (by simp [slots, Placement.slots])
    · exact absurd (by decide) hother
  · exact Value.fitsBuffer_of_isHoldable (h.other name w hmem hname) levels

theorem ofJsonAt?_of_varies (fits : r.Fits) (depth : Nat)
    (h : (shape Value.isHoldable).Varies r.toJson w) : ofJsonAt? depth w = some r := by
  obtain ⟨ws, rfl, hspelt⟩ := spelt_of_varies Value.isHoldable r.slots
    (by simp [slots, Placement.slots]) h
  have hpet : only? ws "pet" = some (some (.nat r.pet)) := hspelt.only?_plain (by simp [slots])
  obtain ⟨pes, hpes, hrel⟩ := hspelt.field
    ⟨"pes", .list Pe.shape, some (.array (r.pes.map Pe.toJson))⟩ (by simp [slots])
  obtain ⟨hvaries⟩ := hrel
  have hlist : Value.listOf Pe.ofJson? _ = some r.pes :=
    listOf_of_varies hvaries fun pe hpe _ => Pe.lossless.read_varies (fits.pes pe hpe)
  have hplaced : ∀ slot ∈ r.placement.slots,
      some slot.name ∉ ownNames ∧ only? ws slot.name = some slot.value := by
    intro slot hslot
    have hplain : slot.shape = .plain ∧ some slot.name ∉ ownNames := by
      simp only [Placement.slots, List.mem_cons, List.not_mem_nil, or_false] at hslot
      obtain rfl | rfl | rfl | rfl := hslot <;> exact ⟨rfl, by simp [ownNames]⟩
    refine ⟨hplain.2, hspelt.only?_plain ?_⟩
    rw [← hplain.1]
    simp [slots, hslot]
  simp only [ofJsonAt?]
  -- Everything but the two fields of the report is held back, and the placement is among it.
  refine Option.bind_eq_some_iff.2 ⟨(), if_pos (List.all_eq_true.2 ?_),
    Option.bind_eq_some_iff.2 ⟨_, (only?_filter fun _ => rfl).trans hpet,
      Option.bind_eq_some_iff.2 ⟨r.pet, Value.natBelow_nat fits.pet,
        Option.bind_eq_some_iff.2 ⟨r.placement, Placement.ofJson?_object fits.placement ?_ ?_,
          Option.bind_eq_some_iff.2 ⟨_, (only?_filter fun _ => rfl).trans hpes,
            Option.bind_eq_some_iff.2 ⟨r.pes, hlist, rfl⟩⟩⟩⟩⟩⟩
  · rintro ⟨name, v⟩ hm
    obtain ⟨hmem, hother⟩ := List.mem_filter.1 hm
    obtain ⟨name, rfl⟩ := Option.isSome_iff_exists.1 (hspelt.named _ hmem)
    have hnot : some name ∉ ownNames := by simpa using hother
    simp [fitsBuffer_of_spelt fits hspelt hmem hnot]
  · exact fun m hm => hspelt.named m (List.mem_filter.1 hm).1
  · intro slot hslot
    obtain ⟨hnot, honly⟩ := hplaced slot hslot
    exact (only?_filter fun _ => by simpa using hnot).trans honly

theorem fits_of_ofJsonAt? {depth : Nat} (h : ofJsonAt? depth w = some r) : r.Fits := by
  unfold ofJsonAt? at h
  split at h
  · obtain ⟨_, _, h⟩ := Option.bind_eq_some_iff.1 h
    obtain ⟨found, _, h⟩ := Option.bind_eq_some_iff.1 h
    obtain ⟨pet, hpet, h⟩ := Option.bind_eq_some_iff.1 h
    obtain ⟨placement, hplacement, h⟩ := Option.bind_eq_some_iff.1 h
    obtain ⟨list, _, h⟩ := Option.bind_eq_some_iff.1 h
    obtain ⟨pes, hpes, h⟩ := Option.bind_eq_some_iff.1 h
    obtain rfl := Option.some.inj h
    exact ⟨isWord_of_required hpet, Placement.fits_of_ofJson? hplacement,
      forall_of_required_listOf (fun _ _ => Pe.lossless.fits_of_read) hpes⟩
  · cases h

/-- The report of a PET is read back at any depth of a text. -/
theorem lossless (depth : Nat) :
    Lossless (shape Value.isHoldable) toJson (ofJsonAt? depth) Fits where
  varies_self r := varies_written Value.isHoldable r.slots r.slots_vary_self
  read_varies fits h := ofJsonAt?_of_varies fits depth h
  fits_of_read h := fits_of_ofJsonAt? h

end PetReport

/-! ### Reports of VMs -/

namespace VmReport

/-- The numbers of the report of a VM are words, the depth one of 32 bits. -/
structure Fits (r : VmReport) : Prop where
  vm : IsWord r.vm
  parent : ∀ n ∈ r.parent, IsWord n
  depth : r.depth < Limits.depthBound
  localPet : IsWord r.localPet
  petCount : IsWord r.petCount
  peCount : IsWord r.peCount
  communicator : IsWord r.communicator
  pets : ∀ p ∈ r.pets, p.Fits

def slots (r : VmReport) : List Slot :=
  [⟨"vm", .plain, some (.nat r.vm)⟩, ⟨"parent", .plain, r.parent.map .nat⟩,
    ⟨"depth", .plain, if isZero r.depth then none else some (.nat r.depth)⟩,
    ⟨"local_pet", .plain, some (.nat r.localPet)⟩, ⟨"pet_count", .plain, some (.nat r.petCount)⟩,
    ⟨"pe_count", .plain, some (.nat r.peCount)⟩,
    ⟨"thread_compat", .plain, if isOff r.threadCompat then none else some (.bool r.threadCompat)⟩,
    ⟨"communicator", .plain, some (.nat r.communicator)⟩,
    ⟨"pets", .list (PetReport.shape Value.isHoldable), some (.array (r.pets.map PetReport.toJson))⟩]

/-- The fields of the report of a VM. -/
def shape : Shape :=
  .record Value.isScalar [("vm", .plain), ("parent", .plain), ("depth", .plain),
    ("local_pet", .plain), ("pet_count", .plain), ("pe_count", .plain), ("thread_compat", .plain),
    ("communicator", .plain), ("pets", .list (PetReport.shape Value.isHoldable))]

theorem toJson_eq (r : VmReport) : r.toJson = .object (written r.slots) := by
  simp only [toJson, Value.record, List.map_append, map_natMember]
  cases hzero : isZero r.depth <;> cases hoff : isOff r.threadCompat <;>
    simp [slots, written, Slot.members, hzero, hoff]

theorem lossless : Lossless shape toJson ofJson? Fits := by
  refine .of_fields slots ["vm", "parent", "depth", "local_pet", "pet_count", "pe_count",
    "thread_compat", "communicator", "pets"] (by decide) (fun r => ⟨rfl, rfl, r.toJson_eq⟩)
    (fun _ => rfl) ?self ?back ?only
  case self =>
    intro r
    simpa [slots] using Shape.Varies.list (itemsVary_self (PetReport.lossless 3).varies_self)
  case back =>
    rintro r _ fits (_ | ⟨hvm, _ | ⟨hparent, _ | ⟨hdepth, _ | ⟨hlocal, _ | ⟨hpetCount,
      _ | ⟨hpeCount, _ | ⟨hcompat, _ | ⟨hcomm, _ | ⟨⟨hpets⟩, _ | _⟩⟩⟩⟩⟩⟩⟩⟩⟩)
    have hlist : required (Value.listOf (PetReport.ofJsonAt? 3)) (some _) = some r.pets :=
      listOf_of_varies hpets fun p hp _ => (PetReport.lossless 3).read_varies (fits.pets p hp)
    rw [rel_plain_iff.1 hvm, rel_plain_iff.1 hparent, rel_plain_iff.1 hdepth,
      rel_plain_iff.1 hlocal, rel_plain_iff.1 hpetCount, rel_plain_iff.1 hpeCount,
      rel_plain_iff.1 hcompat, rel_plain_iff.1 hcomm]
    simp only [required_word fits.vm, nullable_word fits.parent, orDefault_halfWord fits.depth,
      required_word fits.localPet, required_word fits.petCount, required_word fits.peCount,
      orDefault_flag, required_word fits.communicator, hlist, Option.bind_eq_bind,
      Option.bind_some, Option.pure_def]
  case only =>
    intro answers r h
    split at h
    · obtain ⟨vm, hvm, h⟩ := Option.bind_eq_some_iff.1 h
      obtain ⟨parent, hparent, h⟩ := Option.bind_eq_some_iff.1 h
      obtain ⟨depth, hdepth, h⟩ := Option.bind_eq_some_iff.1 h
      obtain ⟨localPet, hlocal, h⟩ := Option.bind_eq_some_iff.1 h
      obtain ⟨petCount, hpetCount, h⟩ := Option.bind_eq_some_iff.1 h
      obtain ⟨peCount, hpeCount, h⟩ := Option.bind_eq_some_iff.1 h
      obtain ⟨compat, hcompat, h⟩ := Option.bind_eq_some_iff.1 h
      obtain ⟨comm, hcomm, h⟩ := Option.bind_eq_some_iff.1 h
      obtain ⟨pets, hpets, h⟩ := Option.bind_eq_some_iff.1 h
      obtain rfl := Option.some.inj h
      exact {
        vm := isWord_of_required hvm
        parent := isWord_of_nullable hparent
        depth := lt_of_orDefault_halfWord hdepth
        localPet := isWord_of_required hlocal
        petCount := isWord_of_required hpetCount
        peCount := isWord_of_required hpeCount
        communicator := isWord_of_required hcomm
        pets := forall_of_required_listOf (fun _ _ => (PetReport.lossless 3).fits_of_read) hpets }
    · cases h

end VmReport

/-! ### Texts -/

/-- Reports, configurations, topologies and partitions are read back from their texts and from every
other spelling of them. In the object of a PET only members that can be held back may be added. -/
theorem reports_faithful :
    Faithful VmReport.shape VmReport.toJson VmReport.ofJson? VmReport.Fits ∧
    Faithful (PetReport.shape Value.isHoldable) PetReport.toJson PetReport.ofJson? PetReport.Fits ∧
    Faithful DiscoveryConfig.shape DiscoveryConfig.toJson DiscoveryConfig.ofJson?
      DiscoveryConfig.Fits ∧
    Faithful Topology.shape Topology.toJson Topology.ofJson? Topology.Fits ∧
    Faithful Partition.shape Partition.toJson Partition.ofJson? Partition.Fits :=
  ⟨VmReport.lossless.faithful, (PetReport.lossless 1).faithful, DiscoveryConfig.lossless.faithful,
    Topology.lossless.faithful, Partition.lossless.faithful⟩

/-- A PET that the report of a crowded host might list. -/
def crowdedPet : PetReport := ⟨1, ⟨1, 2, 3, 4⟩, []⟩

/-- Its report with a load added that is larger than every floating-point number. -/
def crowdedSpelling : Value :=
  .object (written crowdedPet.slots ++ [(some "load", .number (.decimal false 1 400))])

theorem varies_crowdedSpelling :
    (PetReport.shape Value.isScalar).Varies crowdedPet.toJson crowdedSpelling := by
  refine varies_written_append Value.isScalar crowdedPet.slots _ crowdedPet.slots_vary_self ?_
  simp [Unknown, Value.isScalar, PetReport.slots, Placement.slots]

theorem ofJson?_crowdedSpelling : PetReport.ofJson? crowdedSpelling = none := by
  have hload : Number.isFinite (.decimal false 1 400) = false :=
    not_isFinite_decimal false (by decide) (by decide)
  simp [PetReport.ofJson?, PetReport.ofJsonAt?, crowdedSpelling, PetReport.slots, Placement.slots,
    written, Slot.members, PetReport.ownNames, Value.fitsBuffer, hload]

/-- Not every scalar may be added to the object of a PET. -/
theorem not_faithful_petReport :
    ¬ Faithful (PetReport.shape Value.isScalar) PetReport.toJson PetReport.ofJson?
      PetReport.Fits := by
  intro h
  have hfits : crowdedPet.Fits := by
    refine ⟨by decide, ⟨by decide, by decide, by decide, by decide⟩, by simp [crowdedPet]⟩
  have hread := (h.otherwise crowdedPet crowdedSpelling hfits varies_crowdedSpelling).1
  rw [decode_compact, ofJson?_crowdedSpelling] at hread
  cases hread

end VirtualTopology
