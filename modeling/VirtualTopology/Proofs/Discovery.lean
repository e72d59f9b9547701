import VirtualTopology.Proofs.Layout
import VirtualTopology.Proofs.Lifecycle
import VirtualTopology.Proofs.Wiring

/-!
# What discovery finds

Four rules in four places have to fit together: the bounds of a configuration, the even share of the
detected cores, the list of a host's elements, and the size of a communicator. They meet where the
largest host has as many elements as a communicator may have ranks, and nothing is left between
them: whatever configuration is valid can be brought up over a local transport.

## Main statements

- `DiscoveryConfig.validate_eq_error_iff`: which override a configuration is refused for.
- `LocalTransport.isOk_create_iff`: which sizes a local transport accepts.
- `DiscoveryConfig.discover_within`: when there is a host, and what it is.
-/

namespace VirtualTopology

theorem LocalTransport.isOk_create_iff {size : Nat} {net : Fabric × LocalTransport} :
    (create size net).1.isOk ↔ validSize size = true := by
  rw [create]
  dsimp only
  split
  · next hsize => simp [hsize, Except.isOk, Except.toBool]
  · next hsize => simp [hsize, Except.isOk, Except.toBool]

namespace DiscoveryConfig

variable {c : DiscoveryConfig} {detected limit : Nat} {t : Topology} {fault : ConfigFault}

/-- Only an override that was made can be out of bounds. -/
theorem exists_of_inRange_eq_false {setting : Option Nat} (h : inRange limit setting = false) :
    ∃ n, setting = some n ∧ ¬ (1 ≤ n ∧ n ≤ limit) := by
  cases setting with
  | none => cases h
  | some n => exact ⟨n, rfl, by simpa [inRange] using h⟩

/-- The number of images is looked at first. -/
theorem validate_eq_error_iff : c.validate = .error fault ↔
    (∃ n ∈ c.images, ¬ (1 ≤ n ∧ n ≤ Limits.maxImages) ∧ fault = .imagesOutOfRange n) ∨
    (∀ n ∈ c.images, 1 ≤ n ∧ n ≤ Limits.maxImages) ∧
      ∃ n ∈ c.pesPerImage, ¬ (1 ≤ n ∧ n ≤ Limits.maxPesPerImage) ∧ fault = .pesOutOfRange n := by
  rw [validate]
  cases himages : inRange Limits.maxImages c.images with
  | false =>
    obtain ⟨n, hn, hout⟩ := exists_of_inRange_eq_false himages
    simp [hn, -not_and, hout, eq_comm]
  | true =>
    have hfit := inRange_iff.1 himages
    have hnone : ¬ ∃ n ∈ c.images, ¬ (1 ≤ n ∧ n ≤ Limits.maxImages) ∧
        fault = .imagesOutOfRange n := by
      rintro ⟨n, hn, hout, _⟩
      exact hout (hfit n hn)
    rw [or_iff_right hnone, and_iff_right hfit]
    cases hpes : inRange Limits.maxPesPerImage c.pesPerImage with
    | false =>
      obtain ⟨n, hn, hout⟩ := exists_of_inRange_eq_false hpes
      simp [hn, -not_and, hout, eq_comm]
    | true =>
      refine iff_of_false (by simp) ?_
      rintro ⟨n, hn, hout, _⟩
      exact hout (inRange_iff.1 hpes n hn)

theorem discover_eq_error_iff :
    c.discover detected = .error fault ↔ c.validate = .error fault := by
  rw [discover]
  cases c.validate with
  | error fault => simp
  | ok u => simp

theorem isOk_discover_iff : (c.discover detected).isOk ↔ c.validate = .ok () := by
  rw [discover]
  cases c.validate with
  | error fault => simp [Except.isOk, Except.toBool]
  | ok u => simp [Except.isOk, Except.toBool]

/-- The host is as large as a communicator can be at most. -/
theorem validSize_peCount (h : c.discover detected = .ok t) :
    LocalTransport.validSize t.peCount = true := by
  obtain ⟨himpl, hlength, hpos⟩ := placeable_of_discover h
  have hle := hlength ▸ himpl.length_le
  simp [LocalTransport.validSize, hle, Nat.succ_le_of_lt hpos]

/-- There is a host if and only if each override that is given lies within its bounds; the number of
images is found out of bounds first. The share of an image is never taken of no images, and the host
has as many elements as its images have cores in all, which is a number there is. They are listed
image by image, in order, so that the place of an element in the list tells its image and its core.
A local transport always has a communicator for so many ranks, so a registry over one that is down
comes up if and only if its configuration is valid. -/
theorem discover_within (c : DiscoveryConfig) (detected : Nat) :
    let images := c.images.getD 1
    let cores := c.pesPerImage.getD (max 1 (min (detected / images) Limits.maxPesPerImage))
    let imagesFit := ∀ n ∈ c.images, 1 ≤ n ∧ n ≤ Limits.maxImages
    let pesFit := ∀ n ∈ c.pesPerImage, 1 ≤ n ∧ n ≤ Limits.maxPesPerImage
    ((c.discover detected).isOk ↔ imagesFit ∧ pesFit) ∧
    (∀ fault, c.discover detected = .error fault ↔
      (∃ n ∈ c.images, ¬ (1 ≤ n ∧ n ≤ Limits.maxImages) ∧ fault = .imagesOutOfRange n) ∨
      imagesFit ∧
        ∃ n ∈ c.pesPerImage, ¬ (1 ≤ n ∧ n ≤ Limits.maxPesPerImage) ∧ fault = .pesOutOfRange n) ∧
    (∀ t, c.discover detected = .ok t →
      images ≠ 0 ∧ t.peCount = images * cores ∧ images * cores < Limits.wordBound ∧
      t.pes.length = t.peCount ∧
      (∀ i < images * cores, t.pes[i]? = some ⟨i / cores, i % cores⟩) ∧ Sorted t.pes ∧
      ∀ net, (LocalTransport.transport.init t.peCount net).1.isOk) ∧
    (c.validate = .ok () ↔ imagesFit ∧ pesFit) ∧
    ∀ (s : Site (Fabric × LocalTransport)) (context : ExecutionContext),
      s.registry.transport = LocalTransport.transport → s.registry.config = c →
      s.registry.isUp = false → ((s.bringUp context).1.isOk ↔ c.validate = .ok ()) := by
  intro images cores imagesFit pesFit
  have hvalid : c.validate = .ok () ↔ imagesFit ∧ pesFit := by
    rw [validate_eq_ok_iff, inRange_iff, inRange_iff]
  refine ⟨isOk_discover_iff.trans hvalid,
    fun fault => discover_eq_error_iff.trans validate_eq_error_iff, fun t h => ?_, hvalid, ?_⟩
  · have hroom := validSize_peCount h
    obtain ⟨hfit, rfl⟩ := discover_eq_ok_iff.1 h
    obtain ⟨himages, himages'⟩ := images_bounds hfit
    obtain ⟨_, hcores'⟩ := cores_bounds hfit detected
    refine ⟨Nat.ne_of_gt himages, Topology.peCount_uniform .., ?_, ?_,
      fun i hi => Topology.getElem?_pes_place _ hi, Topology.sorted_pes_uniform ..,
      fun net => LocalTransport.isOk_create_iff.2 hroom⟩
    · exact Nat.lt_of_le_of_lt (Nat.mul_le_mul himages' hcores') (by decide)
    · rw [Topology.length_pes_uniform, Topology.peCount_uniform]
  · rintro s context htransport rfl hdown
    rw [Site.bringUp_isOk_iff, htransport]
    constructor
    · exact fun h => h.2.1
    · intro hfit
      obtain ⟨t, hfound⟩ : ∃ t, s.registry.config.discover s.registry.detected = .ok t :=
        ⟨_, discover_eq_ok_iff.2 ⟨hfit, rfl⟩⟩
      exact ⟨Option.isNone_iff_eq_none.1 (Option.isSome_eq_false_iff.1 hdown), hfit, t, hfound,
        LocalTransport.isOk_create_iff.2 (validSize_peCount hfound)⟩

/-- The largest host there can be has its elements up to the last one, and a registry comes up on
it. -/
theorem discover_within_largest :
    let c : DiscoveryConfig := { images := some 1024, pesPerImage := some 4096 }
    let site : Site (Fabric × LocalTransport) :=
      { net := ({}, {}), registry := { id := 1, transport := LocalTransport.transport, config := c } }
    ∃ t, c.discover 1 = .ok t ∧ t.peCount = 4194304 ∧ t.pes[4194303]? = some ⟨1023, 4095⟩ ∧
      t.pes.length = Limits.maxCommunicatorSize ∧
      site.registry.isUp = false ∧ (site.bringUp .main).1.isOk := by
  intro c site
  have hfound : c.discover 1 = .ok (.uniform 1024 4096) := rfl
  obtain ⟨_, _, hhost, _, hup⟩ := discover_within c 1
  obtain ⟨_, hcount, _, hlength, hplace, _⟩ := hhost _ hfound
  have hsize : (Topology.uniform 1024 4096).peCount = 4194304 := hcount.trans (by decide)
  exact ⟨_, hfound, hsize, (hplace 4194303 (by decide)).trans (by decide),
    (hlength.trans hsize).trans (by decide), rfl, (hup site .main rfl rfl rfl).2 rfl⟩

end DiscoveryConfig

end VirtualTopology
