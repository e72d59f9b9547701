import VirtualTopology.Proofs.Layout

/-!
# PETs that share a place

The PETs of two VMs match when they run at one place. Within a VM no two PETs do, so a PET has at
most one match in any other VM, and a match goes both ways. In the Global VM there is a PET at every
place of the host, in the order of the places, so there every PET has its match, and the number of
the match can be read off the place.

## Main definitions

- `PetDirectory.petsAt`: the PETs of a directory at a place.
- `Vm.fitted`: a VM with a communicator of the right size.

## Main statements

- `PetDirectory.matchInto_eq`, `PetDirectory.matchAll_eq`: what matching answers and writes.
- `PetDirectory.matchInto_any`: matching against any directory with any buffer.
- `Vm.LaidOut.petsAt_eq_singleton_iff`: the only PET at a place.
- `Chronicle.Reachable.lies`: every VM lies on the host, whatever the transport does.
- `Chronicle.Reachable.matching`: matches between any two VMs of a run.
-/

namespace VirtualTopology

/-! ### What matching answers -/

namespace PetDirectory

variable {β : Type} {d other : PetDirectory} {pet : Nat} {r : PetRecord}

/-- The PETs of a directory at a place, in the order of the directory. -/
def petsAt (d : PetDirectory) (l : Location) : List Nat :=
  (d.records.filter (·.location = l)).map PetRecord.pet

/-- Writing an item to a place of a buffer and more items behind it. -/
theorem write_cons (x : β) (found buffer : List β) (n : Nat) :
    (buffer.set n x).take (n + 1) ++ found.take (buffer.length - (n + 1)) ++
        (buffer.set n x).drop (n + 1 + found.length) =
      buffer.take n ++ (x :: found).take (buffer.length - n) ++
        buffer.drop (n + (found.length + 1)) := by
  by_cases hn : n < buffer.length
  · obtain ⟨room, hlength⟩ := Nat.exists_eq_add_of_lt hn
    have hroom : buffer.length - n = room + 1 := by omega
    have hleft : buffer.length - (n + 1) = room := by omega
    rw [List.take_add_one, List.getElem?_set_self hn, List.take_set_of_le (Nat.le_refl n),
      List.drop_set_of_lt (by omega), hroom, hleft, List.take_succ_cons]
    simp [Nat.add_comm, Nat.add_left_comm]
  · have hfull : buffer.length ≤ n := by omega
    rw [List.set_eq_of_length_le hfull, Nat.sub_eq_zero_of_le hfull,
      Nat.sub_eq_zero_of_le (Nat.le_succ_of_le hfull), List.take_of_length_le hfull,
      List.take_of_length_le (Nat.le_succ_of_le hfull), List.drop_of_length_le (by omega),
      List.drop_of_length_le (by omega), List.take_zero, List.take_zero]

/-- Matches are written from a place in the buffer on, as long as there is room, and all counted. -/
theorem foldl_noteMatch (entry : Nat → β) (target : Location) (records : List PetRecord)
    (buffer : List β) (n : Nat) : records.foldl (noteMatch entry target) (buffer, n) =
      let found := ((records.filter (·.location = target)).map PetRecord.pet).map entry
      (buffer.take n ++ found.take (buffer.length - n) ++ buffer.drop (n + found.length),
        n + found.length) := by
  induction records generalizing buffer n with
  | nil => simp
  | cons r records ih =>
    rw [List.foldl_cons]
    by_cases hr : r.location = target
    · rw [noteMatch, if_pos hr, ih, List.filter_cons_of_pos (by simpa using hr)]
      dsimp only
      rw [List.length_set, write_cons, List.map_cons, List.map_cons, List.length_cons]
      exact Prod.ext rfl (by dsimp only; omega)
    · rw [noteMatch, if_neg hr, ih, List.filter_cons_of_neg (by simpa using hr)]

/-- The answer is the number of PETs at the place, and as many of them are written as there is room
for. -/
theorem matchInto_eq (entry : Nat → β) (h : d.record pet = .ok r) (other : PetDirectory)
    (buffer : List β) : matchInto entry d pet other buffer =
      let found := (other.petsAt r.location).map entry
      (if buffer.length < found.length then
          .error (.bufferTooSmall found.length buffer.length)
        else .ok found.length,
        found.take buffer.length ++ buffer.drop found.length) := by
  have hfold := foldl_noteMatch entry r.location other.records buffer 0
  simp only [List.take_zero, List.nil_append, Nat.sub_zero, Nat.zero_add] at hfold
  rw [matchInto, h]
  dsimp only
  rw [hfold]
  split
  · next hshort => exact Prod.ext (if_pos hshort).symm rfl
  · next hroom => exact Prod.ext (if_neg hroom).symm rfl

theorem length_petsAt_le (d : PetDirectory) (l : Location) : (d.petsAt l).length ≤ d.petCount := by
  rw [petsAt, List.length_map, petCount]
  exact List.length_filter_le ..

/-- With room for all, the matches are the PETs at the place. -/
theorem matchAll_eq (h : d.record pet = .ok r) (other : PetDirectory) :
    d.matchAll pet other = .ok (other.petsAt r.location) := by
  have hroom : ¬ other.petCount < (other.petsAt r.location).length :=
    Nat.not_lt.2 (other.length_petsAt_le r.location)
  rw [matchAll, matchInto_eq id h]
  simp only [List.map_id, List.length_replicate, if_neg hroom]
  rw [List.take_of_length_le (Nat.not_lt.1 hroom), List.take_left]

theorem matchAll_eq_error (h : d.records[pet]? = none) (other : PetDirectory) :
    d.matchAll pet other = .error (.outOfRange d.vm pet d.petCount) := by
  rw [matchAll, matchInto, record, h]

theorem record_eq_ok_iff : d.record pet = .ok r ↔ d.records[pet]? = some r := by
  unfold record
  split
  · next r' hr' => rw [hr', Except.ok.injEq, Option.some.injEq]
  · next hnone => simp [hnone]

/-- What stands at each place of a buffer after matching: a match as long as there are matches, and
what was there before from then on. -/
theorem getElem?_take_append_drop (found buffer : List β) {i : Nat} (hi : i < buffer.length) :
    (found.take buffer.length ++ buffer.drop found.length)[i]? =
      if i < found.length then found[i]? else buffer[i]? := by
  split
  · next hfound =>
    rw [List.getElem?_append_left (by rw [List.length_take]; omega), List.getElem?_take_of_lt hi]
  · next hbeyond =>
    have hlength : (found.take buffer.length).length = found.length := by
      rw [List.length_take]
      omega
    rw [List.getElem?_append_right (by omega), hlength, List.getElem?_drop]
    congr 1
    omega

/-- Matching a PET of any directory against any other, with any buffer. A PET that the directory does
not have is refused and the buffer is left alone. Otherwise the first matches stand in the buffer, as
many as there is room for and in the order of the other directory, with the rest of it as before; the
answer is the number of matches, or how many there are and how many fit. A buffer with a place for
each match then takes them all, and the list of matches is got without a buffer. -/
theorem matchInto_any (entry : Nat → β) (d other : PetDirectory) (pet : Nat) (buffer : List β) :
    (d.records.length ≤ pet → matchInto entry d pet other buffer =
      (.error (.outOfRange d.vm pet d.records.length), buffer)) ∧
    ∀ r, d.records[pet]? = some r →
      let found := other.petsAt r.location
      let answer := matchInto entry d pet other buffer
      answer.2.length = buffer.length ∧
      (∀ i < buffer.length, answer.2[i]? =
        if i < found.length then found[i]?.map entry else buffer[i]?) ∧
      (answer.1 = .ok found.length ↔ found.length ≤ buffer.length) ∧
      (answer.1 = .error (.bufferTooSmall found.length buffer.length) ↔
        buffer.length < found.length) ∧
      d.matchAll pet other = .ok found ∧
      ∀ retry : List β, retry.length = found.length →
        matchInto entry d pet other retry = (.ok found.length, found.map entry) ∧
        answer.2.take (min found.length buffer.length) <+: found.map entry := by
  constructor
  · intro hpet
    rw [matchInto, record, List.getElem?_eq_none hpet]
    rfl
  · intro r hr found answer
    have hrecord := record_eq_ok_iff.2 hr
    have hlength : (found.map entry).length = found.length := List.length_map ..
    have hanswer : answer =
        (if buffer.length < found.length then
            .error (.bufferTooSmall found.length buffer.length)
          else .ok found.length,
          (found.map entry).take buffer.length ++ buffer.drop found.length) := by
      rw [← hlength]
      exact matchInto_eq entry hrecord other buffer
    refine ⟨?_, ?_, ?_, ?_, matchAll_eq hrecord other, fun retry hretry => ⟨?_, ?_⟩⟩
    · rw [hanswer, List.length_append, List.length_take, List.length_drop, hlength]
      omega
    · intro i hi
      have hplace := getElem?_take_append_drop (found.map entry) buffer hi
      rw [hlength, List.getElem?_map] at hplace
      rw [hanswer]
      exact hplace
    · rw [hanswer]
      split
      · next hshort => simp [hshort]
      · next hroom => simp [Nat.not_lt.1 hroom]
    · rw [hanswer]
      split
      · next hshort => simp [hshort]
      · next hroom => simp [hroom]
    · rw [matchInto_eq entry hrecord other retry]
      have hfits : ¬ retry.length < (found.map entry).length := by omega
      have hall : (found.map entry).take retry.length = found.map entry :=
        List.take_of_length_le (by omega)
      have hnone : retry.drop (found.map entry).length = [] := List.drop_of_length_le (by omega)
      show (if retry.length < (found.map entry).length then _ else _, _ ++ _) = _
      rw [if_neg hfits, hall, hnone, List.append_nil, hlength]
    · have hfits : min found.length buffer.length ≤ ((found.map entry).take buffer.length).length := by
        rw [List.length_take, hlength]
        omega
      rw [hanswer, List.take_append_of_le_length hfits, List.take_take]
      exact List.take_prefix ..

/-- Views may list a place more than once and number their PETs as they like. There is room for one
match of three, and the retry has them all. -/
theorem matchInto_any_repeated :
    let here : PetDirectory := ⟨9, [⟨4, ⟨0, 1⟩, 1, []⟩]⟩
    let there : PetDirectory :=
      ⟨8, [⟨7, ⟨0, 1⟩, 2, []⟩, ⟨0, ⟨1, 1⟩, 1, []⟩, ⟨3, ⟨0, 1⟩, 2, []⟩, ⟨7, ⟨0, 1⟩, 2, []⟩]⟩
    here.records.length ≤ 1 ∧
    matchInto id here 1 there [5] = (.error (.outOfRange 9 1 1), [5]) ∧
    here.records[0]? = some ⟨4, ⟨0, 1⟩, 1, []⟩ ∧
    (matchInto id here 0 there [5]).1 = .error (.bufferTooSmall 3 1) ∧
    matchInto id here 0 there [5, 5, 5] = (.ok 3, [7, 3, 7]) ∧
    here.matchAll 0 there = .ok [7, 3, 7] := by
  intro here there
  obtain ⟨hout, hin⟩ := matchInto_any id here there 1 [5]
  obtain ⟨_, _, _, hshort, hall, hretry⟩ :=
    (matchInto_any id here there 0 [5]).2 ⟨4, ⟨0, 1⟩, 1, []⟩ rfl
  exact ⟨by decide, hout (by decide), rfl, hshort.2 (by decide), (hretry [5, 5, 5] rfl).1, hall⟩

end PetDirectory

/-! ### Matches between VMs on one host -/

namespace Vm

variable {host : List Pe} {v a b : Vm} {l : Location}

/-- How a VM lies on a host does not depend on its communicator but for the number of its ranks.
This is the VM with a communicator of the right size. -/
def fitted (v : Vm) : Vm := { v with communicator := ⟨0, v.petCount, 0⟩ }

namespace LaidOut

theorem pet_eq (h : v.LaidOut host) {pet : Nat} {r : PetRecord} (hr : v.pets[pet]? = some r) :
    r.pet = pet :=
  number_eq_of_map_eq_range PetRecord.pet h.numbers hr

theorem locations_nodup (h : v.LaidOut host) : (v.pets.map PetRecord.location).Nodup := by
  refine h.ascending.imp fun {l l'} hbefore heq => ?_
  subst heq
  rcases hbefore with hlt | ⟨_, hlt⟩ <;> exact Nat.lt_irrefl _ hlt

/-- There is at most one PET at a place. -/
theorem length_petsAt_le_one (h : v.LaidOut host) (l : Location) :
    (v.directory.petsAt l).length ≤ 1 := by
  have hfilter : ((v.pets.filter (·.location = l)).map PetRecord.location).Nodup :=
    h.locations_nodup.sublist (List.filter_sublist.map _)
  have hall : (v.pets.filter (·.location = l)).map PetRecord.location =
      List.replicate (v.pets.filter (·.location = l)).length l := by
    rw [← List.map_const']
    apply List.map_congr_left
    intro r hr
    simpa using (List.mem_filter.1 hr).2
  rw [hall, List.nodup_replicate] at hfilter
  rwa [PetDirectory.petsAt, List.length_map]

/-- The only PET at a place is the one that runs there. -/
theorem petsAt_eq_singleton_iff (h : v.LaidOut host) {pet : Nat} :
    v.directory.petsAt l = [pet] ↔ ∃ r, v.pets[pet]? = some r ∧ r.location = l := by
  constructor
  · intro hpet
    obtain ⟨r, hr, rfl⟩ : ∃ r ∈ v.pets.filter (·.location = l), r.pet = pet := by
      have hmem : pet ∈ v.directory.petsAt l := hpet ▸ List.mem_singleton_self pet
      exact List.mem_map.1 hmem
    obtain ⟨hmem, hl⟩ := List.mem_filter.1 hr
    obtain ⟨i, hi⟩ := List.mem_iff_getElem?.1 hmem
    rw [h.pet_eq hi]
    exact ⟨r, hi, by simpa using hl⟩
  · rintro ⟨r, hr, rfl⟩
    have hmem : pet ∈ v.directory.petsAt r.location := by
      refine List.mem_map.2 ⟨r, List.mem_filter.2 ⟨List.mem_of_getElem? hr, by simp⟩, h.pet_eq hr⟩
    have hone := h.length_petsAt_le_one r.location
    match hfound : v.directory.petsAt r.location with
    | [] => simp [hfound] at hmem
    | [other] => rw [hfound, List.mem_singleton] at hmem; rw [hmem]
    | _ :: _ :: _ => simp [hfound] at hone

/-- A PET has a match in another VM if that VM has a PET at its place, which then is the match. -/
theorem matchAll_eq_singleton_iff (hb : b.LaidOut host) {p q : Nat} :
    a.directory.matchAll p b.directory = .ok [q] ↔ ∃ r r', a.pets[p]? = some r ∧
      b.pets[q]? = some r' ∧ r'.location = r.location := by
  cases hp : a.pets[p]? with
  | none => simp [PetDirectory.matchAll_eq_error (show a.directory.records[p]? = none from hp)]
  | some r =>
    have hrecord : a.directory.record p = .ok r := PetDirectory.record_eq_ok_iff.2 hp
    rw [PetDirectory.matchAll_eq hrecord, Except.ok.injEq, hb.petsAt_eq_singleton_iff]
    simp

end LaidOut

/-- In the Global VM of a host of equal images, PETs are numbered by their places. -/
theorem petsAt_ofTopology {images cores : Nat} (compat : Bool) (id : Nat) (world : Communicator)
    (pe : Pe) (hpe : pe ∈ (Topology.uniform images cores compat).pes)
    (hlaid : (ofTopology id (.uniform images cores compat) world).fitted.LaidOut host) :
    (ofTopology id (.uniform images cores compat) world).directory.petsAt pe.location =
      [pe.image * cores + pe.core] := by
  have hmem := hpe
  rw [Topology.pes_uniform] at hmem
  obtain ⟨image, himage, hmem⟩ := List.mem_flatMap.1 hmem
  obtain ⟨core, hcore, rfl⟩ := List.mem_map.1 hmem
  have hplace := Topology.getElem?_pes_uniform compat (List.mem_range.1 himage)
    (List.mem_range.1 hcore)
  have hlocation := congrArg (·[image * cores + core]?)
    (map_location_directoryOf ((Topology.uniform images cores compat).pes.map fun pe => [pe]))
  simp only [List.getElem?_map, hplace, Option.map_some] at hlocation
  exact hlaid.petsAt_eq_singleton_iff.2 (Option.map_eq_some_iff.1 hlocation)

end Vm

/-! ### Runs -/

namespace Chronicle

variable {σ : Type} {env : Surroundings σ} {k : Chronicle σ}

/-- Every VM that was ever made lies on the host, over any transport, and those without a parent are
Global VMs of the host. -/
theorem Reachable.lies (h : Reachable env k) : ∀ v ∈ k.built, ∃ t,
    k.stage.site.registry.config.discover k.stage.site.registry.detected = .ok t ∧
      v.fitted.LaidOut t.pes ∧ (v.parent = none → v = .ofTopology v.id t v.communicator) := by
  refine h.built_induction ?_ ?_
  · intro id t world hfound
    obtain ⟨_, hlength, _⟩ := DiscoveryConfig.placeable_of_discover hfound
    have hsize : (Vm.ofTopology id t world).petCount = t.peCount := by
      rw [Vm.petCount_ofTopology, hlength]
    exact ⟨t, hfound, Vm.laidOut_ofTopology hfound hsize, fun _ => rfl⟩
  · rintro parent count plan part id communicator ⟨t, hfound, hparent, _⟩ hplan hpart
    refine ⟨t, hfound, ?_, by simp [Vm.ofGroups]⟩
    refine Vm.laidOut_of_part (DiscoveryConfig.sorted_of_discover hfound) hparent.contiguous hplan
      hpart ?_
    exact Vm.length_directoryOf _

/-- Between any two VMs that were ever made, of one bring-up or of two, at any depths and live or
not, matching is a partial bijection: a PET has at most one match, and is the match of its match. In
a Global VM every PET has a match, whose number tells the place of its first element. -/
theorem Reachable.matching (h : Reachable env k) :
    (∀ a ∈ k.built, ∀ b ∈ k.built,
      (∀ p < a.petCount, ∃ found, a.directory.matchAll p b.directory = .ok found ∧
        found.length ≤ 1) ∧
      ∀ p q, a.directory.matchAll p b.directory = .ok [q] ↔
        b.directory.matchAll q a.directory = .ok [p]) ∧
    ∀ g ∈ k.built, g.parent = none → ∃ images cores compat,
      g = .ofTopology g.id (.uniform images cores compat) g.communicator ∧
      ∀ a ∈ k.built, ∀ p r, a.pets[p]? = some r → ∃ pe, r.pes.head? = some pe ∧
        a.directory.matchAll p g.directory = .ok [pe.image * cores + pe.core] := by
  constructor
  · intro a ha b hb
    obtain ⟨t, hfound, hlaid, _⟩ := h.lies a ha
    obtain ⟨t', hfound', hlaid', _⟩ := h.lies b hb
    obtain rfl := Except.ok.inj (hfound.symm.trans hfound')
    constructor
    · intro p hp
      have hrecord := PetDirectory.record_eq_ok_iff.2
        (show a.directory.records[p]? = _ from List.getElem?_eq_getElem hp)
      exact ⟨_, PetDirectory.matchAll_eq hrecord _, hlaid'.length_petsAt_le_one _⟩
    · intro p q
      have hab : a.directory.matchAll p b.directory = .ok [q] ↔ _ :=
        hlaid'.matchAll_eq_singleton_iff
      have hba : b.directory.matchAll q a.directory = .ok [p] ↔ _ :=
        hlaid.matchAll_eq_singleton_iff
      rw [hab, hba]
      constructor
      · rintro ⟨r, r', hr, hr', heq⟩
        exact ⟨r', r, hr', hr, heq.symm⟩
      · rintro ⟨r', r, hr', hr, heq⟩
        exact ⟨r, r', hr, hr', heq.symm⟩
  · intro g hg hroot
    obtain ⟨t, hfound, hlaid, hform⟩ := h.lies g hg
    obtain ⟨images, cores, rfl, _⟩ := DiscoveryConfig.discover_eq_ok hfound
    refine ⟨images, cores, _, hform hroot, fun a ha p r hr => ?_⟩
    obtain ⟨t, hfound', ha, _⟩ := h.lies a ha
    obtain rfl := Except.ok.inj (hfound.symm.trans hfound')
    have hmem : r ∈ a.pets := List.mem_of_getElem? hr
    obtain ⟨pe, hpe, hlocation⟩ := Option.map_eq_some_iff.1 (ha.anchored r hmem)
    refine ⟨pe, hpe, ?_⟩
    have hhost : pe ∈ (Topology.uniform images cores k.stage.site.registry.config.threadCompat).pes :=
      ha.contiguous.subset (List.mem_flatMap.2 ⟨r, hmem, List.mem_of_head? hpe⟩)
    have hrecord : a.directory.record p = .ok r := PetDirectory.record_eq_ok_iff.2 hr
    rw [PetDirectory.matchAll_eq hrecord, ← hlocation]
    rw [hform hroot] at hlaid ⊢
    exact congrArg Except.ok (Vm.petsAt_ofTopology _ _ _ pe hhost hlaid)

/-- Two images of three cores. The second PET of VM 2 holds the second image, and the first PET of
VM 4 runs where it does; the last PET of VM 4 is at the last place of the host. -/
theorem matching_regrouped : ∃ g ∈ regrouped.built, ∃ a ∈ regrouped.built, ∃ b ∈ regrouped.built,
    a.directory.matchAll 1 b.directory = .ok [0] ∧
    b.directory.matchAll 0 a.directory = .ok [1] ∧
    b.directory.matchAll 2 g.directory = .ok [5] ∧
    ∃ images cores compat, g = .ofTopology g.id (.uniform images cores compat) g.communicator ∧
      b.directory.matchAll 2 g.directory = .ok [1 * cores + 2] := by
  obtain ⟨hpair, hglobal⟩ := Reachable.matching reachable_regrouped
  have hmem : ∀ i (hi : i < regrouped.built.length), regrouped.built[i] ∈ regrouped.built :=
    fun i hi => List.getElem_mem hi
  have hg := hmem 0 (by decide)
  have ha := hmem 1 (by decide)
  have hb := hmem 3 (by decide)
  have hab : regrouped.built[1].directory.matchAll 1 regrouped.built[3].directory = .ok [0] := by
    decide
  refine ⟨_, hg, _, ha, _, hb, hab, ((hpair _ ha _ hb).2 1 0).1 hab, by decide, ?_⟩
  obtain ⟨images, cores, compat, hform, hall⟩ := hglobal _ hg (by decide)
  obtain ⟨pe, hpe, hmatch⟩ := hall _ hb 2 ⟨2, ⟨1, 2⟩, 3, [⟨1, 2⟩]⟩ (by decide)
  obtain rfl : Pe.mk 1 2 = pe := Option.some.inj hpe
  exact ⟨images, cores, compat, hform, hmatch⟩

end Chronicle

end VirtualTopology
