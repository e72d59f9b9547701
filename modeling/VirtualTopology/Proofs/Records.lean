import Mathlib.Data.List.Flatten
import VirtualTopology.Proofs.Advance
import VirtualTopology.Proofs.Entries

/-!
# What is known of launches

The world keeps the children of every launch, with what their PETs hold, until somebody ends them.
What a PET has done it notes when the entries of its launch are over, and what it has noted stays.
No two PETs run in the same context, so that whatever is noted of one is all that this one has done.

## Main definitions

- `Object.keys`, `Kids.keys`, `World.petKeys`: the children that an object is, and those that PETs
  left behind.
- `World.Advances`, `World.Quiet`: what is never taken back, and what leaves all children alone.
- `Kids.Fresh`: launches as they come.
- `World.Recorded`: of every PET of a launch it is noted what it has done.

## Main statements

- `World.Recorded.quiet`, `World.Recorded.addKids`, `World.Recorded.removeKids`,
  `World.Recorded.setKids`: so it is whatever happens to launches.
-/

namespace VirtualTopology.Session

/-! ### Objects of an owner -/

/-- The children that an object is. -/
def Object.keys (object : Object) : List Nat := object.kids?.toList

namespace Scope

variable {s t : Scope} {name : String} {object : Object}

theorem mem_toList {p : String × Object} : p ∈ s.toList ↔ s[p.1]? = some p.2 :=
  Std.TreeMap.mem_toList_iff_getElem?_eq_some

theorem nodup_toList (s : Scope) : s.toList.Nodup :=
  Std.TreeMap.distinct_keys_toList.imp fun h heq => h (by rw [heq]; exact Std.ReflCmp.compare_self)

/-- The children of a list of objects. -/
theorem kidsKeys_eq_flatMap (s : Scope) : s.kidsKeys = s.toList.flatMap (·.2.keys) :=
  List.filterMap_eq_flatMap_toList _ _

theorem kidsKeys_perm_of_getElem?_eq (h : ∀ name : String, s[name]? = t[name]?) :
    s.kidsKeys.Perm t.kidsKeys := by
  refine List.Perm.filterMap _ ((List.perm_ext_iff_of_nodup s.nodup_toList t.nodup_toList).2 ?_)
  intro p
  rw [mem_toList, mem_toList, h]

/-- The children of an owner are those of one of its objects and those of the others. -/
theorem kidsKeys_perm_of_getElem?_eq_some (h : s[name]? = some object) :
    s.kidsKeys.Perm (object.keys ++ kidsKeys (s.erase name)) := by
  have hnodup : ((name, object) :: (s.erase name).toList).Nodup := by
    refine List.nodup_cons.2 ⟨fun hmem => ?_, nodup_toList _⟩
    simpa [Std.TreeMap.getElem?_erase] using mem_toList.1 hmem
  have hperm : s.toList.Perm ((name, object) :: (s.erase name).toList) := by
    refine (List.perm_ext_iff_of_nodup s.nodup_toList hnodup).2 fun p => ?_
    rw [mem_toList, List.mem_cons, mem_toList, Std.TreeMap.getElem?_erase]
    by_cases hname : p.1 = name
    · obtain ⟨_, object'⟩ := p
      obtain rfl : _ = name := hname
      simp [h, eq_comm]
    · have hne : compare name p.1 ≠ .eq := fun heq => hname (Std.LawfulEqCmp.eq_of_compare heq).symm
      simp [hne, Prod.ext_iff, hname]
  rw [kidsKeys_eq_flatMap, kidsKeys_eq_flatMap]
  exact hperm.flatMap_right _

theorem kidsKeys_erase_perm (h : s[name]? = none) : (kidsKeys (s.erase name)).Perm s.kidsKeys := by
  refine kidsKeys_perm_of_getElem?_eq fun other => ?_
  rw [Std.TreeMap.getElem?_erase]
  split
  · next heq => rw [← h, Std.LawfulEqCmp.eq_of_compare heq]
  · rfl

theorem kidsKeys_insert_perm (s : Scope) (name : String) (object : Object) :
    (kidsKeys (s.insert name object)).Perm (object.keys ++ kidsKeys (s.erase name)) := by
  have hself : (s.insert name object)[name]? = some object := Std.TreeMap.getElem?_insert_self
  refine (kidsKeys_perm_of_getElem?_eq_some hself).trans (.append_left _ ?_)
  refine kidsKeys_perm_of_getElem?_eq fun other => ?_
  rw [Std.TreeMap.getElem?_erase, Std.TreeMap.getElem?_erase, Std.TreeMap.getElem?_insert]
  split <;> rfl

/-- A PET starts with its own handle and with copies of what may be shared. -/
theorem getElem?_forPet (s : Scope) (h : VmHandle) (name : String) :
    (s.forPet h)[name]? =
      if name = "self" then some (.vm h) else s[name]?.filter Object.isShared := by
  rw [forPet, Std.TreeMap.getElem?_insert, Std.TreeMap.getElem?_filter']
  by_cases hname : name = "self"
  · rw [if_pos hname, if_pos (by rw [hname]; exact Std.ReflCmp.compare_self)]
  · rw [if_neg hname, if_neg fun heq => hname (Std.LawfulEqCmp.eq_of_compare heq).symm]

/-- A PET starts with no children. -/
theorem kidsKeys_forPet (s : Scope) (h : VmHandle) : (s.forPet h).kidsKeys = [] := by
  have hshared : ∀ p ∈ (s.forPet h).toList, p.2.keys = [] := by
    intro p hp
    rw [mem_toList, getElem?_forPet] at hp
    split at hp
    · rw [← Option.some.inj hp]
      rfl
    · have hshared := (Option.filter_eq_some_iff.1 hp).2
      cases h' : p.2 <;> simp_all [Object.isShared, Object.keys, Object.kids?]
  rw [kidsKeys_eq_flatMap, List.flatMap_eq_nil_iff]
  exact hshared

theorem kids?_eq_some_iff {key : Nat} : s.kids? name = some key ↔ s[name]? = some (.kids key) := by
  unfold kids?
  split <;> simp_all

/-- Plans are such as `build` makes. -/
theorem plan?_eq_some_iff {p : SpawnPlan} :
    s.plan? name = some p ↔ ∃ built, s[name]? = some (.plan p built) := by
  unfold plan?
  split
  · next p' built h =>
    constructor
    · rintro h'
      obtain rfl := Option.some.inj h'
      exact ⟨built, h⟩
    · rintro ⟨_, h'⟩
      rw [h] at h'
      simp only [Option.some.injEq, Object.plan.injEq] at h'
      rw [h']
  · next h => simpa using fun built => h p built

end Scope

/-! ### The table of launches -/

/-- The children that the PETs of a launch hold. -/
def Kids.keys (k : Kids) : List Nat := k.pets.flatMap (·.scope.kidsKeys)

/-- The contexts of the PETs of a launch. -/
def Kids.contexts (k : Kids) : List ExecutionContext := k.pets.map PetRun.context

/-- The children of a launch as they come into a world: their PETs, whose ids were given out since
`before`, hold no children and have done nothing. -/
structure Kids.Fresh (k : Kids) (before w : World) : Prop where
  slots : (k.spawned.children.map (·.partition.slot)).Nodup
  idle : k.keys = []
  turns : ∀ p ∈ k.pets, p.turns = []
  apart : k.contexts.Nodup
  begun : ∀ c ∈ k.contexts, c.Begun w.process.nextVm
  new : ∀ c ∈ k.contexts, ¬ c.Begun before.process.nextVm

namespace World

variable {w w' w'' : World} {key other : Nat} {k k' : Kids} {inner : Runner}
  {pets : List PetRun}

/-- The children that PETs hold while nobody runs them. -/
def petKeys (w : World) : List Nat := w.kids.flatMap (·.2.keys)

/-- The contexts of all PETs that are there. -/
def contexts (w : World) : List ExecutionContext := w.kids.flatMap (·.2.contexts)

theorem kids?_addKids (w : World) (k : Kids) (key : Nat) :
    (w.addKids k).2.kids? key = if key = w.nextKids then some k else w.kids? key := by
  show List.lookup key ((w.nextKids, k) :: w.kids) = _
  by_cases h : key = w.nextKids
  · simp [h]
  · simp [h, kids?, List.lookup_cons, beq_eq_false_iff_ne.2 h]

theorem kids?_setKids (w : World) (key other : Nat) (k : Kids) :
    (w.setKids key k).kids? other =
      if other = key then (w.kids? other).map fun _ => k else w.kids? other := by
  show List.lookup other (w.kids.map _) = _
  unfold kids?
  induction w.kids with
  | nil => simp
  | cons entry rest ih =>
    obtain ⟨i, old⟩ := entry
    by_cases hi : i = key <;> by_cases hother : other = i <;>
      simp_all [List.lookup_cons, beq_eq_false_iff_ne.2]

theorem kids?_removeKids (w : World) (key other : Nat) :
    (w.removeKids key).kids? other = if other = key then none else w.kids? other := by
  show List.lookup other (w.kids.filter _) = _
  unfold kids?
  induction w.kids with
  | nil => simp
  | cons entry rest ih =>
    obtain ⟨i, old⟩ := entry
    by_cases hi : i = key
    · rw [List.filter_cons_of_neg (by simpa using hi), ih]
      by_cases hother : other = key
      · simp [hother]
      · simp [hother, List.lookup_cons, hi ▸ beq_eq_false_iff_ne.2 hother]
    · rw [List.filter_cons_of_pos (by simpa using hi), List.lookup_cons, List.lookup_cons, ih]
      by_cases hother : other = key
      · simp [hother, beq_eq_false_iff_ne.2 (Ne.symm hi)]
      · simp [hother]

theorem kids?_of_removeKids (h : (w.removeKids key).kids? other = some k) :
    w.kids? other = some k := by
  rw [kids?_removeKids] at h
  split at h
  · cases h
  · exact h

theorem exists_of_kids?_setKids (h : (w.setKids key k).kids? other = some k') :
    (other = key ∧ k' = k) ∨ (other ≠ key ∧ w.kids? other = some k') := by
  rw [kids?_setKids] at h
  split at h
  · next heq =>
    obtain ⟨_, _, rfl⟩ := Option.map_eq_some_iff.1 h
    exact Or.inl ⟨heq, rfl⟩
  · next hne => exact Or.inr ⟨hne, h⟩

theorem mem_kids_of_kids? (h : w.kids? key = some k) : (key, k) ∈ w.kids := by
  obtain ⟨before, after, hsplit, _⟩ := List.lookup_eq_some_iff.1 h
  rw [hsplit]
  exact List.mem_append_right before List.mem_cons_self

theorem isSome_kids?_iff : (w.kids? key).isSome ↔ key ∈ w.kids.map Prod.fst := by
  simp [kids?]

theorem isSome_kids?_setKids (w : World) (key other : Nat) (k : Kids) :
    ((w.setKids key k).kids? other).isSome = (w.kids? other).isSome := by
  rw [kids?_setKids]
  split <;> simp

/-! ### What is never taken back -/

/-- Registries are numbered from one. -/
def Numbered (w : World) : Prop := ∀ i r, w.registries[i]? = some r → r.id = i + 1

/-- The contexts that were let into their entries are of VMs whose ids were given out. -/
def Begun (w : World) : Prop := ∀ c ∈ w.process.entered, c.Begun w.process.nextVm

/-- A VM is no live child of a registry. -/
def Gone (w : World) (registry vm : Nat) : Prop :=
  ∃ s, w.site? registry = some s ∧ s.registry.child? vm = none

theorem gone_iff {registry vm : Nat} : w.Gone registry vm ↔
    ∃ r, w.registries[registry - 1]? = some r ∧ r.child? vm = none := by
  simp [Gone, site?]

/-- The process and the registries at some later time. -/
structure Advances (w w' : World) : Prop where
  ids : w.process.nextVm ≤ w'.process.nextVm
  sites : ∀ id, (w.site? id).isSome → (w'.site? id).isSome
  numbered : w.Numbered → w'.Numbered
  begun : w.Begun → w'.Begun
  counted : ∀ c : ExecutionContext, c.Begun w.process.nextVm →
    w'.process.entered.count c = w.process.entered.count c
  gone : ∀ registry vm, vm < w.process.nextVm → w.Gone registry vm → w'.Gone registry vm

namespace Advances

theorem refl (w : World) : w.Advances w :=
  ⟨Nat.le_refl _, fun _ h => h, fun h => h, fun h => h, fun _ _ => rfl, fun _ _ _ h => h⟩

theorem trans (h : w.Advances w') (h' : w'.Advances w'') : w.Advances w'' where
  ids := Nat.le_trans h.ids h'.ids
  sites id := h'.sites id ∘ h.sites id
  numbered := h'.numbered ∘ h.numbered
  begun := h'.begun ∘ h.begun
  counted c hc := (h'.counted c (hc.mono h.ids)).trans (h.counted c hc)
  gone registry vm hvm := h'.gone registry vm (Nat.lt_of_lt_of_le hvm h.ids) ∘
    h.gone registry vm hvm

/-- What concerns neither ids nor entries nor registries. -/
theorem of_registries_eq (ids : w'.process.nextVm = w.process.nextVm)
    (entered : w'.process.entered = w.process.entered)
    (registries : w'.registries = w.registries) : w.Advances w' where
  ids := Nat.le_of_eq ids.symm
  sites id h := by simpa [site?, registries] using h
  numbered h := by simpa only [Numbered, registries] using h
  begun h := by simpa only [Begun, ids, entered] using h
  counted _ _ := by rw [entered]
  gone registry vm _ h := by rwa [gone_iff, registries, ← gone_iff]

end Advances

/-- The world once a registry and the process have become those of `s`. -/
def withSite (w : World) (id : Nat) (s : Site Network) : World :=
  { w with
    process := s.toProcess
    registries := w.registries.setIfInBounds (id - 1) s.registry }

theorem onSite_eq_of_site?_eq_some {α : Type} {id : Nat} {s : Site Network} (default : α)
    (act : Site Network → α × Site Network) (hs : w.site? id = some s) :
    w.onSite id default act = ((act s).1, w.withSite id (act s).2) := by
  rw [onSite, hs]
  rfl

/-- The registries afterwards: the one that has changed, and the others as before. -/
theorem getElem?_withSite {id : Nat} {s : Site Network} (hs : w.site? id = some s)
    (s' : Site Network) (i : Nat) : (w.withSite id s').registries[i]? =
      if id - 1 = i then some s'.registry else w.registries[i]? := by
  obtain ⟨r, hr, _⟩ := Option.map_eq_some_iff.1 hs
  obtain ⟨hlt, _⟩ := Array.getElem?_eq_some_iff.1 hr
  rw [withSite, Array.getElem?_setIfInBounds]
  split <;> simp_all

/-- What takes nothing back on a registry takes nothing back in the world. -/
theorem advances_withSite {id : Nat} {s s' : Site Network} (hs : w.site? id = some s)
    (h : s.Advances s') : w.Advances (w.withSite id s') := by
  have hget := getElem?_withSite hs s'
  obtain ⟨r, hr, rfl⟩ := Option.map_eq_some_iff.1 hs
  refine
    { ids := h.ids, sites := ?_, numbered := ?_, begun := h.begun, counted := h.counted, gone := ?_ }
  · intro other hother
    simp only [site?, Option.isSome_map, hget] at hother ⊢
    split
    · rfl
    · exact hother
  · intro hnumbered i r' hr'
    rw [hget] at hr'
    split at hr'
    · next heq =>
      obtain rfl := Option.some.inj hr'
      exact h.id.trans (hnumbered i r (heq ▸ hr))
    · exact hnumbered i r' hr'
  · intro registry vm hvm hgone
    obtain ⟨r', hr', hnone⟩ := gone_iff.1 hgone
    by_cases heq : id - 1 = registry - 1
    · obtain rfl : r' = r := Option.some.inj (hr'.symm.trans (heq ▸ hr))
      exact gone_iff.2 ⟨_, (hget _).trans (if_pos heq), h.gone vm hvm hnone⟩
    · exact gone_iff.2 ⟨r', ((hget _).trans (if_neg heq)).trans hr', hnone⟩

theorem advances_addRegistry (w : World) (config : DiscoveryConfig) (key : Nat) :
    w.Advances (w.addRegistry config key).2 := by
  have hget : ∀ (i : Nat) r, w.registries[i]? = some r →
      (w.addRegistry config key).2.registries[i]? = some r := by
    intro i r hr
    obtain ⟨hlt, rfl⟩ := Array.getElem?_eq_some_iff.1 hr
    exact Array.getElem?_push_lt hlt
  refine
    { ids := Nat.le_refl _, sites := ?_, numbered := ?_, begun := fun h => h
      counted := fun _ _ => rfl, gone := ?_ }
  · intro id hid
    obtain ⟨s, hs⟩ := Option.isSome_iff_exists.1 hid
    obtain ⟨r, hr, rfl⟩ := Option.map_eq_some_iff.1 hs
    rw [site?, hget _ r hr]
    rfl
  · intro hnumbered i r hr
    simp only [addRegistry, Array.getElem?_push] at hr
    split at hr
    · next heq =>
      obtain rfl := Option.some.inj hr
      rw [heq]
    · exact hnumbered i r hr
  · intro registry vm _ hgone
    obtain ⟨r, hr, hnone⟩ := gone_iff.1 hgone
    exact gone_iff.2 ⟨r, hget _ r hr, hnone⟩

/-! ### What leaves all children alone -/

/-- Something happened that has to do with no children of a launch. -/
structure Quiet (w w' : World) : Prop extends Advances w w' where
  kids : w'.kids = w.kids
  nextKids : w'.nextKids = w.nextKids
  trail : w'.trail = w.trail

namespace Quiet

theorem refl (w : World) : w.Quiet w := ⟨.refl w, rfl, rfl, rfl⟩

theorem trans (h : w.Quiet w') (h' : w'.Quiet w'') : w.Quiet w'' :=
  ⟨h.toAdvances.trans h'.toAdvances, h'.kids.trans h.kids, h'.nextKids.trans h.nextKids,
    h'.trail.trans h.trail⟩

theorem kids?_eq (h : w.Quiet w') (key : Nat) : w'.kids? key = w.kids? key := by
  rw [kids?, kids?, h.kids]

theorem contexts_eq (h : w.Quiet w') : w'.contexts = w.contexts := by
  rw [contexts, contexts, h.kids]

theorem turnsOf_eq (h : w.Quiet w') (c : ExecutionContext) : w'.turnsOf c = w.turnsOf c := by
  rw [turnsOf, turnsOf, h.trail]

end Quiet

theorem quiet_withSite {id : Nat} {s s' : Site Network} (hs : w.site? id = some s)
    (h : s.Advances s') : w.Quiet (w.withSite id s') := ⟨advances_withSite hs h, rfl, rfl, rfl⟩

theorem quiet_onSite {α : Type} (w : World) (id : Nat) (default : α)
    (act : Site Network → α × Site Network) (h : ∀ s : Site Network, s.Advances (act s).2) :
    w.Quiet (w.onSite id default act).2 := by
  cases hs : w.site? id with
  | none =>
    rw [onSite, hs]
    exact .refl w
  | some s =>
    rw [onSite_eq_of_site?_eq_some default act hs]
    exact quiet_withSite hs (h s)

theorem quiet_addRegistry (w : World) (config : DiscoveryConfig) (key : Nat) :
    w.Quiet (w.addRegistry config key).2 := ⟨w.advances_addRegistry config key, rfl, rfl, rfl⟩

theorem quiet_net (w : World) (net : Network) :
    w.Quiet { w with process.net := net } := ⟨.of_registries_eq rfl rfl rfl, rfl, rfl, rfl⟩

theorem quiet_forget (w : World) (c : ExecutionContext) : w.Quiet (w.forget c) :=
  ⟨.of_registries_eq rfl rfl rfl, rfl, rfl, rfl⟩

theorem quiet_nextThread (w : World) (nextThread : Nat) : w.Quiet { w with nextThread } :=
  ⟨.of_registries_eq rfl rfl rfl, rfl, rfl, rfl⟩

theorem quiet_foldl {α β : Type} {step : α × World → β → α × World}
    (h : ∀ (acc : α × World) b, acc.2.Quiet (step acc b).2) (items : List β) (acc : α × World) :
    acc.2.Quiet (items.foldl step acc).2 := by
  induction items generalizing acc with
  | nil => exact .refl acc.2
  | cons b items ih => exact (h acc b).trans (ih _)

/-! ### The parts of the table -/

/-- The launches of a table are one and the others. -/
theorem flatMap_kids_perm {α : Type} (part : Kids → List α) (unique : (w.kids.map Prod.fst).Nodup)
    (h : w.kids? key = some k) : (w.kids.flatMap fun entry => part entry.2).Perm
      (part k ++ (w.removeKids key).kids.flatMap fun entry => part entry.2) := by
  obtain ⟨before, after, hsplit, _⟩ := List.lookup_eq_some_iff.1 h
  have hrest : (w.removeKids key).kids = before ++ after := by
    rw [hsplit] at unique
    exact (congrArg (List.filter _) hsplit).trans (filter_key_ne_of_split unique)
  rw [hsplit, hrest, List.flatMap_append, List.flatMap_cons, List.flatMap_append]
  exact List.perm_append_comm_assoc _ _ _

theorem petKeys_perm (unique : (w.kids.map Prod.fst).Nodup) (h : w.kids? key = some k) :
    w.petKeys.Perm (k.keys ++ (w.removeKids key).petKeys) := flatMap_kids_perm Kids.keys unique h

theorem contexts_perm (unique : (w.kids.map Prod.fst).Nodup) (h : w.kids? key = some k) :
    w.contexts.Perm (k.contexts ++ (w.removeKids key).contexts) :=
  flatMap_kids_perm Kids.contexts unique h

theorem map_fst_setKids (w : World) (key : Nat) (k : Kids) :
    (w.setKids key k).kids.map Prod.fst = w.kids.map Prod.fst := by
  rw [setKids, List.map_map]
  refine List.map_congr_left fun entry _ => ?_
  simp only [Function.comp_apply]
  split <;> rfl

theorem map_fst_removeKids (w : World) (key : Nat) :
    (w.removeKids key).kids.map Prod.fst = (w.kids.map Prod.fst).filter (· != key) := by
  rw [removeKids, List.filter_map]
  rfl

theorem removeKids_setKids (w : World) (key : Nat) (k : Kids) :
    ((w.setKids key k).removeKids key).kids = (w.removeKids key).kids := by
  simp only [removeKids, setKids]
  induction w.kids with
  | nil => rfl
  | cons entry rest ih => by_cases hi : entry.1 = key <;> simp [hi, ih]

/-- A launch whose PETs stay who they are changes no contexts. -/
theorem contexts_setKids_perm (unique : (w.kids.map Prod.fst).Nodup) (h : w.kids? key = some k)
    (contexts : k'.contexts = k.contexts) : (w.setKids key k').contexts.Perm w.contexts := by
  have hself : (w.setKids key k').kids? key = some k' := by
    rw [kids?_setKids, if_pos rfl, h]
    rfl
  have hperm := contexts_perm (map_fst_setKids w key k' ▸ unique) hself
  have hrest : ((w.setKids key k').removeKids key).contexts = (w.removeKids key).contexts :=
    congrArg (List.flatMap fun entry : Nat × Kids => entry.2.contexts) (removeKids_setKids w key k')
  rw [hrest, contexts] at hperm
  exact hperm.trans (contexts_perm unique h).symm

theorem contexts_removeKids_subset (w : World) (key : Nat) :
    (w.removeKids key).contexts ⊆ w.contexts := fun c hc => by
  obtain ⟨entry, hentry, hc⟩ := List.mem_flatMap.1 hc
  exact List.mem_flatMap.2 ⟨entry, (List.mem_filter.1 hentry).1, hc⟩

/-- No PET is a PET of two launches. -/
theorem notMem_contexts_removeKids (unique : (w.kids.map Prod.fst).Nodup)
    (apart : w.contexts.Nodup) (h : w.kids? key = some k) {c : ExecutionContext}
    (hc : c ∈ k.contexts) : c ∉ (w.removeKids key).contexts := fun hmem =>
  (List.nodup_append.1 ((contexts_perm unique h).nodup_iff.1 apart)).2.2 c hc c hmem rfl

theorem mem_contexts (h : w.kids? key = some k) {c : ExecutionContext} (hc : c ∈ k.contexts) :
    c ∈ w.contexts :=
  List.mem_flatMap.2 ⟨(key, k), mem_kids_of_kids? h, hc⟩

/-! ### What PETs have done -/

theorem turnsOf_record (w : World) (pets : List PetRun) (c : ExecutionContext) :
    (w.record pets).turnsOf c =
      w.turnsOf c ++ (pets.flatMap PetRun.turns).filter (·.frame.context = c) :=
  List.filter_append ..

theorem turnsOf_record_of_notMem {pets : List PetRun} {c : ExecutionContext}
    (own : ∀ p ∈ pets, ∀ t ∈ p.turns, t.frame.context = p.context)
    (hc : c ∉ pets.map PetRun.context) : (w.record pets).turnsOf c = w.turnsOf c := by
  rw [turnsOf_record, List.filter_eq_nil_iff.2, List.append_nil]
  intro t ht heq
  obtain ⟨p, hp, ht⟩ := List.mem_flatMap.1 ht
  exact hc (List.mem_map.2 ⟨p, hp, (own p hp t ht).symm.trans (of_decide_eq_true heq)⟩)

/-- What is noted of a PET of several is what it has done. -/
theorem filter_turns {pets : List PetRun} {p : PetRun}
    (own : ∀ p ∈ pets, ∀ t ∈ p.turns, t.frame.context = p.context)
    (apart : (pets.map PetRun.context).Nodup) (hp : p ∈ pets) :
    (pets.flatMap PetRun.turns).filter (·.frame.context = p.context) = p.turns := by
  induction pets with
  | nil => cases hp
  | cons q pets ih =>
    obtain ⟨hq, hrest⟩ := List.nodup_cons.1 apart
    obtain ⟨hown, howns⟩ := List.forall_mem_cons.1 own
    rw [List.flatMap_cons, List.filter_append]
    rcases List.mem_cons.1 hp with rfl | hp
    · rw [List.filter_eq_self.2 fun t ht => decide_eq_true (hown t ht), List.filter_eq_nil_iff.2,
        List.append_nil]
      intro t ht heq
      obtain ⟨q, hmem, ht⟩ := List.mem_flatMap.1 ht
      exact hq (List.mem_map.2 ⟨q, hmem, (howns q hmem t ht).symm.trans (of_decide_eq_true heq)⟩)
    · rw [List.filter_eq_nil_iff.2, List.nil_append, ih howns hrest hp]
      intro t ht heq
      exact hq (List.mem_map.2 ⟨p, hp, (of_decide_eq_true heq).symm.trans (hown t ht)⟩)

/-- The PETs that are there have contexts of their own, and of each it is noted what it has done:
nothing until its entry is run. -/
structure Recorded (w : World) : Prop where
  apart : w.contexts.Nodup
  begun : ∀ c ∈ w.contexts, c.Begun w.process.nextVm
  noted : ∀ t ∈ w.trail, t.frame.context.Begun w.process.nextVm
  turns : ∀ key k, w.kids? key = some k → ∀ p ∈ k.pets, w.turnsOf p.context = p.turns
  idle : ∀ key k, w.kids? key = some k → k.released = false → ∀ p ∈ k.pets, p.turns = []

namespace Recorded

theorem quiet (h : w.Recorded) (hw : w.Quiet w') : w'.Recorded where
  apart := hw.contexts_eq ▸ h.apart
  begun c hc := (h.begun c (hw.contexts_eq ▸ hc)).mono hw.ids
  noted t ht := (h.noted t (hw.trail ▸ ht)).mono hw.ids
  turns key k hk p hp := (hw.turnsOf_eq _).trans (h.turns key k (hw.kids?_eq key ▸ hk) p hp)
  idle key k hk := h.idle key k (hw.kids?_eq key ▸ hk)

theorem turnsOf_eq_nil (h : w.Recorded) {c : ExecutionContext}
    (hc : ¬ c.Begun w.process.nextVm) : w.turnsOf c = [] := by
  refine List.filter_eq_nil_iff.2 fun t ht heq => hc ?_
  rw [← of_decide_eq_true heq]
  exact h.noted t ht

/-- A launch comes along. -/
theorem addKids (h : w.Recorded) (hw : w.Quiet w') (hk : k.Fresh w w') :
    (w'.addKids k).2.Recorded := by
  have h' := h.quiet hw
  refine
    { apart := ?_, begun := ?_, noted := h'.noted, turns := ?_, idle := ?_ }
  · refine List.nodup_append.2 ⟨hk.apart, h'.apart, fun c hc c' hc' heq => hk.new c hc ?_⟩
    exact h.begun c (hw.contexts_eq ▸ heq ▸ hc')
  · intro c hc
    rcases List.mem_append.1 hc with hc | hc
    · exact hk.begun c hc
    · exact h'.begun c hc
  · intro key k' hk' p hp
    rw [kids?_addKids] at hk'
    split at hk'
    · obtain rfl := Option.some.inj hk'
      rw [hk.turns p hp]
      exact (hw.turnsOf_eq _).trans (h.turnsOf_eq_nil (hk.new _ (List.mem_map_of_mem hp)))
    · exact h'.turns key k' hk' p hp
  · intro key k' hk'
    rw [kids?_addKids] at hk'
    split at hk'
    · obtain rfl := Option.some.inj hk'
      exact fun _ => hk.turns
    · exact h'.idle key k' hk'

theorem removeKids (h : w.Recorded) (key : Nat) : (w.removeKids key).Recorded where
  apart := (List.filter_sublist.flatMap _).nodup h.apart
  begun c hc := h.begun c (w.contexts_removeKids_subset key hc)
  noted := h.noted
  turns other k hk := h.turns other k (kids?_of_removeKids hk)
  idle other k hk := h.idle other k (kids?_of_removeKids hk)

/-- PETs have run their entries, and it is noted what they have done. -/
theorem setKids (h : w.Recorded) (unique : (w.kids.map Prod.fst).Nodup)
    (hk : w.kids? key = some k) (unreleased : k.released = false)
    (ran : List.Forall₂ (inner.Ran k.cargo k.entry) k.pets pets) :
    ((w.setKids key { k with pets, released := true }).record pets).Recorded := by
  have hcontexts : pets.map PetRun.context = k.contexts := Runner.Ran.contexts_eq ran
  have hown := Runner.Ran.own_of_forall₂ ran (h.idle key k hk unreleased)
  have hmem : ∀ p ∈ pets, p.context ∈ k.contexts := fun p hp =>
    hcontexts ▸ List.mem_map_of_mem hp
  have hnodup := (List.nodup_append.1 ((contexts_perm unique hk).nodup_iff.1 h.apart)).1
  have hperm : (w.setKids key { k with pets, released := true }).contexts.Perm w.contexts :=
    contexts_setKids_perm unique hk hcontexts
  have hkids : ∀ {other k'}, ((w.setKids key { k with pets, released := true }).record pets).kids?
      other = some k' → (other = key ∧ k' = { k with pets, released := true }) ∨
        (other ≠ key ∧ w.kids? other = some k') := exists_of_kids?_setKids
  refine
    { apart := hperm.nodup_iff.2 h.apart
      begun := fun c hc => h.begun c (hperm.mem_iff.1 hc), noted := ?_, turns := ?_, idle := ?_ }
  · intro t ht
    rcases List.mem_append.1 ht with ht | ht
    · exact h.noted t ht
    · obtain ⟨p, hp, ht⟩ := List.mem_flatMap.1 ht
      rw [hown p hp t ht]
      exact h.begun _ (mem_contexts hk (hmem p hp))
  · intro other k' hk' p hp
    rcases hkids hk' with ⟨_, rfl⟩ | ⟨hne, hk'⟩
    · -- Nothing was noted of these PETs before.
      obtain ⟨q, hq, heq⟩ := List.mem_map.1 (hmem p hp)
      rw [turnsOf_record, filter_turns hown (hcontexts ▸ hnodup) hp]
      show w.turnsOf p.context ++ p.turns = p.turns
      rw [← heq, h.turns key k hk q hq, h.idle key k hk unreleased q hq, List.nil_append]
    · rw [turnsOf_record_of_notMem hown]
      · exact h.turns other k' hk' p hp
      · -- The PETs of other launches have other contexts.
        intro hpet
        have hrest : (w.removeKids key).kids? other = some k' := by
          rw [kids?_removeKids, if_neg hne, hk']
        exact notMem_contexts_removeKids unique h.apart hk (hcontexts ▸ hpet)
          (mem_contexts hrest (List.mem_map_of_mem hp))
  · intro other k' hk'
    rcases hkids hk' with ⟨_, rfl⟩ | ⟨_, hk'⟩
    · exact nofun
    · exact h.idle other k' hk'

end Recorded

end World

end VirtualTopology.Session
