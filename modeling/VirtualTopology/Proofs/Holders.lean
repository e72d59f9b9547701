import VirtualTopology.Proofs.Records

/-!
# Who holds children

The children of a launch have one holder: an owner has them among its objects, or a PET that has
ended left them behind. Nobody else can run their entries, end them or hand them on, so that whatever
others do, their holder finds them as it left them.

## Main definitions

- `World.Orderly`: no two hold the same children, and what is held is there.
- `World.Turns`: what those who held some children, and now hold others, may have done.
- `World.Past`: what a PET has done whose launch is no longer there.

## Main statements

- `World.Turns.trans`, `World.Turns.frame`: one thing after the other, and beside what others hold.
- `World.Turns.addKids`, `World.Turns.removeKids`, `World.Turned.setKids`: launches come, are
  forgotten, and have their entries run.
- `World.Past.mono`: whatever others do.
-/

namespace VirtualTopology.Session

namespace World

variable {w w' w'' : World} {key : Nat} {k : Kids} {held pre mid post F : List Nat} {enough : Nat}
  {inner : Runner} {pets : List PetRun}

/-! ### Who holds what -/

/-- Children in order: what is held, by the owners that `held` tells or by PETs, is held once and is
there. A launch whose entries were not run has PETs without children of their own. -/
structure Orderly (held : List Nat) (w : World) : Prop where
  apart : (held ++ w.petKeys).Nodup
  there : ∀ key ∈ held ++ w.petKeys, (w.kids? key).isSome
  unique : (w.kids.map Prod.fst).Nodup
  fresh : ∀ key, (w.kids? key).isSome → key < w.nextKids
  idle : ∀ key k, w.kids? key = some k → k.released = false → k.keys = []
  slots : ∀ key k, w.kids? key = some k → (k.spawned.children.map (·.partition.slot)).Nodup
  recorded : w.Recorded
  numbered : w.Numbered
  begun : w.Begun

namespace Orderly

theorem perm (h : w.Orderly held) (hperm : held.Perm pre) : w.Orderly pre where
  apart := (hperm.append_right _).nodup_iff.1 h.apart
  there key hkey := h.there key ((hperm.append_right _).mem_iff.2 hkey)
  unique := h.unique
  fresh := h.fresh
  idle := h.idle
  slots := h.slots
  recorded := h.recorded
  numbered := h.numbered
  begun := h.begun

theorem isSome_of_mem (h : w.Orderly held) (hkey : key ∈ held) : (w.kids? key).isSome :=
  h.there key (List.mem_append_left _ hkey)

theorem lt_of_mem (h : w.Orderly held) (hkey : key ∈ held) : key < w.nextKids :=
  h.fresh key (h.isSome_of_mem hkey)

/-- Nothing that is held is disturbed. -/
theorem quiet (h : w.Orderly held) (hw : w.Quiet w') : w'.Orderly held where
  apart := by simpa only [petKeys, hw.kids] using h.apart
  there := by simpa only [petKeys, kids?, hw.kids] using h.there
  unique := by simpa only [hw.kids] using h.unique
  fresh := by simpa only [kids?, hw.kids, hw.nextKids] using h.fresh
  idle := by simpa only [kids?, hw.kids] using h.idle
  slots := by simpa only [kids?, hw.kids] using h.slots
  recorded := h.recorded.quiet hw
  numbered := hw.numbered h.numbered
  begun := hw.begun h.begun

/-- A launch comes along and is held. -/
theorem addKids (h : w.Orderly held) (hw : w.Quiet w') (hk : k.Fresh w w') :
    (w'.addKids k).2.Orderly (w'.nextKids :: held) := by
  have h' := h.quiet hw
  have hpet : (w'.addKids k).2.petKeys = w'.petKeys := by
    show k.keys ++ w'.petKeys = w'.petKeys
    rw [hk.idle, List.nil_append]
  have hnew : ∀ {key}, (w'.kids? key).isSome → key ≠ w'.nextKids := fun hkey =>
    Nat.ne_of_lt (h'.fresh _ hkey)
  refine
    { apart := ?_, there := ?_, unique := ?_, fresh := ?_, idle := ?_, slots := ?_
      recorded := h.recorded.addKids hw hk, numbered := h'.numbered, begun := h'.begun }
  · rw [hpet]
    exact List.nodup_cons.2 ⟨fun hmem => hnew (h'.there _ hmem) rfl, h'.apart⟩
  · intro key hkey
    rw [hpet] at hkey
    rw [kids?_addKids]
    split
    · rfl
    · next hne => exact h'.there key ((List.mem_cons.1 hkey).resolve_left hne)
  · exact List.nodup_cons.2 ⟨fun hmem => hnew (isSome_kids?_iff.2 hmem) rfl, h'.unique⟩
  · intro key hkey
    rw [kids?_addKids] at hkey
    show key < w'.nextKids + 1
    split at hkey
    · omega
    · exact Nat.lt_succ_of_lt (h'.fresh key hkey)
  · intro key k' hk'
    rw [kids?_addKids] at hk'
    split at hk'
    · obtain rfl := Option.some.inj hk'
      exact fun _ => hk.idle
    · exact h'.idle key k' hk'
  · intro key k' hk'
    rw [kids?_addKids] at hk'
    split at hk'
    · obtain rfl := Option.some.inj hk'
      exact hk.slots
    · exact h'.slots key k' hk'

/-- A launch is forgotten, and what its PETs held may be held by others. -/
theorem removeKids {rest : List Nat} (h : w.Orderly (key :: held)) (hk : w.kids? key = some k)
    (hkeys : (pre ++ rest).Perm k.keys) : (w.removeKids key).Orderly (pre ++ held) := by
  -- Before, there are the launch, what its PETs held, and what others hold.
  have hbefore : (key :: (held ++ w.petKeys)).Perm
      (key :: (pre ++ held ++ (w.removeKids key).petKeys ++ rest)) := by
    refine .cons _ (((petKeys_perm h.unique hk).append_left held).trans ?_)
    refine ((hkeys.symm.append_right _).append_left held).trans ?_
    simp only [List.append_assoc]
    exact (List.perm_append_comm_assoc _ _ _).trans
      ((List.perm_append_comm.append_left _).append_left _)
  obtain ⟨hkey, hnodup⟩ := List.nodup_cons.1 (hbefore.nodup_iff.1 h.apart)
  refine
    { apart := (List.sublist_append_left _ rest).nodup hnodup, there := ?_, unique := ?_, fresh := ?_
      idle := fun _ _ hk' => h.idle _ _ (kids?_of_removeKids hk')
      slots := fun _ _ hk' => h.slots _ _ (kids?_of_removeKids hk')
      recorded := h.recorded.removeKids key, numbered := h.numbered, begun := h.begun }
  · intro other hother
    have hmem := List.mem_append_left rest hother
    rw [kids?_removeKids, if_neg fun heq : other = key => hkey (heq ▸ hmem)]
    exact h.there other (hbefore.mem_iff.2 (List.mem_cons_of_mem _ hmem))
  · rw [map_fst_removeKids]
    exact h.unique.filter _
  · intro other hother
    obtain ⟨k', hk'⟩ := Option.isSome_iff_exists.1 hother
    exact h.fresh other (Option.isSome_iff_exists.2 ⟨k', kids?_of_removeKids hk'⟩)

/-- The entries of a launch are run, and what its PETs hold then goes with them. -/
theorem setKids (h : w.Orderly (pets.flatMap (·.scope.kidsKeys) ++ key :: held))
    (hk : w.kids? key = some k) (unreleased : k.released = false)
    (ran : List.Forall₂ (inner.Ran k.cargo k.entry) k.pets pets) :
    ((w.setKids key { k with pets, released := true }).record pets).Orderly (key :: held) := by
  have hrecorded := h.recorded.setKids h.unique hk unreleased ran
  have hidle := h.idle key k hk unreleased
  generalize hk' : { k with pets, released := true : Kids } = k' at hrecorded ⊢
  have hself : (w.setKids key k').kids? key = some k' := by
    rw [kids?_setKids, if_pos rfl, hk]
    rfl
  have hunique : ((w.setKids key k').kids.map Prod.fst).Nodup := by
    rw [map_fst_setKids]
    exact h.unique
  have hperm : (pets.flatMap (·.scope.kidsKeys) ++ key :: held ++ w.petKeys).Perm
      (key :: held ++ (w.setKids key k').petKeys) := by
    have hold := petKeys_perm h.unique hk
    have hnew := petKeys_perm hunique hself
    have hrest : ((w.setKids key k').removeKids key).petKeys = (w.removeKids key).petKeys :=
      congrArg (List.flatMap fun entry : Nat × Kids => entry.2.keys) (removeKids_setKids w key k')
    rw [hidle, List.nil_append] at hold
    rw [hrest, show k'.keys = pets.flatMap (·.scope.kidsKeys) by rw [← hk', Kids.keys]] at hnew
    refine (hold.append_left _).trans (.trans ?_ (hnew.symm.append_left _))
    rw [List.append_assoc]
    exact List.perm_append_comm_assoc _ _ _
  have hkids : ∀ {other k''}, ((w.setKids key k').record pets).kids? other = some k'' →
      (other = key ∧ k'' = k') ∨ (other ≠ key ∧ w.kids? other = some k'') := exists_of_kids?_setKids
  have hsome : ∀ other, (((w.setKids key k').record pets).kids? other).isSome =
      (w.kids? other).isSome := fun other => isSome_kids?_setKids w key other k'
  refine
    { apart := hperm.nodup_iff.1 h.apart, there := ?_, unique := hunique, fresh := ?_, idle := ?_
      slots := ?_, recorded := hrecorded, numbered := h.numbered, begun := h.begun }
  · intro other hother
    rw [hsome]
    exact h.there other (hperm.mem_iff.2 hother)
  · intro other hother
    rw [hsome] at hother
    exact h.fresh other hother
  · intro other k'' hk'' hrest
    rcases hkids hk'' with ⟨_, rfl⟩ | ⟨_, hk''⟩
    · rw [← hk'] at hrest
      cases hrest
    · exact h.idle other k'' hk'' hrest
  · intro other k'' hk''
    rcases hkids hk'' with ⟨_, rfl⟩ | ⟨_, hk''⟩
    · rw [← hk']
      exact h.slots key k hk
    · exact h.slots other k'' hk''

end Orderly

/-! ### Turns -/

/-- What those who held `pre` and now hold `post` have done to a world in which others hold `F`. -/
structure Turned (enough : Nat) (pre post F : List Nat) (w w' : World) : Prop where
  orderly : w'.Orderly (post ++ F)
  advances : w.Advances w'
  nextKids : w.nextKids ≤ w'.nextKids
  /-- Children that are no longer there do not come back. -/
  spent : ∀ key < w.nextKids, w.kids? key = none → w'.kids? key = none
  others : ∀ key ∈ F, w'.kids? key = w.kids? key
  /-- PETs whose launch is no longer there do nothing more. -/
  past : ∀ c : ExecutionContext, c.Begun w.process.nextVm → c ∉ w.contexts →
    c ∉ w'.contexts ∧ w'.turnsOf c = w.turnsOf c
  /-- Children are ended, or are still held and have become what they may. -/
  own : ∀ key ∈ pre, w'.kids? key = none ∨ key ∈ post ∧ ∃ k k',
    w.kids? key = some k ∧ w'.kids? key = some k' ∧ k.Becomes enough k'

/-- A PET of a launch that is no longer there has done what it has done. -/
structure Past (p : PetRun) (w : World) : Prop where
  begun : p.context.Begun w.process.nextVm
  gone : p.context ∉ w.contexts
  turns : w.turnsOf p.context = p.turns

theorem Past.mono {p : PetRun} (hp : Past p w) (h : Turned enough pre post F w w') : Past p w' where
  begun := hp.begun.mono h.advances.ids
  gone := (h.past p.context hp.begun hp.gone).1
  turns := (h.past p.context hp.begun hp.gone).2.trans hp.turns

/-- Once a launch is forgotten nothing more comes of its PETs. -/
theorem Orderly.past (h : w.Orderly held) (hk : w.kids? key = some k) {p : PetRun}
    (hp : p ∈ k.pets) : Past p (w.removeKids key) where
  begun := h.recorded.begun _ (mem_contexts hk (List.mem_map_of_mem hp))
  gone := notMem_contexts_removeKids h.unique h.recorded.apart hk (List.mem_map_of_mem hp)
  turns := h.recorded.turns key k hk p hp

theorem Past.quiet {p : PetRun} (hp : Past p w) (hw : w.Quiet w') : Past p w' where
  begun := hp.begun.mono hw.ids
  gone := hw.contexts_eq ▸ hp.gone
  turns := (hw.turnsOf_eq _).trans hp.turns

/-- Those who hold `pre` do something that comes to the same whatever others hold. -/
def Turns (enough : Nat) (pre post : List Nat) (w w' : World) : Prop :=
  ∀ F, w.Orderly (pre ++ F) → Turned enough pre post F w w'

namespace Turns

theorem of_quiet (hw : w.Quiet w') : Turns enough pre pre w w' := fun F h =>
  { orderly := h.quiet hw
    advances := hw.toAdvances
    nextKids := Nat.le_of_eq hw.nextKids.symm
    spent := fun key _ hnone => (hw.kids?_eq key).trans hnone
    others := fun key _ => hw.kids?_eq key
    past := fun c _ hc => ⟨hw.contexts_eq ▸ hc, hw.turnsOf_eq c⟩
    own := fun key hkey => by
      obtain ⟨k, hk⟩ := Option.isSome_iff_exists.1
        (h.isSome_of_mem (List.mem_append_left F hkey))
      exact Or.inr ⟨hkey, k, k, hk, (hw.kids?_eq key).trans hk, .rest⟩ }

theorem refl (w : World) : Turns enough pre pre w w := of_quiet (.refl w)

/-- One thing after the other. -/
theorem trans (h : Turns enough pre mid w w') (h' : Turns enough mid post w' w'') :
    Turns enough pre post w w'' := fun F hw => by
  have h := h F hw
  have h' := h' F h.orderly
  have hspent : ∀ key < w.nextKids, w'.kids? key = none → w''.kids? key = none :=
    fun key hlt => h'.spent key (Nat.lt_of_lt_of_le hlt h.nextKids)
  refine
    { orderly := h'.orderly
      advances := h.advances.trans h'.advances
      nextKids := Nat.le_trans h.nextKids h'.nextKids
      spent := fun key hlt hnone => hspent key hlt (h.spent key hlt hnone)
      others := fun key hkey => (h'.others key hkey).trans (h.others key hkey)
      past := fun c hbegun hc => by
        obtain ⟨hc', hturns⟩ := h.past c hbegun hc
        obtain ⟨hc'', hturns'⟩ := h'.past c (hbegun.mono h.advances.ids) hc'
        exact ⟨hc'', hturns'.trans hturns⟩
      own := fun key hkey => ?_ }
  rcases h.own key hkey with hnone | ⟨hmid, k, k₁, hk, hk₁, hbecomes⟩
  · exact Or.inl (hspent key (hw.lt_of_mem (List.mem_append_left F hkey)) hnone)
  · rcases h'.own key hmid with hnone | ⟨hpost, k₂, k', hk₂, hk', hbecomes'⟩
    · exact Or.inl hnone
    · obtain rfl := Option.some.inj (hk₁.symm.trans hk₂)
      exact Or.inr ⟨hpost, k, k', hk, hk', hbecomes.trans hbecomes'⟩

/-- What others hold stays as it is. -/
theorem frame (h : Turns enough pre post w w') (G : List Nat) :
    Turns enough (pre ++ G) (post ++ G) w w' := fun F hw => by
  rw [List.append_assoc] at hw
  have h := h (G ++ F) hw
  refine
    { orderly := by rw [List.append_assoc]; exact h.orderly
      advances := h.advances
      nextKids := h.nextKids
      spent := h.spent
      others := fun key hkey => h.others key (List.mem_append_right G hkey)
      past := h.past
      own := fun key hkey => ?_ }
  rcases List.mem_append.1 hkey with hkey | hkey
  · rcases h.own key hkey with hnone | ⟨hpost, hrest⟩
    · exact Or.inl hnone
    · exact Or.inr ⟨List.mem_append_left G hpost, hrest⟩
  · have hsame := h.others key (List.mem_append_left F hkey)
    obtain ⟨k, hk⟩ := Option.isSome_iff_exists.1
      (hw.isSome_of_mem (List.mem_append_right pre (List.mem_append_left F hkey)))
    exact Or.inr ⟨List.mem_append_right post hkey, k, k, hk, hsame.trans hk, .rest⟩

/-- The order in which things are held does not matter. -/
theorem perm {pre' post' : List Nat} (h : Turns enough pre post w w') (hpre : pre'.Perm pre)
    (hpost : post.Perm post') : Turns enough pre' post' w w' := fun F hw => by
  have h := h F (hw.perm (hpre.append_right F))
  refine { h with orderly := h.orderly.perm (hpost.append_right F), own := fun key hkey => ?_ }
  rcases h.own key (hpre.mem_iff.1 hkey) with hnone | ⟨hmem, hrest⟩
  · exact Or.inl hnone
  · exact Or.inr ⟨hpost.mem_iff.1 hmem, hrest⟩

theorem mono {enough' : Nat} (hle : enough' ≤ enough) (h : Turns enough pre post w w') :
    Turns enough' pre post w w' := fun F hw => by
  have h := h F hw
  refine { h with own := fun key hkey => ?_ }
  rcases h.own key hkey with hnone | ⟨hmem, k, k', hk, hk', hbecomes⟩
  · exact Or.inl hnone
  · exact Or.inr ⟨hmem, k, k', hk, hk', hbecomes.mono hle⟩

/-- Of those who hold nothing in the end all children are gone. -/
theorem of_nil {enough' : Nat} (h : Turns enough pre [] w w') : Turns enough' pre [] w w' :=
  fun F hw => by
    have h := h F hw
    refine { h with own := fun key hkey => ?_ }
    rcases h.own key hkey with hnone | ⟨hmem, _⟩
    · exact Or.inl hnone
    · cases hmem

/-- Two things after one another, by those who hold apart. -/
theorem append {pre' post' : List Nat} (h : Turns enough pre post w w')
    (h' : Turns enough pre' post' w' w'') :
    Turns enough (pre ++ pre') (post ++ post') w w'' :=
  (h.frame pre').trans ((h'.frame post).perm List.perm_append_comm List.perm_append_comm)

/-- One after the other, children are done away with. -/
theorem foldl {β : Type} {keysOf : β → List Nat} {act : World → β → World}
    (h : ∀ w b, Turns enough (keysOf b) [] w (act w b)) (items : List β) (w : World) :
    Turns enough (items.flatMap keysOf) [] w (items.foldl act w) := by
  induction items generalizing w with
  | nil => exact .refl w
  | cons item items ih => exact (h w item).append (ih _)

/-- Nobody holds children that are not there. -/
theorem of_kids?_eq_none (h : w.kids? key = none) : Turns enough [key] post w w' := fun F hw => by
  have hsome := hw.isSome_of_mem (List.mem_cons_self (l := F))
  rw [h] at hsome
  cases hsome

/-- A launch comes along, of PETs whose ids were given out just before. -/
theorem addKids (hw : w.Quiet w') (hk : k.Fresh w w') :
    Turns enough [] [w'.nextKids] w (w'.addKids k).2 := fun F h =>
  { orderly := h.addKids hw hk
    advances := hw.toAdvances.trans (.of_registries_eq rfl rfl rfl)
    nextKids := Nat.le_succ_of_le (Nat.le_of_eq hw.nextKids.symm)
    spent := fun key hlt hnone => by
      rw [kids?_addKids, hw.nextKids, if_neg (Nat.ne_of_lt hlt), hw.kids?_eq, hnone]
    others := fun key hkey => by
      rw [kids?_addKids, hw.nextKids, if_neg (Nat.ne_of_lt (h.lt_of_mem hkey)), hw.kids?_eq]
    past := fun c hbegun hc => by
      refine ⟨fun hmem => ?_, hw.turnsOf_eq c⟩
      rcases List.mem_append.1 hmem with hmem | hmem
      · exact hk.new c hmem hbegun
      · exact hc (hw.contexts_eq ▸ hmem)
    own := fun _ hkey => nomatch hkey }

/-- A launch is forgotten, and those who held it hold what its PETs held, or some of that. -/
theorem removeKids (post : List Nat) (hkeys : ∀ k, w.kids? key = some k →
    (k.spawned.children.map (·.partition.slot)).Nodup → ∃ rest, (post ++ rest).Perm k.keys) :
    Turns enough [key] post w (w.removeKids key) := fun F h => by
  obtain ⟨k, hk⟩ := Option.isSome_iff_exists.1 (h.isSome_of_mem List.mem_cons_self)
  have hkey := (List.nodup_cons.1 h.apart).1
  obtain ⟨rest, hrest⟩ := hkeys k hk (h.slots key k hk)
  refine
    { orderly := h.removeKids hk hrest
      advances := .of_registries_eq rfl rfl rfl
      nextKids := Nat.le_refl _
      spent := fun other _ hnone => ?_
      others := fun other hother => ?_
      past := fun c _ hc => ⟨fun hmem => hc (w.contexts_removeKids_subset key hmem), rfl⟩
      own := fun other hother => Or.inl ?_ }
  · rw [kids?_removeKids, hnone, ite_self]
  · rw [kids?_removeKids, if_neg]
    rintro rfl
    exact hkey (List.mem_append_left _ hother)
  · rw [kids?_removeKids, if_pos (List.mem_singleton.1 hother)]

end Turns

/-- The entries of a launch were run, and what its PETs have come to hold goes with them. -/
theorem Turned.setKids {n enough' : Nat}
    (h : Turned enough' [] (pets.flatMap (·.scope.kidsKeys)) (key :: F) w w')
    (hk : w.kids? key = some k) (hkey : key ∉ F) (levels : enough ≤ n)
    (unreleased : k.released = false)
    (ran : List.Forall₂ ((Runner.levels n).Ran k.cargo k.entry) k.pets pets) :
    Turned enough [key] [key] F w
      ((w'.setKids key { k with pets, released := true }).record pets) := by
  have hk' : w'.kids? key = some k := (h.others key List.mem_cons_self).trans hk
  have hkids : ∀ other, ((w'.setKids key { k with pets, released := true }).record pets).kids? other
      = if other = key then (w'.kids? other).map fun _ => { k with pets, released := true }
        else w'.kids? other := fun other => kids?_setKids w' key other _
  refine
    { orderly := h.orderly.setKids hk' unreleased ran
      advances := h.advances.trans (.of_registries_eq rfl rfl rfl)
      nextKids := h.nextKids, spent := ?_, others := ?_, past := ?_, own := ?_ }
  · intro other hlt hnone
    rw [hkids, h.spent other hlt hnone]
    split <;> rfl
  · intro other hother
    rw [hkids, if_neg fun heq : other = key => hkey (heq ▸ hother)]
    exact h.others other (List.mem_cons_of_mem _ hother)
  · -- The PETs that have run their entries are those of a launch that was there.
    intro c hbegun hc
    obtain ⟨hc', hturns⟩ := h.past c hbegun hc
    have hcontexts : pets.map PetRun.context = k.contexts := Runner.Ran.contexts_eq ran
    have hperm : (w'.setKids key { k with pets, released := true }).contexts.Perm w'.contexts :=
      contexts_setKids_perm h.orderly.unique hk' hcontexts
    refine ⟨fun hmem => hc' (hperm.mem_iff.1 hmem), .trans ?_ hturns⟩
    refine turnsOf_record_of_notMem
      (Runner.Ran.own_of_forall₂ ran (h.orderly.recorded.idle key k hk' unreleased)) fun hmem => ?_
    exact hc' (mem_contexts hk' (hcontexts ▸ hmem))
  · intro other hother
    obtain rfl := List.mem_singleton.1 hother
    refine Or.inr ⟨hother, k, _, hk, ?_, .released levels unreleased ran⟩
    rw [hkids, if_pos rfl, hk']
    rfl

end World

end VirtualTopology.Session
