import Mathlib.Logic.Relation
import VirtualTopology.Proofs.Chronicle

/-!
# Who has the children

Every live child is in one handle and nowhere else: the table of a registry lists the children that
the handles have left, each entered as running. So whoever retires a child finds its record,
be it a handle that is joined or dropped or a startup that is aborted, and a child that was retired
is never found again.

## Main definitions

- `Site.FindsAll`: children whose retirements, one after the other, find their records.
- `Site.Aborts`: where a startup breaks off, and the children it has to retire.

## Main statements

- `Site.Aborts.findsAll`: a startup that breaks off finds all that it has to retire.
- `Chronicle.Reachable.custody`: the table and the handles in every run.
-/

namespace VirtualTopology

namespace Site

variable {σ : Type} {s s' base : Site σ} {parent : Vm} {policy : SpawnPolicy}
  {done children : List LaunchedChild} {host : ThreadHost} {c : ExecutionContext}
  {plan : SpawnPlan} {e : VmError}

/-- Each of these children has a record by the time it is retired. -/
def FindsAll : List LaunchedChild → Site σ → Prop
  | [], _ => True
  | child :: children, s =>
    (s.registry.child? child.vm.id).isSome ∧ FindsAll children (s.retire child.vm)

theorem Launched.findsAll (h : Launched parent policy base done s) (hbase : base.Tidy)
    (hp : parent.id < base.nextVm) : s.FindsAll done := by
  induction done generalizing s with
  | nil => trivial
  | cons child done ih =>
    refine ⟨?_, ih (h.retire hbase hp).1⟩
    rw [h.child?_head hbase]
    rfl

/-- A startup breaks off in this state, with these children launched: a slot cannot be launched, or
a PET gets no thread and the gate is shut. -/
inductive Aborts (host : ThreadHost) (plan : SpawnPlan) (s : Site σ) :
    List LaunchedChild → Site σ → Prop
  | slot {before part after launched s₁ fault s₂} (parts : plan.partitions = before ++ part :: after)
      (before : launchSlots plan.parent.vm plan.policy [] before s = (.ok launched, s₁))
      (failed : launchSlot plan.parent.vm plan.policy part s₁ = (.error fault, s₂)) :
      Aborts host plan s launched s₂
  | thread {children s₁ e s₂}
      (slots : launchSlots plan.parent.vm plan.policy [] plan.partitions s = (.ok children, s₁))
      (failed : startThreads host (children.flatMap LaunchedChild.pets) s₁ = (.error e, s₂)) :
      Aborts host plan s children (s₂.shutGate (children.flatMap LaunchedChild.pets))

theorem exists_aborts (h : s.startup host c plan = (.error e, s')) (hadmits : s.Admits c plan) :
    ∃ children s₁, s.Aborts host plan children s₁ ∧ s' = s₁.retireAll children := by
  obtain ⟨caller, hcaller, hsame, hdepth⟩ := hadmits
  -- The caller may launch the plan, so only the slots and the threads can fail.
  have hshallow : ¬ Limits.maxSpawnDepth < plan.parent.vm.depth + 1 := by omega
  simp only [startup, hcaller, hsame, if_true, if_neg hshallow] at h
  split at h
  · next e' s₁ hslots =>
    obtain ⟨before, part, after, launched, s₂, s₃, fault, hparts, hbefore, hfailed, _, rfl⟩ :=
      launchSlots_eq_error hslots
    exact ⟨launched, s₃, .slot hparts hbefore hfailed, (Prod.mk.inj h).2.symm⟩
  · next children s₁ hslots =>
    split at h
    · next e' s₂ hthreads =>
      exact ⟨children, _, .thread hslots hthreads, (Prod.mk.inj h).2.symm⟩
    · simp at h

theorem Aborts.findsAll (h : s.Aborts host plan children s') (hs : s.Tidy)
    (hp : plan.parent.vm.id < s.nextVm) : s'.FindsAll children := by
  cases h with
  | slot parts before failed =>
    have hlaunched := Launched.of_launchSlots hp before
    obtain ⟨net, rfl⟩ := eq_of_launchSlot_eq_error (hlaunched.keys ▸ hs.keys)
      (Nat.lt_of_lt_of_le hp hlaunched.next) failed
    exact (hlaunched.skip net).findsAll hs hp
  | thread slots failed =>
    have hlaunched := Launched.of_launchSlots hp slots
    rw [hlaunched.shutGate hs failed]
    exact hlaunched.findsAll hs hp

end Site

namespace Stage

variable {σ : Type} {env : Surroundings σ} {s s' : Stage σ} {v : Vm}

theorem Reachable.running (h : Reachable env s) :
    ∀ r ∈ s.site.registry.children, r.state = .running := by
  induction h with
  | start => simp [Stage.start]
  | step h next hall =>
    intro r hr
    cases next.change h.sound with
    | still registry _ _ _ _ => exact hall r (registry ▸ hr)
    | up c world net _ _ _ => exact hall r hr
    | down c net _ => exact hall r hr
    | launch entered _ _ _ _ launched =>
      cases List.mem_append.1 hr with
      | inl hr => exact hall r hr
      | inr hr =>
        obtain ⟨child, _, rfl⟩ := List.mem_map.1 hr
        rfl
    | retire net _ _ =>
      obtain ⟨old, hold, rfl⟩ := List.mem_map.1 hr
      have hstate := hall old (List.mem_filter.1 hold).1
      unfold ChildRecord.reparent
      split
      · exact hstate
      · exact hstate

theorem Sound.isSome_child?_iff (h : s.Sound) (vm : Nat) :
    (s.site.registry.child? vm).isSome ↔ vm ∈ s.held.map (·.vm.id) := by
  rw [← h.map_vm_children, Registry.child?, List.find?_isSome]
  simp

/-- A VM that was given its id before and is not live does not come back. -/
theorem Change.not_live (hc : s.Change s') (hid : v.id < s.site.nextVm) (hnot : ¬ s.Live v) :
    ¬ s'.Live v := by
  intro hlive
  cases hc with
  | still registry _ _ _ held =>
    rw [Live, registry, held] at hlive
    exact hnot hlive
  | up c world net =>
    rcases hlive with ⟨g, hg, rfl⟩ | hheld
    · rw [← Option.some.inj hg] at hid
      exact Nat.lt_irrefl _ hid
    · exact hnot (Or.inr hheld)
  | down c net =>
    rcases hlive with ⟨g, hg, _⟩ | hheld
    · cases hg
    · exact hnot (Or.inr hheld)
  | launch entered _ _ _ _ launched =>
    rcases hlive with hglobal | ⟨child, hchild, rfl⟩
    · exact hnot (Or.inl hglobal)
    · cases List.mem_append.1 hchild with
      | inl hchild => exact hnot (Or.inr ⟨child, hchild, rfl⟩)
      | inr hchild => exact Nat.not_lt.2 (launched.fresh child hchild).1 hid
  | retire net =>
    rcases hlive with hglobal | ⟨child, hchild, rfl⟩
    · exact hnot (Or.inl hglobal)
    · exact hnot (Or.inr ⟨child, (List.mem_filter.1 hchild).1, rfl⟩)

theorem Sound.not_live_retire (h : s.Sound) {child : LaunchedChild} (hheld : child ∈ s.held) :
    ¬ (s.retire child).Live child.vm := by
  rintro (⟨g, hg, hvm⟩ | ⟨other, hother, hvm⟩)
  · have hglobal : s.site.registry.global = some g := by
      rw [← hg]
      show _ = (s.site.retire child.vm).registry.global
      unfold Site.retire
      split <;> rfl
    exact h.ne_global hglobal hheld (by rw [hvm])
  · have hne := (List.mem_filter.1 hother).2
    simp [hvm] at hne

end Stage

/-! ### Handles -/

theorem Spawned.child?_eq_getElem? {spawned : Spawned} (h : spawned.children.map
    (·.partition.slot) = List.range spawned.children.length) (slot : Nat) :
    spawned.child? slot = spawned.children[slot]? := by
  have hslot : ∀ i (hi : i < spawned.children.length),
      spawned.children[i].partition.slot = i := fun i hi =>
    number_eq_of_map_eq_range (·.partition.slot) h (List.getElem?_eq_getElem hi)
  by_cases hlt : slot < spawned.children.length
  · have hnodup : (spawned.children.map (·.partition.slot)).Nodup := h ▸ List.nodup_range
    have hfind := find?_eq_some_of_key hnodup (List.getElem_mem hlt)
    rw [hslot slot hlt] at hfind
    rw [child?, hfind, List.getElem?_eq_getElem hlt]
  · rw [child?, List.getElem?_eq_none (by omega), List.find?_eq_none]
    intro child hchild
    obtain ⟨i, hi, rfl⟩ := List.getElem_of_mem hchild
    simp only [beq_iff_eq, hslot i hi]
    omega

namespace Handle

/-- The children that were retired. -/
def gone (h : Handle) : List LaunchedChild := h.spawned.children.take h.retired

theorem getElem_mem_left {h : Handle} {slot : Nat} (hlt : slot < h.spawned.children.length)
    (hle : h.retired ≤ slot) : h.spawned.children[slot] ∈ h.left := by
  rw [left, List.mem_drop_iff_getElem]
  exact ⟨slot - h.retired, by omega, by simp [Nat.add_sub_cancel' hle]⟩

theorem getElem_mem_gone {h : Handle} {slot : Nat} (hlt : slot < h.spawned.children.length)
    (hretired : slot < h.retired) : h.spawned.children[slot] ∈ h.gone := by
  rw [gone, List.mem_take_iff_getElem]
  exact ⟨slot, by omega, rfl⟩

theorem gone_next {h : Handle} {child : LaunchedChild} {rest : List LaunchedChild}
    (hleft : h.left = child :: rest) : h.next.gone = h.gone ++ [child] := by
  rw [left] at hleft
  rw [gone, gone, next, List.take_add, hleft]
  rfl

end Handle

namespace Chronicle

variable {σ : Type} {env : Surroundings σ} {k k' : Chronicle σ} {handle : Handle}
  {child : LaunchedChild}

theorem Reachable.run (h : Reachable env k) (run : Relation.ReflTransGen (Step env) k k') :
    Reachable env k' := by
  induction run with
  | refl => exact h
  | tail _ next ih => exact ih.step next

theorem Reachable.isSome_child?_iff (h : Reachable env k) (vm : Nat) :
    (k.stage.site.registry.child? vm).isSome ↔
      vm ∈ (k.handles.flatMap Handle.left).map (·.vm.id) := by
  rw [h.stage.sound.isSome_child?_iff, h.faithful.held]

theorem Reachable.isSome_child?_of_left (h : Reachable env k) (hmem : handle ∈ k.handles)
    (hchild : child ∈ handle.left) : (k.stage.site.registry.child? child.vm.id).isSome := by
  rw [h.isSome_child?_iff]
  exact List.mem_map_of_mem (List.mem_flatMap.2 ⟨handle, hmem, hchild⟩)

theorem Reachable.not_live_step (h : Reachable env k) (next : Step env k k') {v : Vm}
    (hv : v ∈ k.built) (hnot : ¬ k.stage.Live v) : v ∈ k'.built ∧ ¬ k'.stage.Live v :=
  ⟨next.built_prefix.subset hv,
    ((next.stage h.faithful).change h.stage.sound).not_live (h.faithful.ids v hv) hnot⟩

theorem Reachable.not_live_run (h : Reachable env k)
    (run : Relation.ReflTransGen (Step env) k k') {v : Vm} (hv : v ∈ k.built)
    (hnot : ¬ k.stage.Live v) : v ∈ k'.built ∧ ¬ k'.stage.Live v := by
  induction run with
  | refl => exact ⟨hv, hnot⟩
  | tail run next ih =>
    obtain ⟨hv, hnot⟩ := ih
    exact (h.run run).not_live_step next hv hnot

theorem Reachable.mem_built_of_gone (h : Reachable env k) (hmem : handle ∈ k.handles)
    (hchild : child ∈ handle.gone) : child.vm ∈ k.built := by
  apply (h.faithful.made.trans h.faithful.built).subset
  exact List.mem_map_of_mem (List.mem_flatMap.2 ⟨handle, hmem, List.take_subset _ _ hchild⟩)

theorem Reachable.not_live_of_gone (h : Reachable env k) :
    ∀ handle ∈ k.handles, ∀ child ∈ handle.gone, ¬ k.stage.Live child.vm := by
  induction h with
  | start => simp
  | @step k k' h next ih =>
    have hold : ∀ handle ∈ k.handles, ∀ child ∈ handle.gone, ¬ k'.stage.Live child.vm :=
      fun handle hmem child hchild =>
        (h.not_live_step next (h.mem_built_of_gone hmem hchild) (ih handle hmem child hchild)).2
    cases next with
    | startup host c known =>
      intro handle hmem child hchild
      cases List.mem_append.1 hmem with
      | inl hmem => exact hold handle hmem child hchild
      | inr hmem =>
        obtain ⟨spawned, _, rfl⟩ := List.mem_map.1 hmem
        cases hchild
    | @retire before handle after child rest split left ended =>
      intro handle' hmem child' hchild'
      simp only [Chronicle.retire, List.mem_append, List.mem_cons] at hmem
      rcases hmem with hmem | rfl | hmem
      · exact hold handle' (by simp [split, hmem]) child' hchild'
      · rw [Handle.gone_next left, List.mem_append, List.mem_singleton] at hchild'
        rcases hchild' with hchild' | rfl
        · exact hold handle (by simp [split]) child' hchild'
        · apply h.stage.sound.not_live_retire
          rw [h.faithful.mem_held split left]
          exact List.mem_append_right _ List.mem_cons_self
      · exact hold handle' (by simp [split, hmem]) child' hchild'
    | bringUp | takeDown | endThread | meanwhile => exact hold

theorem Reachable.child?_eq_none (h : Reachable env k) {v : Vm} (hv : v ∈ k.built)
    (hnot : ¬ k.stage.Live v) : k.stage.site.registry.child? v.id = none := by
  rw [← Option.not_isSome_iff_eq_none, h.stage.sound.isSome_child?_iff]
  intro hid
  obtain ⟨child, hchild, hid⟩ := List.mem_map.1 hid
  -- The table knows ids only, but of an id there is one VM.
  have hlive : k.stage.Live child.vm := Or.inr ⟨child, hchild, rfl⟩
  have hmem := h.faithful.built.subset (h.stage.sound.mem_made_of_live hlive)
  have heq : child.vm = v := List.inj_on_of_nodup_map h.faithful.distinct hmem hv hid
  exact hnot (heq ▸ hlive)

theorem Reachable.childState?_of_left (h : Reachable env k) (hmem : handle ∈ k.handles)
    (hchild : child ∈ handle.left) :
    k.stage.site.registry.childState? child.vm.id = some .running := by
  obtain ⟨r, hr⟩ := Option.isSome_iff_exists.1 (h.isSome_child?_of_left hmem hchild)
  rw [Registry.childState?, hr, Option.map_some, h.stage.running r (List.mem_of_find?_eq_some hr)]

theorem Reachable.spawnedState? (h : Reachable env k) (hmem : handle ∈ k.handles) (slot : Nat) :
    k.stage.site.spawnedState? handle.spawned slot =
      if slot < handle.spawned.children.length then
        some (if slot < handle.retired then .retired else .running)
      else none := by
  rw [Site.spawnedState?, Spawned.child?_eq_getElem? (h.faithful.slots handle hmem)]
  split
  · next hlt =>
    rw [List.getElem?_eq_getElem hlt, Option.map_some]
    split
    · next hretired =>
      have hgone := Handle.getElem_mem_gone hlt hretired
      rw [Registry.childState?,
        h.child?_eq_none (h.mem_built_of_gone hmem hgone) (h.not_live_of_gone handle hmem _ hgone)]
      rfl
    · next hretired =>
      rw [h.childState?_of_left hmem (Handle.getElem_mem_left hlt (by omega))]
      rfl
  · next hge =>
    rw [List.getElem?_eq_none (by omega)]
    rfl

theorem Reachable.takeDown_eq (h : Reachable env k)
    (up : k.stage.site.registry.state = .initialized) (c : ExecutionContext) :
    (k.stage.site.takeDown c).1 =
      if ∀ handle ∈ k.handles, handle.left = [] then .ok ()
      else .error (.outstandingChildren (k.handles.flatMap Handle.left).length) := by
  have hchildren : k.stage.site.registry.children = [] ↔ ∀ handle ∈ k.handles, handle.left = [] := by
    rw [h.stage.sound.children_eq_nil_iff, h.faithful.held, List.flatMap_eq_nil_iff]
  have hlength := congrArg List.length h.stage.sound.map_vm_children
  rw [List.length_map, List.length_map, h.faithful.held] at hlength
  obtain ⟨g, hg⟩ := h.stage.sound.exists_global up
  rw [Site.takeDown, hg]
  by_cases hleft : ∀ handle ∈ k.handles, handle.left = []
  · rw [if_pos hleft]
    simp [hchildren.2 hleft]
  · rw [if_neg hleft]
    dsimp only
    rw [if_neg (by simpa [hchildren] using hleft), Registry.outstanding, hlength]

/-- In every run, the table of the registry lists the children that the handles have left, each
once, in the order of the handles and as running. Whoever retires a child finds its record, a child
that is gone is never entered again, and a startup that breaks off finds all that it has to retire.
A handle says of its children that they run until it has retired them. While the registry is
initialized, it can be taken down unless handles have children left, and then says how many. -/
theorem Reachable.custody (h : Reachable env k) :
    k.stage.site.registry.children.map ChildRecord.vm =
      (k.handles.flatMap Handle.left).map (·.vm.id) ∧
    (k.stage.site.registry.children.map ChildRecord.vm).Nodup ∧
    ((k.handles.flatMap (·.spawned.children)).map (·.vm.id)).Nodup ∧
    (∀ r ∈ k.stage.site.registry.children, r.state = .running) ∧
    (∀ handle ∈ k.handles, handle.spawned.registry = k.stage.site.registry.id ∧
      (∀ child ∈ handle.left, (k.stage.site.registry.child? child.vm.id).isSome) ∧
      (∀ k', Relation.ReflTransGen (Step env) k k' → ∀ child ∈ handle.gone,
        k'.stage.site.registry.child? child.vm.id = none) ∧
      ∀ slot, k.stage.site.spawnedState? handle.spawned slot =
        if slot < handle.spawned.children.length then
          some (if slot < handle.retired then .retired else .running)
        else none) ∧
    (∀ host c plan e, k.stage.site.Admits c plan →
      (k.stage.site.startup host c plan).1 = .error e →
      ∃ children s, k.stage.site.Aborts host plan children s ∧ s.FindsAll children ∧
        (k.stage.site.startup host c plan).2 = s.retireAll children) ∧
    (k.stage.site.registry.state = .initialized → ∀ c, (k.stage.site.takeDown c).1 =
      if ∀ handle ∈ k.handles, handle.left = [] then .ok ()
      else .error (.outstandingChildren (k.handles.flatMap Handle.left).length)) := by
  have hsound := h.stage.sound
  refine ⟨?_, hsound.records_apart, h.faithful.children_distinct, h.stage.running, ?_, ?_,
    fun up c => h.takeDown_eq up c⟩
  · rw [hsound.map_vm_children, h.faithful.held]
  · intro handle hmem
    refine ⟨h.faithful.registry handle hmem, fun child hchild => h.isSome_child?_of_left hmem hchild,
      ?_, h.spawnedState? hmem⟩
    intro k' run child hchild
    obtain ⟨hbuilt, hnot⟩ := h.not_live_run run (h.mem_built_of_gone hmem hchild)
      (h.not_live_of_gone handle hmem child hchild)
    exact (h.run run).child?_eq_none hbuilt hnot
  · intro host c plan e hadmits herror
    obtain ⟨children, s, haborts, heq⟩ := Site.exists_aborts (Prod.ext herror rfl) hadmits
    exact ⟨children, s, haborts, haborts.findsAll hsound.tidy (hsound.parent_lt hadmits), heq⟩

/-- Of two children one is retired and has left a child of its own behind. -/
def orphaned : Chronicle Nat :=
  ((halved (.limited 9) 0).spawn (.pet 2 0) 1 .maxPes).retireHalf

theorem reachable_orphaned : Reachable (.limited 9) orphaned := by
  have hhalved : Reachable (.limited 9) (halved (.limited 9) 0) := reachable_halved rfl
  exact reachable_retireHalf (reachable_spawn hhalved _ _ _) (by decide)

/-- The second child of the first handle and the child of the other are left. -/
theorem custody_orphaned :
    orphaned.handles.map (fun handle => (handle.spawned.vmIds, handle.retired)) =
      [([2, 3], 1), ([4], 0)] ∧
    orphaned.stage.site.registry.children.map ChildRecord.vm = [3, 4] ∧
    (∀ handle ∈ orphaned.handles, ∀ slot < handle.spawned.children.length,
      orphaned.stage.site.spawnedState? handle.spawned slot =
        some (if slot < handle.retired then .retired else .running)) ∧
    ∀ c, (orphaned.stage.site.takeDown c).1 = .error (.outstandingChildren 2) := by
  obtain ⟨hkeys, _, _, _, hhandles, _, hdown⟩ := Reachable.custody reachable_orphaned
  refine ⟨by decide, hkeys.trans (by decide), ?_, fun c => ?_⟩
  · intro handle hmem slot hlt
    rw [(hhandles handle hmem).2.2.2 slot, if_pos hlt]
  · rw [hdown rfl c]
    rfl

end Chronicle

end VirtualTopology
