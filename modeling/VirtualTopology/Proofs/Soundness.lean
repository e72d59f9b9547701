import VirtualTopology.Proofs.Hosts
import VirtualTopology.Proofs.Stage

/-!
# What the tables have to do with the VMs

At every stage the table of children lists the children that are held, the Global VM is up or
nothing is, and contexts are bound to VMs that were made. What one step can do to a sound stage is
said once, as one of five kinds of change; everything that is proved of runs goes by these kinds.

## Main definitions

- `Stage.Sound`: the invariant.
- `Stage.Change`: the five kinds of change.

## Main statements

- `Stage.Step.change`: a step of a sound stage is one of them.
- `Stage.Reachable.sound`: every stage of a run is sound.
-/

namespace VirtualTopology

/-- What never changes in a record. -/
def ChildRecord.entry (r : ChildRecord) : Nat × Nat × List Pe := (r.vm, r.slot, r.pes)

/-- What is entered of a child for good. -/
def LaunchedChild.entry (c : LaunchedChild) : Nat × Nat × List Pe :=
  (c.vm.id, c.partition.slot, c.partition.pes)

@[simp] theorem ChildRecord.entry_reparent (vm parent : Nat) (r : ChildRecord) :
    (r.reparent vm parent).entry = r.entry := by
  unfold reparent
  split <;> rfl

@[simp] theorem ChildRecord.vm_reparent (vm parent : Nat) (r : ChildRecord) :
    (r.reparent vm parent).vm = r.vm :=
  congrArg (·.1) (r.entry_reparent vm parent)

@[simp] theorem ChildRecord.pes_reparent (vm parent : Nat) (r : ChildRecord) :
    (r.reparent vm parent).pes = r.pes :=
  congrArg (·.2.2) (r.entry_reparent vm parent)

namespace Bindings

variable {b : Bindings} {c : ExecutionContext} {registry generation : Nat} {v : VmHandle}

theorem mem_of_find {x : Binding} (h : b.find c registry = some x) :
    x ∈ b ∧ x.context = c ∧ x.registry = registry := by
  have hkey := List.find?_some h
  simp only [decide_eq_true_eq, Bool.and_eq_true] at hkey
  exact ⟨List.mem_of_find?_eq_some h, hkey⟩

theorem exists_of_current? (h : b.current? c registry generation = some v) :
    ∃ x ∈ b, x.context = c ∧ x.registry = registry ∧ x.generation = generation ∧ x.handle = v := by
  obtain ⟨x, hx, rfl⟩ := Option.map_eq_some_iff.1 h
  obtain ⟨hfind, hgeneration⟩ := Option.filter_eq_some_iff.1 hx
  obtain ⟨hmem, hcontext, hregistry⟩ := mem_of_find hfind
  exact ⟨x, hmem, hcontext, hregistry, of_decide_eq_true hgeneration, rfl⟩

end Bindings

/-- A context runs in a VM because a binding of the present bring-up says so. -/
theorem Site.exists_of_current {σ : Type} {s : Site σ} {c : ExecutionContext} {v : VmHandle}
    (h : s.current c = .ok v) : s.registry.global.isSome ∧
      ∃ x ∈ s.bindings, x.context = c ∧ x.registry = s.registry.id ∧
        x.generation = s.registry.generation ∧ x.handle = v := by
  unfold current at h
  split at h
  · next hup =>
    split at h
    · next hcurrent => exact ⟨hup, Bindings.exists_of_current? (hcurrent.trans (by simpa using h))⟩
    · simp at h
  · simp at h

namespace Stage

variable {σ : Type} {env : Surroundings σ} {s s' : Stage σ}

/-- The tables of a registry are about the VMs that were made and the children that are held. -/
structure Sound (s : Stage σ) : Prop where
  tidy : s.site.Tidy
  ids : ∀ v ∈ s.made, v.id < s.site.nextVm
  distinct : (s.made.map Vm.id).Nodup
  placed : ∀ v ∈ s.made, Placeable v.pes
  kept : ∀ c ∈ s.held, c.vm ∈ s.made
  apart : (s.held.map (·.vm.id)).Nodup
  entered : s.site.registry.children.map ChildRecord.entry = s.held.map LaunchedChild.entry
  whole : ∀ c ∈ s.held, c.vm.pes = c.partition.pes ∧ c.partition.pes ≠ []
  up : ∀ g, s.site.registry.global = some g →
    s.site.registry.state = .initialized ∧ g.vm ∈ s.made ∧ (∀ c ∈ s.held, c.vm.id ≠ g.vm.id) ∧
      ∃ t, s.site.registry.topology = some t ∧ g.vm.pes = t.pes ∧
        s.site.registry.owners.pes = t.pes
  down : s.site.registry.global = none →
    s.site.registry.state ≠ .initialized ∧ s.site.registry.topology = none ∧
      s.site.registry.owners = [] ∧ s.held = []
  bound : ∀ b ∈ s.site.bindings, b.registry = s.site.registry.id →
    b.generation ≤ s.site.registry.generation ∧ b.handle.vm ∈ s.made ∧
      (b.generation = s.site.registry.generation → ∀ g, s.site.registry.global = some g →
        b.handle = g ∨ ∃ c ∈ s.held, c.vm = b.handle.vm ∧ b.context = b.handle.context)

namespace Sound

variable {c : ExecutionContext} {plan : SpawnPlan} {child : LaunchedChild} {r : ChildRecord}

/-- VMs that were made are told apart by their ids. -/
theorem eq_of_id (h : s.Sound) {v w : Vm} (hv : v ∈ s.made) (hw : w ∈ s.made) (hid : v.id = w.id) :
    v = w :=
  List.inj_on_of_nodup_map h.distinct hv hw hid

theorem held_eq_nil (h : s.Sound) (hdown : s.site.registry.global = none) : s.held = [] := by
  obtain ⟨_, _, _, hheld⟩ := h.down hdown
  exact hheld

/-- A registry that is initialized has a Global VM. -/
theorem exists_global (h : s.Sound) (up : s.site.registry.state = .initialized) :
    ∃ g, s.site.registry.global = some g := by
  cases hglobal : s.site.registry.global with
  | none => exact absurd up (h.down hglobal).1
  | some g => exact ⟨g, rfl⟩

theorem global_mem_made (h : s.Sound) {g : VmHandle} (hg : s.site.registry.global = some g) :
    g.vm ∈ s.made := by
  obtain ⟨_, hmade, _⟩ := h.up g hg
  exact hmade

theorem ne_global (h : s.Sound) {g : VmHandle} (hg : s.site.registry.global = some g)
    (hc : child ∈ s.held) : child.vm.id ≠ g.vm.id := by
  obtain ⟨_, _, hother, _⟩ := h.up g hg
  exact hother child hc

theorem mem_made_of_live (h : s.Sound) {v : Vm} (hv : s.Live v) : v ∈ s.made := by
  rcases hv with ⟨g, hg, rfl⟩ | ⟨c, hc, rfl⟩
  · exact h.global_mem_made hg
  · exact h.kept c hc

/-- Nothing is live without the Global VM. -/
theorem global_of_live (h : s.Sound) {v : Vm} (hv : s.Live v) :
    ∃ g, s.site.registry.global = some g := by
  rcases hv with ⟨g, hg, _⟩ | ⟨c, hc, _⟩
  · exact ⟨g, hg⟩
  · cases hglobal : s.site.registry.global with
    | some g => exact ⟨g, rfl⟩
    | none =>
      rw [h.held_eq_nil hglobal] at hc
      cases hc

theorem exists_record (h : s.Sound) (hc : child ∈ s.held) :
    ∃ r ∈ s.site.registry.children, r.vm = child.vm.id ∧ r.pes = child.partition.pes := by
  have hmem : child.entry ∈ s.site.registry.children.map ChildRecord.entry :=
    h.entered ▸ List.mem_map_of_mem hc
  obtain ⟨r, hr, hentry⟩ := List.mem_map.1 hmem
  exact ⟨r, hr, congrArg (·.1) hentry, congrArg (·.2.2) hentry⟩

theorem exists_held (h : s.Sound) (hr : r ∈ s.site.registry.children) :
    ∃ child ∈ s.held, child.vm.id = r.vm ∧ child.partition.pes = r.pes := by
  have hmem : r.entry ∈ s.held.map LaunchedChild.entry := h.entered ▸ List.mem_map_of_mem hr
  obtain ⟨child, hchild, hentry⟩ := List.mem_map.1 hmem
  exact ⟨child, hchild, congrArg (·.1) hentry, congrArg (·.2.2) hentry⟩

theorem children_eq_nil_iff (h : s.Sound) : s.site.registry.children = [] ↔ s.held = [] := by
  have hlength := congrArg List.length h.entered
  rw [List.length_map, List.length_map] at hlength
  rw [← List.length_eq_zero_iff, ← List.length_eq_zero_iff, hlength]

theorem map_vm_children (h : s.Sound) :
    s.site.registry.children.map ChildRecord.vm = s.held.map (·.vm.id) := by
  have hvms := congrArg (List.map Prod.fst) h.entered
  rwa [List.map_map, List.map_map] at hvms

theorem records_apart (h : s.Sound) : (s.site.registry.children.map ChildRecord.vm).Nodup :=
  h.map_vm_children ▸ h.apart

theorem child?_of_mem (h : s.Sound) (hr : r ∈ s.site.registry.children) :
    s.site.registry.child? r.vm = some r :=
  find?_eq_some_of_key h.records_apart hr

/-- Contexts run in VMs that are live. -/
theorem live_of_current (h : s.Sound) {handle : VmHandle} (hc : s.site.current c = .ok handle) :
    s.Live handle.vm := by
  obtain ⟨hup, b, hb, _, hregistry, hgeneration, rfl⟩ := Site.exists_of_current hc
  obtain ⟨g, hg⟩ := Option.isSome_iff_exists.1 hup
  obtain ⟨_, _, hlive⟩ := h.bound b hb hregistry
  rcases hlive hgeneration g hg with hglobal | ⟨child, hchild, hvm, _⟩
  · exact Or.inl ⟨g, hg, by rw [hglobal]⟩
  · exact Or.inr ⟨child, hchild, hvm⟩

theorem parent_lt (h : s.Sound) (hadmits : s.site.Admits c plan) :
    plan.parent.vm.id < s.site.nextVm := by
  obtain ⟨caller, hcurrent, hsame, _⟩ := hadmits
  have hid : caller.vm.id = plan.parent.vm.id := by simpa [VmHandle.sameVm] using hsame
  exact hid ▸ h.ids _ (h.mem_made_of_live (h.live_of_current hcurrent))

/-- Whoever runs in the VM of a plan made the plan for a VM that is live. -/
theorem live_of_admits (h : s.Sound) (known : s.Plans plan) (hadmits : s.site.Admits c plan) :
    s.Live plan.parent.vm ∧ ∃ count, SpawnPlan.build plan.parent count plan.policy = .ok plan := by
  obtain ⟨caller, hcurrent, hsame, _⟩ := hadmits
  obtain ⟨parent, count, policy, hbuild, hparent⟩ := known
  obtain ⟨hplan, hpolicy, _⟩ := SpawnPlan.build_eq_ok hbuild
  subst hplan hpolicy
  refine ⟨?_, count, hbuild⟩
  have hid : caller.vm.id = plan.parent.vm.id := by simpa [VmHandle.sameVm] using hsame
  have hlive := h.live_of_current hcurrent
  cases hparent with
  | inl hparent => rwa [h.eq_of_id (h.mem_made_of_live hlive) hparent hid] at hlive
  | inr hforeign => exact absurd hid (hforeign _ (h.mem_made_of_live hlive))

end Sound

/-! ### What a step can do -/

/-- The Global VM is up. -/
def raised (c : ExecutionContext) (t : Topology) (world : Communicator) (net : σ) (s : Stage σ) :
    Stage σ :=
  let global : VmHandle := ⟨.ofTopology s.site.nextVm t world, 0⟩
  let generation := s.site.registry.generation + 1
  { s with
    site := { s.site with
      nextVm := s.site.nextVm + 1
      bindings := s.site.bindings.bind c s.site.registry.id generation global
      net
      registry :=
        { s.site.registry with
          state := .initialized
          generation
          global := some global
          topology := some t
          owners := .allHeldBy s.site.nextVm t.pes } }
    made := s.made ++ [global.vm] }

/-- The Global VM is gone. -/
def lowered (c : ExecutionContext) (net : σ) (s : Stage σ) : Stage σ :=
  { s with
    site := { s.site with
      bindings := s.site.bindings.unbind c s.site.registry.id
      net
      registry :=
        { s.site.registry with
          state := .finalized, global := none, topology := none, owners := [] } } }

/-- Children of a VM are running; `after` is the state in which they were all launched. -/
def launched (parent : Vm) (children : List LaunchedChild) (after : Site σ)
    (entered : List ExecutionContext) (s : Stage σ) : Stage σ where
  site := { after with
    bindings := s.site.bound (children.flatMap LaunchedChild.pets) ++ s.site.bindings
    entered
    registry :=
      { s.site.registry with
        owners := after.registry.owners
        children := s.site.registry.children ++
          children.map (LaunchedChild.record parent.id .running) } }
  made := s.made ++ children.map LaunchedChild.vm
  held := s.held ++ children

/-- The child of a record is forgotten, and held by nobody. -/
def retired (r : ChildRecord) (net : σ) (s : Stage σ) : Stage σ :=
  { s with
    site := { s.site with
      net
      registry :=
        { s.site.registry with
          owners := s.site.registry.owners.release r.vm r.parent r.pes
          children := (s.site.registry.children.filter (·.vm != r.vm)).map
            (ChildRecord.reparent r.vm r.parent) } }
    held := s.held.filter (·.vm.id != r.vm) }

/-- What a step can do to a stage. -/
inductive Change (s : Stage σ) : Stage σ → Prop
  /-- Ids are used up, bindings are lost, the transport is used. -/
  | still {after : Stage σ} (registry : after.site.registry = s.site.registry)
      (next : s.site.nextVm ≤ after.site.nextVm)
      (bindings : ∀ b ∈ after.site.bindings,
        b.registry = s.site.registry.id → b ∈ s.site.bindings)
      (made : after.made = s.made) (held : after.held = s.held) : Change s after
  | up (c : ExecutionContext) {t : Topology} (world : Communicator) (net : σ)
      (begun : c.Begun s.site.nextVm) (free : s.site.registry.global = none)
      (found : s.site.registry.config.discover s.site.registry.detected = .ok t) :
      Change s (s.raised c t world net)
  | down (c : ExecutionContext) (net : σ) (left : s.site.registry.children = []) :
      Change s (s.lowered c net)
  | launch {plan : SpawnPlan} {count : Nat} {children : List LaunchedChild} {after : Site σ}
      (entered : List ExecutionContext) (live : s.Live plan.parent.vm)
      (built : SpawnPlan.build plan.parent count plan.policy = .ok plan)
      (depth : plan.parent.vm.depth < Limits.maxSpawnDepth)
      (parts : children.map LaunchedChild.partition = plan.partitions)
      (launched : s.site.Launched plan.parent.vm plan.policy children after) :
      Change s (s.launched plan.parent.vm children after entered)
  | retire {r : ChildRecord} (net : σ) (record : r ∈ s.site.registry.children)
      (ended : ∀ b ∈ s.site.bindings,
        b.registry = s.site.registry.id → b.context.child? ≠ some r.vm) :
      Change s (s.retired r net)

/-- A step of a sound stage is one of the five. -/
theorem Step.change (h : Step env s s') (sound : s.Sound) : s.Change s' := by
  cases h with
  | bringUp c begun =>
    unfold Stage.bringUp
    split
    · next global site hup =>
      obtain ⟨hglobal, t, world, net, hfound, _, rfl, rfl⟩ := Site.bringUp_eq_ok hup
      exact Change.up c world net begun hglobal hfound
    · next e site hup =>
      -- However far it came, it did nothing but ask the transport.
      obtain ⟨net, rfl⟩ : ∃ net, site = { s.site with net } := by
        rcases Site.bringUp_eq_error hup with rfl | ⟨_, _, net, _, rfl⟩
        · exact ⟨_, rfl⟩
        · exact ⟨net, rfl⟩
      exact Change.still rfl (Nat.le_refl _) (fun b hb _ => hb) rfl rfl
  | takeDown c =>
    unfold Stage.takeDown Site.takeDown
    split
    · exact Change.still rfl (Nat.le_refl _) (fun b hb _ => hb) rfl rfl
    · split
      · next hleft => exact Change.down c _ (List.isEmpty_iff.1 hleft)
      · exact Change.still rfl (Nat.le_refl _) (fun b hb _ => hb) rfl rfl
  | @startup host c plan known =>
    -- The caller runs in a VM with the id of the plan's, so the id was given out.
    have hparent : s.site.Admits c plan → plan.parent.vm.id < s.site.nextVm := sound.parent_lt
    unfold Stage.startup
    split
    · next spawned site hok =>
      obtain ⟨hadmits, s₁, hslots, hlaunched, _, rfl⟩ := Site.startup_eq_ok sound.tidy hparent hok
      obtain ⟨hlive, count, hbuilt⟩ := sound.live_of_admits known hadmits
      have hparts := Site.partitions_of_launchSlots hslots
      exact Change.launch _ hlive hbuilt hadmits.choose_spec.2.2 hparts hlaunched
    · next e site herror =>
      obtain ⟨next, net, hle, rfl⟩ := Site.exists_eq_of_startup_eq_error sound.tidy hparent herror
      exact Change.still rfl hle (fun b hb _ => hb) rfl rfl
  | @retire child held ended =>
    obtain ⟨r, hr, hvm, _⟩ := sound.exists_record held
    have hretire := Site.retire_of_child? (hvm ▸ sound.child?_of_mem hr)
    rw [Stage.retire, hretire, ← hvm]
    exact Change.retire _ hr (hvm ▸ ended)
  | endThread c =>
    refine Change.still rfl (Nat.le_refl _) (fun b hb _ => ?_) rfl rfl
    exact (List.mem_filter.1 hb).1
  | meanwhile process ids own net =>
    refine Change.still rfl ids (fun b hb hr => ?_) rfl rfl
    have hmem : b ∈ process.bindings.ofRegistry s.site.registry.id :=
      List.mem_filter.2 ⟨hb, by simpa using hr⟩
    rw [own] at hmem
    exact (List.mem_filter.1 hmem).1

/-- What a registry was set up with stays. -/
theorem Change.settings (hc : s.Change s') :
    s'.site.registry.transport = s.site.registry.transport ∧
      s'.site.registry.config = s.site.registry.config ∧
      s'.site.registry.detected = s.site.registry.detected := by
  cases hc with
  | still registry => rw [registry]; exact ⟨rfl, rfl, rfl⟩
  | up | down | launch | retire => exact ⟨rfl, rfl, rfl⟩

/-! ### Soundness is kept -/

namespace Sound

variable {c : ExecutionContext} {t : Topology} {world : Communicator} {net : σ}

theorem start (transport : Transport σ) (id : Nat) (config : DiscoveryConfig) (detected : Nat)
    {process : Process σ} (unbound : process.bindings.ofRegistry id = []) :
    (Stage.start transport id config detected process).Sound := by
  have hnone : ∀ b ∈ process.bindings, b.registry ≠ id := by
    simpa [Bindings.ofRegistry, List.filter_eq_nil_iff] using unbound
  exact
    { tidy :=
        { records := by simp [Stage.start]
          keys := List.nodup_nil
          contexts := fun b hb hr => absurd hr (hnone b hb) }
      ids := by simp [Stage.start]
      distinct := List.nodup_nil
      placed := by simp [Stage.start]
      kept := by simp [Stage.start]
      apart := List.nodup_nil
      entered := rfl
      whole := by simp [Stage.start]
      up := by simp [Stage.start]
      down := fun _ => ⟨by simp [Stage.start], rfl, rfl, rfl⟩
      bound := fun b hb hr => absurd hr (hnone b hb) }

theorem still (h : s.Sound) (registry : s'.site.registry = s.site.registry)
    (next : s.site.nextVm ≤ s'.site.nextVm)
    (bindings : ∀ b ∈ s'.site.bindings, b.registry = s.site.registry.id → b ∈ s.site.bindings)
    (made : s'.made = s.made) (held : s'.held = s.held) : s'.Sound := by
  refine
    { tidy := { records := ?_, keys := ?_, contexts := ?_ }
      ids := ?_, distinct := ?_, placed := ?_, kept := ?_, apart := ?_, entered := ?_, whole := ?_
      up := ?_, down := ?_, bound := ?_ } <;>
    simp only [registry, made, held]
  · intro r hr
    obtain ⟨hvm, hparent⟩ := h.tidy.records r hr
    exact ⟨Nat.lt_of_lt_of_le hvm next, Nat.lt_of_lt_of_le hparent next⟩
  · exact h.tidy.keys
  · intro b hb hr
    exact (h.tidy.contexts b (bindings b hb hr) hr).mono next
  · intro v hv
    exact Nat.lt_of_lt_of_le (h.ids v hv) next
  · exact h.distinct
  · exact h.placed
  · exact h.kept
  · exact h.apart
  · exact h.entered
  · exact h.whole
  · exact h.up
  · exact h.down
  · intro b hb hr
    exact h.bound b (bindings b hb hr) hr

theorem raised (h : s.Sound) (begun : c.Begun s.site.nextVm)
    (found : s.site.registry.config.discover s.site.registry.detected = .ok t) :
    (s.raised c t world net).Sound := by
  have hplaced := (DiscoveryConfig.placeable_of_discover found).1
  have hnew : ∀ v ∈ s.made, v.id ≠ s.site.nextVm := fun v hv => Nat.ne_of_lt (h.ids v hv)
  have hmade : ∀ v ∈ (s.raised c t world net).made,
      v ∈ s.made ∨ v = .ofTopology s.site.nextVm t world := by
    simp [Stage.raised]
  refine
    { tidy := { records := ?_, keys := ?_, contexts := ?_ }
      ids := ?_, distinct := ?_, placed := ?_, kept := ?_, apart := h.apart, entered := h.entered
      whole := h.whole, up := ?_, down := ?_, bound := ?_ }
  · intro r hr
    obtain ⟨hvm, hparent⟩ := h.tidy.records r hr
    exact ⟨Nat.lt_succ_of_lt hvm, Nat.lt_succ_of_lt hparent⟩
  · exact (Owners.pes_allHeldBy _ _).symm ▸ hplaced.nodup
  · intro b hb hr
    rcases List.mem_cons.1 hb with rfl | hb
    · exact begun.mono (Nat.le_succ _)
    · exact (h.tidy.contexts b hb hr).mono (Nat.le_succ _)
  · intro v hv
    rcases hmade v hv with hv | rfl
    · exact Nat.lt_succ_of_lt (h.ids v hv)
    · exact Nat.lt_succ_self _
  · exact nodup_map_concat h.distinct hnew
  · intro v hv
    rcases hmade v hv with hv | rfl
    · exact h.placed v hv
    · rwa [Vm.pes_ofTopology]
  · intro c hc
    exact List.mem_append_left _ (h.kept c hc)
  · rintro g hg
    obtain rfl := Option.some.inj hg
    refine ⟨rfl, List.mem_append_right _ List.mem_cons_self, ?_, t, rfl, ?_, ?_⟩
    · intro c hc
      exact hnew _ (h.kept c hc)
    · exact Vm.pes_ofTopology ..
    · exact Owners.pes_allHeldBy ..
  · intro hnone
    cases hnone
  · intro b hb hr
    rcases List.mem_cons.1 hb with rfl | hb
    · refine ⟨Nat.le_refl _, List.mem_append_right _ List.mem_cons_self, fun _ g hg => ?_⟩
      exact Or.inl (Option.some.inj hg)
    -- Bindings of earlier bring-ups are stale.
    · obtain ⟨hgeneration, hvm, _⟩ := h.bound b hb hr
      refine ⟨Nat.le_succ_of_le hgeneration, List.mem_append_left _ hvm, fun heq => ?_⟩
      exact absurd hgeneration (by rw [heq]; exact Nat.not_succ_le_self _)

theorem lowered (h : s.Sound) (left : s.site.registry.children = []) :
    (s.lowered c net).Sound := by
  have hheld : s.held = [] := h.children_eq_nil_iff.1 left
  refine
    { tidy := { records := h.tidy.records, keys := List.nodup_nil, contexts := ?_ }
      ids := h.ids, distinct := h.distinct, placed := h.placed, kept := h.kept, apart := h.apart
      entered := h.entered, whole := h.whole, up := ?_, down := ?_, bound := ?_ }
  · intro b hb hr
    exact h.tidy.contexts b (List.mem_filter.1 hb).1 hr
  · intro g hg
    cases hg
  · intro _
    exact ⟨by simp [Stage.lowered], rfl, rfl, hheld⟩
  · intro b hb hr
    obtain ⟨hgeneration, hvm, _⟩ := h.bound b (List.mem_filter.1 hb).1 hr
    refine ⟨hgeneration, hvm, fun _ g hg => ?_⟩
    cases hg

theorem launched {plan : SpawnPlan} {count : Nat} {children : List LaunchedChild} {after : Site σ}
    {entered : List ExecutionContext} (h : s.Sound) (live : s.Live plan.parent.vm)
    (built : SpawnPlan.build plan.parent count plan.policy = .ok plan)
    (parts : children.map LaunchedChild.partition = plan.partitions)
    (launched : s.site.Launched plan.parent.vm plan.policy children after) :
    (s.launched plan.parent.vm children after entered).Sound := by
  have hparent := h.mem_made_of_live live
  have hparentPlaced := h.placed _ hparent
  have hregistry : after.registry.id = s.site.registry.id := by rw [launched.registry]
  -- A child holds a piece of what the parent of the plan holds, in the same order.
  have hpart : ∀ c ∈ children, c.partition ∈ plan.partitions := fun c hc =>
    parts ▸ List.mem_map_of_mem hc
  have hpiece : ∀ c ∈ children, c.partition.pes <:+: plan.parent.vm.pes := fun c hc =>
    SpawnPlan.infix_of_mem_partitions built (hpart c hc)
  have hpes : ∀ c ∈ children, c.vm.pes = c.partition.pes := by
    intro c hc
    rw [launched.built c hc, Vm.pes_ofGroups]
    exact SpawnPolicy.flatten_petGroups _ (hparentPlaced.ordered.of_piece (hpiece c hc))
  have hnonempty : ∀ c ∈ children, c.partition.pes ≠ [] := fun c hc =>
    SpawnPlan.pes_ne_nil_of_mem_partitions built (hpart c hc)
  have hnew : ∀ v ∈ s.made, ∀ c ∈ children, v.id ≠ c.vm.id := fun v hv c hc =>
    Nat.ne_of_lt (Nat.lt_of_lt_of_le (h.ids v hv) (launched.fresh c hc).1)
  refine
    { tidy := { records := ?_, keys := ?_, contexts := ?_ }
      ids := ?_, distinct := ?_, placed := ?_, kept := ?_, apart := ?_, entered := ?_, whole := ?_
      up := ?_, down := ?_, bound := ?_ }
  · intro r hr
    cases List.mem_append.1 hr with
    | inl hr =>
      obtain ⟨hvm, hparent⟩ := h.tidy.records r hr
      exact ⟨Nat.lt_of_lt_of_le hvm launched.next, Nat.lt_of_lt_of_le hparent launched.next⟩
    | inr hr =>
      obtain ⟨c, hc, rfl⟩ := List.mem_map.1 hr
      exact ⟨(launched.fresh c hc).2, Nat.lt_of_lt_of_le (h.ids _ hparent) launched.next⟩
  · exact launched.keys ▸ h.tidy.keys
  · intro b hb hr
    cases List.mem_append.1 hb with
    | inl hb =>
      obtain ⟨pet, hpet, rfl⟩ := List.mem_map.1 (List.mem_reverse.1 hb)
      obtain ⟨child, hchild, n, _, rfl, _⟩ := launched.pet_context hpet
      exact (launched.fresh child hchild).2
    | inr hb => exact (h.tidy.contexts b hb hr).mono launched.next
  · intro v hv
    cases List.mem_append.1 hv with
    | inl hv => exact Nat.lt_of_lt_of_le (h.ids v hv) launched.next
    | inr hv =>
      obtain ⟨c, hc, rfl⟩ := List.mem_map.1 hv
      exact (launched.fresh c hc).2
  · apply nodup_map_append h.distinct
    · rw [List.map_map]
      exact launched.distinct
    · intro v hv w hw
      obtain ⟨c, hc, rfl⟩ := List.mem_map.1 hw
      exact hnew v hv c hc
  · intro v hv
    cases List.mem_append.1 hv with
    | inl hv => exact h.placed v hv
    | inr hv =>
      obtain ⟨c, hc, rfl⟩ := List.mem_map.1 hv
      rw [hpes c hc]
      exact hparentPlaced.of_piece (hpiece c hc)
  · intro c hc
    cases List.mem_append.1 hc with
    | inl hc => exact List.mem_append_left _ (h.kept c hc)
    | inr hc => exact List.mem_append_right _ (List.mem_map_of_mem hc)
  · apply nodup_map_append h.apart launched.distinct
    intro c hc c' hc'
    exact hnew _ (h.kept c hc) c' hc'
  · show (s.site.registry.children ++ _).map _ = (s.held ++ children).map _
    rw [List.map_append, List.map_append, h.entered, List.map_map]
    rfl
  · intro c hc
    cases List.mem_append.1 hc with
    | inl hc => exact h.whole c hc
    | inr hc => exact ⟨hpes c hc, hnonempty c hc⟩
  · intro g hg
    obtain ⟨hstate, hmade, hother, t, htopology, hgpes, hkeys⟩ := h.up g hg
    refine ⟨hstate, List.mem_append_left _ hmade, ?_, t, htopology, hgpes,
      launched.keys.trans hkeys⟩
    intro c hc
    cases List.mem_append.1 hc with
    | inl hc => exact hother c hc
    | inr hc => exact (hnew _ hmade c hc).symm
  · intro hnone
    obtain ⟨g, hg⟩ := h.global_of_live live
    exact absurd (hg.symm.trans hnone) (by simp)
  · intro b hb hr
    cases List.mem_append.1 hb with
    | inl hb =>
      obtain ⟨pet, hpet, rfl⟩ := List.mem_map.1 (List.mem_reverse.1 hb)
      obtain ⟨child, hchild, n, _, rfl, _⟩ := launched.pet_context hpet
      refine ⟨Nat.le_refl _, ?_, fun _ g _ => Or.inr ⟨child, ?_, rfl, rfl⟩⟩
      · exact List.mem_append_right _ (List.mem_map_of_mem hchild)
      · exact List.mem_append_right _ hchild
    | inr hb =>
      obtain ⟨hgeneration, hvm, hlive⟩ := h.bound b hb hr
      refine ⟨hgeneration, List.mem_append_left _ hvm, fun heq g hg => ?_⟩
      rcases hlive heq g hg with hglobal | ⟨c, hc, hcvm⟩
      · exact Or.inl hglobal
      · exact Or.inr ⟨c, List.mem_append_left _ hc, hcvm⟩

theorem retired {r : ChildRecord} (h : s.Sound) (record : r ∈ s.site.registry.children)
    (ended : ∀ b ∈ s.site.bindings,
      b.registry = s.site.registry.id → b.context.child? ≠ some r.vm) :
    (s.retired r net).Sound := by
  obtain ⟨hrecord, hparent⟩ := h.tidy.records r record
  refine
    { tidy := { records := ?_, keys := ?_, contexts := h.tidy.contexts }
      ids := h.ids, distinct := h.distinct, placed := h.placed, kept := ?_, apart := ?_
      entered := ?_, whole := ?_, up := ?_, down := ?_, bound := ?_ }
  · intro r' hr'
    obtain ⟨r'', hr'', rfl⟩ := List.mem_map.1 hr'
    obtain ⟨hvm, hparent'⟩ := h.tidy.records r'' (List.mem_filter.1 hr'').1
    unfold ChildRecord.reparent
    split
    · exact ⟨hvm, hparent⟩
    · exact ⟨hvm, hparent'⟩
  · exact (Owners.pes_release ..).symm ▸ h.tidy.keys
  · intro c hc
    exact h.kept c (List.mem_filter.1 hc).1
  · exact h.apart.sublist (List.filter_sublist.map _)
  · show ((s.site.registry.children.filter _).map _).map _ = (s.held.filter _).map _
    rw [List.map_map]
    have hreparent : ChildRecord.entry ∘ ChildRecord.reparent r.vm r.parent = ChildRecord.entry :=
      funext fun r' => r'.entry_reparent _ _
    have hfilter := congrArg (List.filter (·.1 != r.vm)) h.entered
    rw [List.filter_map, List.filter_map] at hfilter
    rw [hreparent]
    exact hfilter
  · intro c hc
    exact h.whole c (List.mem_filter.1 hc).1
  · intro g hg
    obtain ⟨hstate, hmade, hother, t, htopology, hgpes, hkeys⟩ := h.up g hg
    refine ⟨hstate, hmade, fun c hc => hother c (List.mem_filter.1 hc).1, t, htopology, hgpes, ?_⟩
    exact (Owners.pes_release ..).trans hkeys
  · intro hnone
    rw [h.children_eq_nil_iff.2 (h.held_eq_nil hnone)] at record
    cases record
  · intro b hb hr
    obtain ⟨hgeneration, hvm, hlive⟩ := h.bound b hb hr
    refine ⟨hgeneration, hvm, fun heq g hg => ?_⟩
    rcases hlive heq g hg with hglobal | ⟨c, hc, hcvm, hcontext⟩
    · exact Or.inl hglobal
    -- A child with a PET that is bound has not ended, so it is not the one that goes.
    · refine Or.inr ⟨c, List.mem_filter.2 ⟨hc, ?_⟩, hcvm, hcontext⟩
      have hne : b.handle.vm.id ≠ r.vm := fun heq =>
        ended b hb hr (by rw [hcontext, ← heq]; rfl)
      simpa [hcvm] using hne

theorem change (h : s.Sound) (hc : s.Change s') : s'.Sound := by
  cases hc with
  | still registry next bindings made held => exact h.still registry next bindings made held
  | up c world net begun free found => exact h.raised begun found
  | down c net left => exact h.lowered left
  | launch entered live built depth parts launched => exact h.launched live built parts launched
  | retire net record ended => exact h.retired record ended

end Sound

/-- Every stage of a run is sound. -/
theorem Reachable.sound (h : Reachable env s) : s.Sound := by
  induction h with
  | start id config detected process unbound fresh => exact Sound.start _ _ _ _ unbound
  | step _ next ih => exact ih.change (next.change ih)

/-- What holds of sound stages at first and is kept by every change holds at every stage. -/
theorem Reachable.induction {P : Stage σ → Prop} (h : Reachable env s)
    (start : ∀ id config detected process, process.bindings.ofRegistry id = [] →
      P (Stage.start env.transport id config detected process))
    (change : ∀ s s', s.Sound → P s → s.Change s' → P s') : P s := by
  induction h with
  | start id config detected process unbound _ => exact start id config detected process unbound
  | step h next ih => exact change _ _ h.sound ih (next.change h.sound)

end Stage

/-! ### A run -/

/-- A transport that gives out communicators up to a number. -/
def Transport.limited (limit : Nat) : Transport Nat where
  name := "limited"
  init size n := (.ok ⟨n, size, n⟩, n + 1)
  derive _ size n :=
    if n < limit then (.ok ⟨n, size, n⟩, n + 1) else (.error (.unavailable "none left"), n)
  release _ n := (.ok (), n)
  finalize _ n := (.ok (), n)

/-- Nobody else uses the transport. -/
def Surroundings.limited (limit : Nat) : Surroundings Nat := ⟨.limited limit, (· = 0), Eq⟩

namespace Stage

variable {σ : Type} {env : Surroundings σ} {s : Stage σ}

/-- A context launches children by a plan for the VM it runs in. -/
def spawn (c : ExecutionContext) (count : Nat) (policy : SpawnPolicy) (s : Stage σ) : Stage σ :=
  match s.site.current c with
  | .ok h =>
    match SpawnPlan.build h count policy with
    | .ok plan => s.startup .ample c plan
    | .error _ => s
  | .error _ => s

/-- The child that is held longest is retired. -/
def retireOldest (s : Stage σ) : Stage σ :=
  match s.held with
  | [] => s
  | child :: _ => s.retire child

/-- A host of four cores. Two children are live, and a child of the first of them. -/
def nested (t : Transport σ) (net : σ) : Stage σ :=
  (((start t 1 {} 4 { net }).bringUp .main).spawn .main 2 .maxThreads).spawn (.pet 2 0) 1 .maxPes

/-- The plan for two children of the Global VM of this host. -/
def halves (world : Communicator) : SpawnPlan where
  parent := ⟨.ofTopology 1 (.uniform 1 4) world, 0⟩
  policy := .maxThreads
  slots := [{ partition := ⟨0, [⟨0, 0⟩, ⟨0, 1⟩]⟩ }, { partition := ⟨1, [⟨0, 2⟩, ⟨0, 3⟩]⟩ }]

/-- The PETs of the first child end, and it is retired before its own child. -/
def orphaned : Stage Nat :=
  (((nested (.limited 9) 0).endThread (.pet 2 0)).endThread (.pet 2 1)).retireOldest

theorem reachable_spawn (h : Reachable env s) (c : ExecutionContext) (count : Nat)
    (policy : SpawnPolicy) : Reachable env (s.spawn c count policy) := by
  unfold spawn
  split
  · next handle hcurrent =>
    split
    · next plan hbuild =>
      have hmade := h.sound.mem_made_of_live (h.sound.live_of_current hcurrent)
      exact h.step (.startup _ c ⟨handle, count, policy, hbuild, Or.inl hmade⟩)
    · exact h
  · exact h

theorem reachable_retireOldest (h : Reachable env s)
    (ended : ∀ child ∈ s.held.head?, s.Ended child) : Reachable env s.retireOldest := by
  unfold retireOldest
  split
  · exact h
  · next child _ hheld =>
    exact h.step (.retire (hheld ▸ List.mem_cons_self) (ended child (hheld ▸ rfl)))

theorem reachable_nested {net : σ} (fresh : env.fresh net) :
    Reachable env (nested env.transport net) := by
  have hstart := Reachable.start 1 {} 4 { net } rfl fresh
  have hup := hstart.step (.bringUp .main trivial)
  exact reachable_spawn (reachable_spawn hup _ _ _) _ _ _

theorem reachable_orphaned : Reachable (.limited 9) orphaned := by
  have hnested : Reachable (.limited 9) (nested (.limited 9) 0) := reachable_nested rfl
  have hended := (hnested.step (.endThread (.pet 2 0))).step (.endThread (.pet 2 1))
  exact reachable_retireOldest hended (by decide)

end Stage

end VirtualTopology
