import VirtualTopology.Proofs.Holding

/-!
# Two trees

The creation tree is written in the VMs and never changes. The tree of live VMs is written in the
table of children and changes with every retirement. They agree as far as they can: a live child
is entered as a child of its nearest ancestor in the creation tree that is still live.

## Main definitions

- `ancestor?`, `NearestLive`: ways up the creation tree.
- `RisesTo`: the way up the table of children.
- `Stage.Lineal`: the invariant.

## Main statements

- `Stage.Reachable.lineage`: the place of every live child in both trees.
-/

namespace VirtualTopology

/-- The VM so many steps up from another. -/
def ancestor? (creator : Nat → Option Nat) : Nat → Nat → Option Nat
  | 0, v => some v
  | n + 1, v => (creator v).bind (ancestor? creator n)

/-- The first live VM from `v` upwards. -/
inductive NearestLive (creator : Nat → Option Nat) (live : Nat → Prop) : Nat → Nat → Prop
  | here {v : Nat} (alive : live v) : NearestLive creator live v v
  | above {v w a : Nat} (gone : ¬ live v) (up : creator v = some w)
      (rest : NearestLive creator live w a) : NearestLive creator live v a

/-- From a VM the parents in the records go up to `top`, through ever smaller ids. -/
inductive RisesTo (records : List ChildRecord) (top : Nat) : Nat → Prop
  | top : RisesTo records top top
  | child {r : ChildRecord} (mem : r ∈ records) (below : r.parent < r.vm)
      (rest : RisesTo records top r.parent) : RisesTo records top r.vm

section Ways

variable {creator creator' : Nat → Option Nat} {live live' : Nat → Prop} {v a x p q : Nat}

theorem ancestor?_mono (hcreator : ∀ v w, creator v = some w → creator' v = some w) {n : Nat}
    (h : ancestor? creator n v = some a) : ancestor? creator' n v = some a := by
  induction n generalizing v with
  | zero => exact h
  | succ n ih =>
    obtain ⟨w, hw, hrest⟩ := Option.bind_eq_some_iff.1 h
    exact Option.bind_eq_some_iff.2 ⟨w, hcreator v w hw, ih hrest⟩

theorem ancestor?_add {n : Nat} (h : ancestor? creator n v = some a) (k : Nat) :
    ancestor? creator (n + k) v = ancestor? creator k a := by
  induction n generalizing v with
  | zero =>
    obtain rfl := Option.some.inj h
    rw [Nat.zero_add]
  | succ n ih =>
    obtain ⟨w, hw, hrest⟩ := Option.bind_eq_some_iff.1 h
    rw [Nat.succ_add, ancestor?, hw]
    exact ih hrest

/-- A VM without a creator is so many steps up in one way only. -/
theorem ancestor?_root_unique {n k : Nat} (hroot : creator a = none)
    (hn : ancestor? creator n v = some a) (hk : ancestor? creator k v = some a) : n = k := by
  have hnever : ∀ m, ancestor? creator (m + 1) a = none := fun m => by rw [ancestor?, hroot]; rfl
  rcases Nat.lt_trichotomy n k with hlt | heq | hgt
  · obtain ⟨m, rfl⟩ := Nat.exists_eq_add_of_lt hlt
    rw [Nat.add_assoc, ancestor?_add hn, hnever] at hk
    cases hk
  · exact heq
  · obtain ⟨m, rfl⟩ := Nat.exists_eq_add_of_lt hgt
    rw [Nat.add_assoc, ancestor?_add hk, hnever] at hn
    cases hn

namespace NearestLive

theorem alive (h : NearestLive creator live v a) : live a := by
  induction h with
  | here alive => exact alive
  | above _ _ _ ih => exact ih

theorem le (hdown : ∀ v w, creator v = some w → w < v) (h : NearestLive creator live v a) :
    a ≤ v := by
  induction h with
  | here => exact Nat.le_refl _
  | above _ up _ ih => exact Nat.le_trans ih (Nat.le_of_lt (hdown _ _ up))

/-- New VMs make no difference to the ways up from old ones. -/
theorem mono (hlive : ∀ v, live v → live' v)
    (hold : ∀ v w, creator v = some w → creator' v = some w ∧ (live' v → live v))
    (h : NearestLive creator live v a) : NearestLive creator' live' v a := by
  induction h with
  | here alive => exact .here (hlive _ alive)
  | above gone up _ ih =>
    obtain ⟨hup, hback⟩ := hold _ _ up
    exact .above (fun h => gone (hback h)) hup ih

/-- Ways that end elsewhere do not change when a VM goes. -/
theorem of_ne (hlive : ∀ v, live' v ↔ live v ∧ v ≠ x) (h : NearestLive creator live v a)
    (ha : a ≠ x) : NearestLive creator live' v a := by
  induction h with
  | here alive => exact .here ((hlive _).2 ⟨alive, ha⟩)
  | above gone up _ ih => exact .above (fun h => gone ((hlive _).1 h).1) up (ih ha)

/-- Ways that ended at the VM that goes end where its own way ended. -/
theorem of_eq (hlive : ∀ v, live' v ↔ live v ∧ v ≠ x) (hx : creator x = some p)
    (hp : NearestLive creator live p q) (hq : q ≠ x) (h : NearestLive creator live v x) :
    NearestLive creator live' v q := by
  induction h with
  | here _ => exact .above (fun h => ((hlive _).1 h).2 rfl) hx (hp.of_ne hlive hq)
  | above gone up _ ih => exact .above (fun h => gone ((hlive _).1 h).1) up (ih hlive hx hq)

end NearestLive

end Ways

namespace Stage

variable {σ : Type} {env : Surroundings σ} {s s' : Stage σ}

/-- The VM that a VM was spawned from. -/
def creator? (s : Stage σ) (id : Nat) : Option Nat := (s.made.find? (·.id == id)).bind Vm.parent

/-- The VM is the Global VM or in the table of children. -/
def IsLive (s : Stage σ) (id : Nat) : Prop :=
  (∃ g, s.site.registry.global = some g ∧ g.vm.id = id) ∨
    ∃ r ∈ s.site.registry.children, r.vm = id

theorem Sound.creator?_of_mem (h : s.Sound) {v : Vm} (hv : v ∈ s.made) :
    s.creator? v.id = v.parent := by
  rw [creator?, find?_eq_some_of_key h.distinct hv]
  rfl

theorem exists_of_creator? {v p : Nat} (h : s.creator? v = some p) :
    ∃ vm ∈ s.made, vm.id = v ∧ vm.parent = some p := by
  obtain ⟨vm, hfind, hparent⟩ := Option.bind_eq_some_iff.1 h
  exact ⟨vm, List.mem_of_find?_eq_some hfind, by simpa using List.find?_some hfind, hparent⟩

/-- VMs that are made later do not come before others. -/
theorem creator?_append {made : List Vm} (hmade : s'.made = s.made ++ made) {v p : Nat}
    (h : s.creator? v = some p) : s'.creator? v = some p := by
  obtain ⟨vm, hfind, hparent⟩ := Option.bind_eq_some_iff.1 h
  rw [creator?, hmade, List.find?_append, hfind]
  exact hparent

theorem Sound.isLive_of_live (h : s.Sound) {v : Vm} (hv : s.Live v) : s.IsLive v.id := by
  rcases hv with ⟨g, hg, rfl⟩ | ⟨c, hc, rfl⟩
  · exact Or.inl ⟨g, hg, rfl⟩
  · obtain ⟨r, hr, hvm, _⟩ := h.exists_record hc
    exact Or.inr ⟨r, hr, hvm⟩

theorem Sound.live_of_isLive (h : s.Sound) {id : Nat} (hid : s.IsLive id) :
    ∃ v, s.Live v ∧ v.id = id := by
  rcases hid with ⟨g, hg, rfl⟩ | ⟨r, hr, rfl⟩
  · exact ⟨g.vm, Or.inl ⟨g, hg, rfl⟩, rfl⟩
  · obtain ⟨c, hc, hvm, _⟩ := h.exists_held hr
    exact ⟨c.vm, Or.inr ⟨c, hc, rfl⟩, hvm⟩

/-- The creation tree, and where the live VMs are in it. -/
structure Lineal (s : Stage σ) : Prop where
  roots : ∀ v ∈ s.made, v.parent = none → v.depth = 0
  branches : ∀ v ∈ s.made, ∀ p, v.parent = some p →
    ∃ w ∈ s.made, w.id = p ∧ p < v.id ∧ v.depth = w.depth + 1 ∧ v.depth ≤ Limits.maxSpawnDepth
  top : ∀ g, s.site.registry.global = some g → g.vm.parent = none
  steps : ∀ g, s.site.registry.global = some g →
    ∀ c ∈ s.held, ancestor? s.creator? c.vm.depth c.vm.id = some g.vm.id
  nearest : ∀ r ∈ s.site.registry.children,
    ∃ p, s.creator? r.vm = some p ∧ NearestLive s.creator? s.IsLive p r.parent

namespace Lineal

variable {c : ExecutionContext} {t : Topology} {world : Communicator} {net : σ}

theorem creator?_lt (h : s.Lineal) (v w : Nat) (hw : s.creator? v = some w) : w < v := by
  obtain ⟨vm, hvm, rfl, hparent⟩ := exists_of_creator? hw
  obtain ⟨_, _, _, hlt, _⟩ := h.branches vm hvm w hparent
  exact hlt

theorem parent_lt (h : s.Lineal) {r : ChildRecord} (hr : r ∈ s.site.registry.children) :
    r.parent < r.vm := by
  obtain ⟨p, hp, hnearest⟩ := h.nearest r hr
  exact Nat.lt_of_le_of_lt (hnearest.le h.creator?_lt) (h.creator?_lt _ _ hp)

theorem raised (h : s.Lineal) (sound : s.Sound) (free : s.site.registry.global = none) :
    (s.raised c t world net).Lineal := by
  have hheld := sound.held_eq_nil free
  have hchildren := sound.children_eq_nil_iff.2 hheld
  refine { roots := ?_, branches := ?_, top := ?_, steps := ?_, nearest := ?_ }
  · intro v hv hroot
    cases List.mem_append.1 hv with
    | inl hv => exact h.roots v hv hroot
    | inr hv =>
      rw [List.mem_singleton.1 hv]
      rfl
  · intro v hv p hparent
    cases List.mem_append.1 hv with
    | inl hv =>
      obtain ⟨w, hw, hrest⟩ := h.branches v hv p hparent
      exact ⟨w, List.mem_append_left _ hw, hrest⟩
    | inr hv =>
      rw [List.mem_singleton.1 hv] at hparent
      cases hparent
  · intro g hg
    rw [← Option.some.inj hg]
    rfl
  · intro g _ c hc
    change c ∈ s.held at hc
    rw [hheld] at hc
    cases hc
  · intro r hr
    change r ∈ s.site.registry.children at hr
    rw [hchildren] at hr
    cases hr

theorem launched {plan : SpawnPlan} {children : List LaunchedChild} {after : Site σ}
    {entered : List ExecutionContext} (h : s.Lineal) (sound : s.Sound)
    (sound' : (s.launched plan.parent.vm children after entered).Sound)
    (live : s.Live plan.parent.vm) (depth : plan.parent.vm.depth < Limits.maxSpawnDepth)
    (hlaunched : s.site.Launched plan.parent.vm plan.policy children after) :
    (s.launched plan.parent.vm children after entered).Lineal := by
  have hparent := sound.mem_made_of_live live
  have hchild : ∀ c ∈ children, c.vm.parent = some plan.parent.vm.id ∧
      c.vm.depth = plan.parent.vm.depth + 1 := by
    intro c hc
    rw [hlaunched.built c hc]
    exact ⟨rfl, rfl⟩
  have hnew : ∀ c ∈ children, s.site.nextVm ≤ c.vm.id := fun c hc => (hlaunched.fresh c hc).1
  have hcreator : ∀ c ∈ children,
      (s.launched plan.parent.vm children after entered).creator? c.vm.id =
        some plan.parent.vm.id := by
    intro c hc
    rw [sound'.creator?_of_mem (List.mem_append_right _ (List.mem_map_of_mem hc))]
    exact (hchild c hc).1
  have hmono : ∀ v w, s.creator? v = some w →
      (s.launched plan.parent.vm children after entered).creator? v = some w := fun v w =>
    creator?_append rfl
  refine { roots := ?_, branches := ?_, top := h.top, steps := ?_, nearest := ?_ }
  · intro v hv hroot
    cases List.mem_append.1 hv with
    | inl hv => exact h.roots v hv hroot
    | inr hv =>
      obtain ⟨c, hc, rfl⟩ := List.mem_map.1 hv
      rw [(hchild c hc).1] at hroot
      cases hroot
  · intro v hv p hp
    cases List.mem_append.1 hv with
    | inl hv =>
      obtain ⟨w, hw, hrest⟩ := h.branches v hv p hp
      exact ⟨w, List.mem_append_left _ hw, hrest⟩
    | inr hv =>
      obtain ⟨c, hc, rfl⟩ := List.mem_map.1 hv
      obtain ⟨hvmparent, hdepth⟩ := hchild c hc
      obtain rfl := Option.some.inj (hvmparent.symm.trans hp)
      refine ⟨plan.parent.vm, List.mem_append_left _ hparent, rfl, ?_, hdepth, ?_⟩
      · exact Nat.lt_of_lt_of_le (sound.ids _ hparent) (hnew c hc)
      · rw [hdepth]
        exact depth
  · intro g hg c hc
    have hglobal : s.site.registry.global = some g := hg
    -- A new child is one step below its parent, which is the Global VM or so many steps below it.
    have hup : ancestor? s.creator? plan.parent.vm.depth plan.parent.vm.id = some g.vm.id := by
      rcases live with ⟨g', hg', hvm⟩ | ⟨c', hc', hvm⟩
      · obtain rfl := Option.some.inj (hg'.symm.trans hglobal)
        rw [← hvm, h.roots _ (sound.global_mem_made hg') (h.top g' hg')]
        rfl
      · rw [← hvm]
        exact h.steps g hglobal c' hc'
    cases List.mem_append.1 hc with
    | inl hc => exact ancestor?_mono hmono (h.steps g hglobal c hc)
    | inr hc =>
      rw [(hchild c hc).2, ancestor?, hcreator c hc]
      exact ancestor?_mono hmono hup
  · intro r hr
    cases List.mem_append.1 hr with
    | inl hr =>
      obtain ⟨p, hp, hnearest⟩ := h.nearest r hr
      refine ⟨p, hmono _ _ hp, hnearest.mono ?_ ?_⟩
      -- No new VM is on the way up from an old one.
      · rintro v (hglobal | ⟨r', hr', hvm⟩)
        · exact Or.inl hglobal
        · exact Or.inr ⟨r', List.mem_append_left _ hr', hvm⟩
      · intro v w hw
        refine ⟨hmono v w hw, ?_⟩
        rintro (hglobal | ⟨r', hr', hvm⟩)
        · exact Or.inl hglobal
        · cases List.mem_append.1 hr' with
          | inl hr' => exact Or.inr ⟨r', hr', hvm⟩
          | inr hr' =>
            obtain ⟨c, hc, rfl⟩ := List.mem_map.1 hr'
            obtain ⟨vm, hmade, hid, _⟩ := exists_of_creator? hw
            have hold := sound.ids vm hmade
            have hfresh := hnew c hc
            change c.vm.id = v at hvm
            omega
    | inr hr =>
      obtain ⟨c, hc, rfl⟩ := List.mem_map.1 hr
      refine ⟨plan.parent.vm.id, hcreator c hc, .here ?_⟩
      rcases sound.isLive_of_live live with hglobal | ⟨r', hr', hvm⟩
      · exact Or.inl hglobal
      · exact Or.inr ⟨r', List.mem_append_left _ hr', hvm⟩

theorem retired {r : ChildRecord} (h : s.Lineal) (sound : s.Sound)
    (record : r ∈ s.site.registry.children) : (s.retired r net).Lineal := by
  obtain ⟨child, hchild, hvm, _⟩ := sound.exists_held record
  have hlive : ∀ v, (s.retired r net).IsLive v ↔ s.IsLive v ∧ v ≠ r.vm := by
    intro v
    constructor
    · rintro (⟨g, hg, rfl⟩ | ⟨r', hr', rfl⟩)
      · exact ⟨Or.inl ⟨g, hg, rfl⟩, hvm ▸ (sound.ne_global hg hchild).symm⟩
      · obtain ⟨r'', hr'', rfl⟩ := List.mem_map.1 hr'
        obtain ⟨hmem, hne⟩ := List.mem_filter.1 hr''
        rw [ChildRecord.vm_reparent]
        exact ⟨Or.inr ⟨r'', hmem, rfl⟩, by simpa using hne⟩
    · rintro ⟨hglobal | ⟨r', hr', rfl⟩, hne⟩
      · exact Or.inl hglobal
      · refine Or.inr ⟨r'.reparent r.vm r.parent, ?_, r'.vm_reparent _ _⟩
        exact List.mem_map_of_mem (List.mem_filter.2 ⟨hr', by simpa using hne⟩)
  obtain ⟨p, hp, hnearest⟩ := h.nearest r record
  have hne : r.parent ≠ r.vm := Nat.ne_of_lt (h.parent_lt record)
  refine { roots := h.roots, branches := h.branches, top := h.top, steps := ?_, nearest := ?_ }
  · intro g hg c hc
    exact h.steps g hg c (List.mem_filter.1 hc).1
  · intro r' hr'
    obtain ⟨r'', hr'', rfl⟩ := List.mem_map.1 hr'
    obtain ⟨p', hp', hnearest'⟩ := h.nearest r'' (List.mem_filter.1 hr'').1
    refine ⟨p', (congrArg _ (r''.vm_reparent r.vm r.parent)).trans hp', ?_⟩
    -- Children of the VM that goes move to where its own way up ends.
    unfold ChildRecord.reparent
    split
    · next hparent =>
      rw [hparent] at hnearest'
      exact NearestLive.of_eq hlive hp hnearest hne hnearest'
    · next hparent => exact hnearest'.of_ne hlive hparent

theorem change (h : s.Lineal) (sound : s.Sound) (hc : s.Change s') : s'.Lineal := by
  have sound' := sound.change hc
  cases hc with
  | still registry _ _ made held =>
    have hcreator : s'.creator? = s.creator? := by
      funext id
      rw [creator?, creator?, made]
    have hlive : s'.IsLive = s.IsLive := by
      funext id
      rw [IsLive, IsLive, registry]
    refine { roots := ?_, branches := ?_, top := ?_, steps := ?_, nearest := ?_ } <;>
      simp only [registry, made, held, hcreator, hlive]
    · exact h.roots
    · exact h.branches
    · exact h.top
    · exact h.steps
    · exact h.nearest
  | up c world net begun free found => exact h.raised sound free
  | down c net left =>
    refine { roots := h.roots, branches := h.branches, top := ?_, steps := ?_, nearest := ?_ }
    · intro g hg
      cases hg
    · intro g hg
      cases hg
    · intro r hr
      change r ∈ s.site.registry.children at hr
      rw [left] at hr
      cases hr
  | launch entered live built depth parts launched =>
    exact h.launched sound sound' live depth launched
  | retire net record ended => exact h.retired sound record

end Lineal

theorem Reachable.lineal (h : Reachable env s) : s.Lineal := by
  refine h.induction (fun _ _ _ _ _ => ?_) fun _ _ sound ih hc => ih.change sound hc
  constructor <;> simp [Stage.start]

/-- The parents in the records lead up to the Global VM. -/
theorem Reachable.risesTo (h : Reachable env s) {g : VmHandle}
    (hg : s.site.registry.global = some g) {id : Nat} (hid : s.IsLive id) :
    RisesTo s.site.registry.children g.vm.id id := by
  -- Parents in records are live and have smaller ids.
  induction id using Nat.strongRecOn with
  | ind id ih =>
    rcases hid with ⟨g', hg', rfl⟩ | ⟨r, hr, rfl⟩
    · obtain rfl := Option.some.inj (hg'.symm.trans hg)
      exact .top
    · obtain ⟨p, _, hnearest⟩ := h.lineal.nearest r hr
      have hlt := h.lineal.parent_lt hr
      exact .child hr hlt (ih r.parent hlt hnearest.alive)

theorem Sound.pes_of_live (h : s.Sound) {v : Vm} (hv : s.Live v) {r : ChildRecord}
    (hr : r ∈ s.site.registry.children) (hid : r.vm = v.id) : r.pes = v.pes := by
  obtain ⟨c, hc, hcid, hcpes⟩ := h.exists_held hr
  have hcv : c.vm = v := h.eq_of_id (h.kept c hc) (h.mem_made_of_live hv) (hcid.trans hid)
  rw [← hcv, (h.whole c hc).1, hcpes]

/-- A child has no elements but those of the live VM it is entered under. -/
theorem Reachable.pes_subset (h : Reachable env s) {g : VmHandle}
    (hg : s.site.registry.global = some g) {r : ChildRecord}
    (hr : r ∈ s.site.registry.children) : ∃ w, s.Live w ∧ w.id = r.parent ∧ r.pes ⊆ w.pes := by
  obtain ⟨_, _, hnearest⟩ := h.lineal.nearest r hr
  obtain ⟨w, hw, hid⟩ := h.sound.live_of_isLive hnearest.alive
  refine ⟨w, hw, hid, fun pe hpe => ?_⟩
  obtain ⟨hkeys, line, hline, hmem⟩ := h.exists_line hg hr hpe
  cases List.mem_cons.1 (hline.descends.parent_mem r hmem) with
  | inl hglobal =>
    obtain ⟨_, hmade, _, t, _, hpes, howners⟩ := h.sound.up g hg
    have hwg : w = g.vm := h.sound.eq_of_id (h.sound.mem_made_of_live hw) hmade (hid.trans hglobal)
    rw [hwg, hpes, ← howners]
    exact hkeys
  | inr hparent =>
    obtain ⟨r', hr', hvm⟩ := List.mem_map.1 hparent
    obtain ⟨hmem', hpe'⟩ := (hline.mem r').1 hr'
    exact h.sound.pes_of_live hw hmem' (hvm.trans hid.symm) ▸ hpe'

/-- While a registry is up, the parent in the record of a live child is its nearest live ancestor
in the creation tree. Parents in records lead to the Global VM through ever smaller ids. A child
holds what its VM lists, which is part of what its parent lists and apart from what other children
of that parent list, and its depth is the number of steps from the Global VM. -/
theorem Reachable.lineage (h : Reachable env s) (up : s.site.registry.state = .initialized) :
    ∃ g, s.site.registry.global = some g ∧ ∀ r ∈ s.site.registry.children,
      ∃ v ∈ s.made, v.id = r.vm ∧
        (∃ p, v.parent = some p ∧ NearestLive s.creator? s.IsLive p r.parent) ∧
        RisesTo s.site.registry.children g.vm.id r.vm ∧
        r.pes = v.pes ∧
        (∃ w, s.Live w ∧ w.id = r.parent ∧ r.pes ⊆ w.pes) ∧
        (∀ r' ∈ s.site.registry.children, r' ≠ r → r'.parent = r.parent →
          r.pes.Disjoint r'.pes) ∧
        (∀ n, ancestor? s.creator? n r.vm = some g.vm.id ↔ n = v.depth) ∧
        1 ≤ v.depth ∧ v.depth ≤ Limits.maxSpawnDepth := by
  obtain ⟨g, hglobal⟩ := h.sound.exists_global up
  refine ⟨g, hglobal, fun r hr => ?_⟩
  obtain ⟨c, hc, hid, _⟩ := h.sound.exists_held hr
  have hmade := h.sound.kept c hc
  obtain ⟨p, hp, hnearest⟩ := h.lineal.nearest r hr
  have hparent : c.vm.parent = some p := by
    rw [← h.sound.creator?_of_mem hmade, hid, hp]
  obtain ⟨w, _, _, _, hdepth, hmax⟩ := h.lineal.branches c.vm hmade p hparent
  have hroot : s.creator? g.vm.id = none := by
    rw [h.sound.creator?_of_mem (h.sound.global_mem_made hglobal)]
    exact h.lineal.top g hglobal
  have hsteps : ancestor? s.creator? c.vm.depth r.vm = some g.vm.id :=
    hid ▸ h.lineal.steps g hglobal c hc
  refine ⟨c.vm, hmade, hid, ⟨p, hparent, hnearest⟩, h.risesTo hglobal (Or.inr ⟨r, hr, rfl⟩), ?_,
    h.pes_subset hglobal hr, ?_, ?_, by omega, hmax⟩
  · exact h.sound.pes_of_live (Or.inr ⟨c, hc, rfl⟩) hr hid.symm
  · intro r' hr' hne heq pe hpe hpe'
    obtain ⟨_, line, hline, hmem⟩ := h.exists_line hglobal hr hpe
    have hmem' : r' ∈ line := (hline.mem r').2 ⟨hr', hpe'⟩
    exact hne (hline.descends.eq_of_parent hline.distinct r' hmem' r hmem heq)
  · intro n
    constructor
    · intro hn
      exact ancestor?_root_unique hroot hn hsteps
    · rintro rfl
      exact hsteps

/-- A child that outlived its creator has moved up to the creator's parent. -/
theorem lineage_orphaned :
    orphaned.site.registry.state = .initialized ∧
    orphaned.creator? 4 = some 2 ∧
    (orphaned.site.registry.child? 4).map ChildRecord.parent = some 1 ∧
    ∃ g, orphaned.site.registry.global = some g ∧ ∀ r ∈ orphaned.site.registry.children,
      ∃ v ∈ orphaned.made, v.id = r.vm ∧
        (∃ p, v.parent = some p ∧ NearestLive orphaned.creator? orphaned.IsLive p r.parent) ∧
        RisesTo orphaned.site.registry.children g.vm.id r.vm ∧
        r.pes = v.pes ∧
        (∃ w, orphaned.Live w ∧ w.id = r.parent ∧ r.pes ⊆ w.pes) ∧
        (∀ r' ∈ orphaned.site.registry.children, r' ≠ r → r'.parent = r.parent →
          r.pes.Disjoint r'.pes) ∧
        (∀ n, ancestor? orphaned.creator? n r.vm = some g.vm.id ↔ n = v.depth) ∧
        1 ≤ v.depth ∧ v.depth ≤ Limits.maxSpawnDepth :=
  ⟨rfl, by decide, by decide, Reachable.lineage reachable_orphaned rfl⟩

end Stage

end VirtualTopology
