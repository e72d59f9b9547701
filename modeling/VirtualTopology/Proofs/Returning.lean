import Mathlib.Logic.Relation
import VirtualTopology.Proofs.Admission

/-!
# Retirement in any order

Two children that retire one after the other leave the same registry behind whichever goes first.
If the parent goes first, its child becomes a child of the grandparent and gives its elements back
there; if the child goes first, its elements pass through the parent. Both come to the same because
a child holds nothing that its parent in the table does not list, and no two children are entered
below each other.

## Main definitions

- `Registry.Nested`: what the tables need for that; every retirement keeps it.
- `Site.Vacant`: everything is the Global VM's, which can be taken down.

## Main statements

- `Site.retire_comm`, `Site.retireAll_eq_of_perm`: two retirements, and any number of them.
- `Stage.Reachable.retire_any_order`: retirements at every stage of a run.
-/

namespace VirtualTopology

/-! ### Records and holders -/

theorem ChildRecord.parent_reparent (vm parent : Nat) (r : ChildRecord) :
    (r.reparent vm parent).parent = if r.parent = vm then parent else r.parent := by
  unfold reparent
  split <;> rfl

/-- Taking two VMs out of the way up from a record, one after the other. -/
theorem ChildRecord.reparent_comm {a b : ChildRecord} (ha : a.parent < a.vm)
    (hb : b.parent < b.vm) (hne : a.vm ≠ b.vm) (r : ChildRecord) :
    (r.reparent a.vm a.parent).reparent b.vm (b.reparent a.vm a.parent).parent =
      (r.reparent b.vm b.parent).reparent a.vm (a.reparent b.vm b.parent).parent := by
  -- Neither is below the other twice, so at most one of the two has the other as its parent.
  have hloop : a.parent = b.vm → b.parent ≠ a.vm := by omega
  unfold ChildRecord.reparent
  by_cases hra : r.parent = a.vm
  · have hrb : r.parent ≠ b.vm := hra ▸ hne
    by_cases hab : a.parent = b.vm
    · simp [hra, hab, hne, hloop hab]
    · simp [hra, hab, hne]
  · by_cases hrb : r.parent = b.vm
    · by_cases hba : b.parent = a.vm
      · have hab : a.parent ≠ b.vm := fun hab => hloop hab hba
        simp [hrb, hba, hab, hne.symm]
      · simp [hrb, hba, hne.symm]
    · simp [hra, hrb]

/-- The table without a child; children of the child have moved up to its parent. -/
def ChildRecord.leave (r : ChildRecord) (records : List ChildRecord) : List ChildRecord :=
  (records.filter (·.vm != r.vm)).map (ChildRecord.reparent r.vm r.parent)

theorem ChildRecord.leave_comm {a b : ChildRecord} (ha : a.parent < a.vm) (hb : b.parent < b.vm)
    (hne : a.vm ≠ b.vm) (records : List ChildRecord) :
    (b.reparent a.vm a.parent).leave (a.leave records) =
      (a.reparent b.vm b.parent).leave (b.leave records) := by
  have hvm : ∀ x p k : Nat, ((·.vm != k) ∘ ChildRecord.reparent x p : ChildRecord → Bool) =
      (·.vm != k) := fun x p k => funext fun r => by simp
  simp only [leave, List.filter_map, hvm, vm_reparent, List.filter_filter, List.map_map,
    Bool.and_comm]
  exact List.map_congr_left fun r _ => reparent_comm ha hb hne r

/-- Giving back the elements of two VMs, one after the other. What the first gives to the second
must be listed by the second. -/
theorem Owners.release_comm {a b pa pb : Nat} {as bs : List Pe} {o : Owners} (hn : o.pes.Nodup)
    (hne : a ≠ b) (hloop : pa = b → pb ≠ a) (hab : pa = b → as ⊆ bs) (hba : pb = a → bs ⊆ as) :
    (o.release a pa as).release b (if pb = a then pa else pb) bs =
      (o.release b pb bs).release a (if pa = b then pb else pa) as := by
  refine Owners.ext_of_nodup (by simp) (by simpa using hn) fun q => ?_
  simp only [Owners.owner?_release]
  by_cases hqa : q ∈ as ∧ o.owner? q = some a
  · have hqb : ¬ (q ∈ bs ∧ o.owner? q = some b) := by
      rintro ⟨_, heq⟩
      exact hne (Option.some.inj (hqa.2.symm.trans heq))
    rw [if_pos hqa, if_neg hqb, if_pos hqa]
    by_cases hpa : pa = b
    · simp [hpa, hab hpa hqa.1, hloop hpa]
    · simp [hpa]
  · by_cases hqb : q ∈ bs ∧ o.owner? q = some b
    · rw [if_neg hqa, if_pos hqb, if_pos hqb]
      by_cases hpb : pb = a
      · have hpa : pa ≠ b := fun hpa => hloop hpa hpb
        simp [hpb, hpa, hba hpb hqb.1]
      · simp [hpb]
    · simp [hqa, hqb]

theorem Fabric.close_comm (f : Fabric) (c d : Communicator) :
    (f.close c).close d = (f.close d).close c := by
  by_cases h : c.mesh = d.mesh
  · simp only [close, setMesh, h]
  · simp only [close, setMesh, Array.setIfInBounds_comm _ _ h]

/-- Of two communicators that are taken back it does not matter which is the first. -/
def Transport.ReleasesCommute {σ : Type} (t : Transport σ) : Prop :=
  ∀ c d net, (t.release d (t.release c net).2).2 = (t.release c (t.release d net).2).2

namespace LocalTransport

/-- What is left of a transport that took back the communicator of a number. -/
theorem release_snd (c : Communicator) (net : Fabric × LocalTransport) :
    (release c net).2 = (net.1.closeAll (net.2.find? c.id).toList,
      { net.2 with live := net.2.live.filter (·.id != c.id) }) := by
  obtain ⟨f, t⟩ := net
  cases hfind : t.find? c.id with
  | some found =>
    simp only [release, hfind]
    rfl
  | none =>
    have hself : t.live.filter (·.id != c.id) = t.live := by
      rw [List.filter_eq_self]
      simpa [find?] using hfind
    simp only [release, hfind, hself]
    rfl

theorem releasesCommute : transport.ReleasesCommute := by
  intro a b net
  show (release b (release a net).2).2 = (release a (release b net).2).2
  by_cases hid : a.id = b.id
  · have hsame : ∀ net : Fabric × LocalTransport, (release a net).2 = (release b net).2 := by
      intro net
      rw [release_snd, release_snd, hid]
    rw [hsame, hsame]
  · have hfind : ∀ (live : List Communicator) {i j : Nat}, i ≠ j →
        (live.filter (·.id != i)).find? (·.id == j) = live.find? (·.id == j) := by
      intro live i j hij
      rw [List.find?_filter]
      congr 1
      funext c
      by_cases hc : c.id = j
      · simp [hc, hij.symm]
      · simp [hc]
    simp only [release_snd, find?, hfind _ hid, hfind _ (Ne.symm hid)]
    congr 1
    · cases net.2.live.find? (·.id == a.id) with
      | none => rfl
      | some c =>
        cases net.2.live.find? (·.id == b.id) with
        | none => rfl
        | some d => exact net.1.close_comm c d
    · simp only [List.filter_filter, Bool.and_comm]

end LocalTransport

/-! ### Tables -/

/-- No element has two holders, no child has two records, and a child is entered below a VM that is
older and, if it is a live child itself, lists all that the child lists. -/
structure Registry.Nested {σ : Type} (r : Registry σ) : Prop where
  keys : r.owners.pes.Nodup
  apart : (r.children.map ChildRecord.vm).Nodup
  below : ∀ c ∈ r.children, c.parent < c.vm
  inside : ∀ c ∈ r.children, ∀ p ∈ r.children, c.parent = p.vm → c.pes ⊆ p.pes

namespace Site

variable {σ : Type} {s : Site σ} {a b vm : Vm} {r : ChildRecord}

/-- Other tables, and another state of the transport. -/
def withTables (s : Site σ) (owners : Owners) (children : List ChildRecord) (net : σ) : Site σ :=
  { s with net, registry := { s.registry with owners, children } }

theorem retire_of_child?_eq_none (h : s.registry.child? vm.id = none) : s.retire vm = s := by
  unfold retire
  rw [h]

theorem transport_retire (s : Site σ) (vm : Vm) :
    (s.retire vm).registry.transport = s.registry.transport := by
  obtain ⟨_, _, _, h⟩ := s.exists_tables_retire vm
  rw [h]

theorem retire_eq_withTables (h : s.registry.child? vm.id = some r) :
    s.retire vm = s.withTables (s.registry.owners.release r.vm r.parent r.pes)
      (r.leave s.registry.children) (s.registry.transport.release vm.communicator s.net).2 := by
  have hvm : r.vm = vm.id := by simpa using List.find?_some h
  rw [retire_of_child? h, ← hvm]
  rfl

/-- Once another VM has retired, a child has its record with the parent that came of it. -/
theorem child?_retire (hne : a.id ≠ b.id) (hb : s.registry.child? b.id = some r) :
    (s.retire b).registry.child? a.id =
      (s.registry.child? a.id).map (ChildRecord.reparent r.vm r.parent) := by
  have hvm : r.vm = b.id := by simpa using List.find?_some hb
  rw [retire_eq_withTables hb]
  simp only [Registry.child?, withTables, ChildRecord.leave, List.find?_map, List.find?_filter]
  congr 2
  funext c
  by_cases hc : c.vm = a.id
  · simp [hc, hvm, hne]
  · simp [hc]

theorem nested_retire (h : s.registry.Nested) (vm : Vm) : (s.retire vm).registry.Nested := by
  cases hr : s.registry.child? vm.id with
  | none => rwa [retire_of_child?_eq_none hr]
  | some r =>
    have hmem := List.mem_of_find?_eq_some hr
    rw [retire_eq_withTables hr]
    refine ⟨(Owners.pes_release ..).symm ▸ h.keys, ?_, ?_, ?_⟩
    · show ((r.leave s.registry.children).map ChildRecord.vm).Nodup
      have hvms : ChildRecord.vm ∘ ChildRecord.reparent r.vm r.parent = ChildRecord.vm :=
        funext fun c => c.vm_reparent _ _
      rw [ChildRecord.leave, List.map_map, hvms]
      exact h.apart.sublist (List.filter_sublist.map _)
    · intro c hc
      obtain ⟨old, hold, rfl⟩ := List.mem_map.1 hc
      have hbelow := h.below old (List.mem_filter.1 hold).1
      unfold ChildRecord.reparent
      split
      · next hparent => exact Nat.lt_trans (hparent ▸ h.below r hmem) hbelow
      · exact hbelow
    · intro c hc p hp hparent
      obtain ⟨c, hold, rfl⟩ := List.mem_map.1 hc
      obtain ⟨p, hold', rfl⟩ := List.mem_map.1 hp
      have hc := (List.mem_filter.1 hold).1
      have hp := (List.mem_filter.1 hold').1
      rw [ChildRecord.vm_reparent] at hparent
      rw [ChildRecord.pes_reparent, ChildRecord.pes_reparent]
      -- A child that moved up was inside the VM that went, which was inside its own parent.
      unfold ChildRecord.reparent at hparent
      split at hparent
      · next hmoved =>
        exact List.Subset.trans (h.inside c hc r hmem hmoved) (h.inside r hmem p hp hparent)
      · exact h.inside c hc p hp hparent

theorem retire_comm (h : s.registry.Nested) (ht : s.registry.transport.ReleasesCommute)
    (hid : a.id = b.id → a = b) : (s.retire a).retire b = (s.retire b).retire a := by
  by_cases hab : a.id = b.id
  · rw [hid hab]
  cases ha : s.registry.child? a.id with
  | none =>
    rw [retire_of_child?_eq_none ha]
    cases hb : s.registry.child? b.id with
    | none => rw [retire_of_child?_eq_none hb, retire_of_child?_eq_none ha]
    | some rb =>
      have hgone : (s.retire b).registry.child? a.id = none := by
        rw [child?_retire hab hb, ha]
        rfl
      rw [retire_of_child?_eq_none hgone]
  | some ra =>
    cases hb : s.registry.child? b.id with
    | none =>
      have hgone : (s.retire a).registry.child? b.id = none := by
        rw [child?_retire (Ne.symm hab) ha, hb]
        rfl
      rw [retire_of_child?_eq_none hgone, retire_of_child?_eq_none hb]
    | some rb =>
      have hra := List.mem_of_find?_eq_some ha
      have hrb := List.mem_of_find?_eq_some hb
      have hva : ra.vm = a.id := by simpa using List.find?_some ha
      have hvb : rb.vm = b.id := by simpa using List.find?_some hb
      have hne : ra.vm ≠ rb.vm := hva ▸ hvb ▸ hab
      have hbelow := h.below ra hra
      have hbelow' := h.below rb hrb
      have hb' := (child?_retire (Ne.symm hab) ha).trans (congrArg _ hb)
      have ha' := (child?_retire hab hb).trans (congrArg _ ha)
      have howners := Owners.release_comm h.keys hne (by omega) (h.inside ra hra rb hrb)
        (h.inside rb hrb ra hra)
      rw [retire_eq_withTables hb', retire_eq_withTables ha', retire_eq_withTables ha,
        retire_eq_withTables hb]
      simp only [withTables, ChildRecord.vm_reparent, ChildRecord.pes_reparent,
        ChildRecord.parent_reparent]
      rw [howners, ChildRecord.leave_comm hbelow hbelow' hne, ht a.communicator b.communicator]

theorem retireAll_eq_of_perm {order order' : List LaunchedChild} (h : s.registry.Nested)
    (ht : s.registry.transport.ReleasesCommute)
    (hid : ∀ c ∈ order, ∀ c' ∈ order, c.vm.id = c'.vm.id → c.vm = c'.vm)
    (hp : order.Perm order') : s.retireAll order = s.retireAll order' := by
  induction hp generalizing s with
  | nil => rfl
  | cons c _ ih =>
    refine ih (nested_retire h c.vm) ((transport_retire s c.vm).symm ▸ ht) ?_
    intro d hd d' hd'
    exact hid d (List.mem_cons_of_mem _ hd) d' (List.mem_cons_of_mem _ hd')
  | swap c d rest =>
    show ((s.retire d.vm).retire c.vm).retireAll rest = ((s.retire c.vm).retire d.vm).retireAll rest
    rw [retire_comm h ht (hid d List.mem_cons_self c (List.mem_cons_of_mem _ List.mem_cons_self))]
  | trans hp _ ih ih' =>
    refine (ih h ht hid).trans (ih' h ht ?_)
    intro d hd d' hd'
    exact hid d (hp.mem_iff.2 hd) d' (hp.mem_iff.2 hd')

/-- There are no children, all elements of the host are the Global VM's, and it can be taken
down. -/
structure Vacant (s : Site σ) : Prop where
  children : s.registry.children = []
  owners : ∃ g t, s.registry.global = some g ∧ s.registry.topology = some t ∧
    ∀ pe ∈ t.pes, s.registry.owner? pe = some g.vm.id
  ends : ∀ c, (s.takeDown c).1 = .ok ()

/-- What others of the process do makes no difference. -/
theorem Vacant.of_registry {s' : Site σ} (h : s.Vacant) (hr : s'.registry = s.registry) :
    s'.Vacant where
  children := hr ▸ h.children
  owners := hr ▸ h.owners
  ends c := by
    have hends := h.ends c
    unfold takeDown at hends ⊢
    rw [hr]
    cases hg : s.registry.global with
    | none => simp [hg] at hends
    | some g => simp [h.children]

/-- Retirements ask for no thread. -/
theorem retireAll_bindings (s : Site σ) (b : Bindings) (children : List LaunchedChild) :
    ({ s with bindings := b } : Site σ).retireAll children =
      { s.retireAll children with bindings := b } := by
  induction children generalizing s with
  | nil => rfl
  | cons c children ih =>
    have hretire : ({ s with bindings := b } : Site σ).retire c.vm =
        { s.retire c.vm with bindings := b } := by
      have hchild : ({ s with bindings := b } : Site σ).registry.child? c.vm.id =
          s.registry.child? c.vm.id := rfl
      unfold retire
      rw [hchild]
      cases s.registry.child? c.vm.id <;> rfl
    show (({ s with bindings := b } : Site σ).retire c.vm).retireAll children = _
    rw [hretire]
    exact ih (s.retire c.vm)

theorem state_retireAll (s : Site σ) (children : List LaunchedChild) :
    (s.retireAll children).registry.state = s.registry.state := by
  obtain ⟨_, _, _, h⟩ := s.exists_tables_retireAll children
  rw [h]

end Site

/-! ### Runs -/

namespace Stage

variable {σ : Type} {env : Surroundings σ} {s : Stage σ}

theorem Reachable.nested (h : Reachable env s) : s.site.registry.Nested where
  keys := h.sound.tidy.keys
  apart := h.sound.records_apart
  below _ hc := h.lineal.parent_lt hc
  inside c hc p hp hparent := by
    obtain ⟨child, hchild, _⟩ := h.sound.exists_held hc
    obtain ⟨g, hg⟩ := h.global_of_live (Or.inr ⟨child, hchild, rfl⟩)
    obtain ⟨w, hw, hid, hsub⟩ := h.pes_subset hg hc
    rwa [h.sound.pes_of_live hw hp (hparent.symm.trans hid.symm)]

theorem Reachable.run {s' : Stage σ} (h : Reachable env s)
    (run : Relation.ReflTransGen (Step env) s s') : Reachable env s' := by
  induction run with
  | refl => exact h
  | tail _ next ih => exact ih.step next

/-- Nothing keeps the threads from ending. -/
theorem Reachable.threads_end (h : Reachable env s) :
    Reachable env { s with site := { s.site with bindings := [] } } := by
  have hforget : ∀ cs : List ExecutionContext, Reachable env
      { s with site := { s.site with
          bindings := s.site.bindings.filter (·.context ∉ cs) } } := by
    intro cs
    induction cs with
    | nil => simpa using h
    | cons c cs ih =>
      have hnext := ih.step (.endThread c)
      simpa [Stage.endThread, Bindings.forget, List.filter_filter, not_or] using hnext
  have hnone : s.site.bindings.filter
      (·.context ∉ s.site.bindings.map Binding.context) = [] := by
    rw [List.filter_eq_nil_iff]
    intro b hb
    simpa using ⟨b, hb, rfl⟩
  exact hnone ▸ hforget (s.site.bindings.map Binding.context)

/-- Once no child is held, all is the Global VM's. -/
theorem Reachable.vacant (h : Reachable env s) (up : s.site.registry.state = .initialized)
    (left : s.held = []) : s.site.Vacant := by
  have hchildren := h.sound.children_eq_nil_iff.2 left
  obtain ⟨g, hg⟩ := h.sound.exists_global up
  obtain ⟨_, _, _, t, ht, _, hkeys⟩ := h.sound.up g hg
  refine ⟨hchildren, ⟨g, t, hg, ht, fun pe hpe => ?_⟩, fun c => ?_⟩
  · obtain ⟨owner, howner⟩ := Owners.mem_pes_iff.1 (hkeys.symm ▸ hpe)
    obtain ⟨line, hline, rfl⟩ := (h.lined g hg pe).1 owner howner
    have hnil : line = [] := by
      rw [List.eq_nil_iff_forall_not_mem]
      intro r hr
      have hmem := ((hline.mem r).1 hr).1
      rw [hchildren] at hmem
      cases hmem
    rwa [hnil] at howner
  · unfold Site.takeDown
    simp [hg, hchildren]

theorem Reachable.vacant_retireAll (h : Reachable env s)
    (up : s.site.registry.state = .initialized) {order : List LaunchedChild}
    (all : order.Perm s.held) : (s.site.retireAll order).Vacant := by
  -- Retirements do the same when all threads have ended, and then they are steps of a run.
  have hdistinct : (order.map (·.vm.id)).Nodup := (all.map _).nodup_iff.2 h.sound.apart
  obtain ⟨s', hs', hsite, _, hheld⟩ := h.threads_end.retireAll
    (fun c hc => all.mem_iff.1 hc) (fun c _ b hb => by cases hb) hdistinct
  have hgone : s'.held = [] := by
    rw [hheld, List.filter_eq_nil_iff]
    intro c hc
    simpa using ⟨c, all.mem_iff.2 hc, rfl⟩
  have hstate : s'.site.registry.state = .initialized := by
    rw [hsite, Site.state_retireAll]
    exact up
  refine (hs'.vacant hstate hgone).of_registry ?_
  rw [hsite]
  exact (congrArg Site.registry (Site.retireAll_bindings s.site [] order)).symm

/-- Over an own local transport, the live children are those that are held, and two of them leave
the same tables, the same live communicators and all else the same whichever retires first. So any
children leave the same in every order of retirement. Once all that are held have retired, in
whatever order, or once a run has come to where no child is held, there are no children, all
elements of the host are the Global VM's, and it can be taken down. -/
theorem Reachable.retire_any_order {s : Stage (Fabric × LocalTransport)}
    (h : Reachable .ownLocal s) :
    s.site.registry.children.map ChildRecord.vm = s.held.map (·.vm.id) ∧
    (∀ a ∈ s.held, ∀ b ∈ s.held,
      (s.site.retire a.vm).retire b.vm = (s.site.retire b.vm).retire a.vm) ∧
    (∀ order order' : List LaunchedChild, (∀ c ∈ order, c ∈ s.held) → order.Perm order' →
      s.site.retireAll order = s.site.retireAll order') ∧
    (s.site.registry.state = .initialized →
      (∀ order : List LaunchedChild, order.Perm s.held → (s.site.retireAll order).Vacant) ∧
      ∀ s', Relation.ReflTransGen (Step .ownLocal) s s' →
        s'.site.registry.state = .initialized → s'.held = [] → s'.site.Vacant) := by
  have hcommute : s.site.registry.transport.ReleasesCommute :=
    h.wired.transport ▸ LocalTransport.releasesCommute
  have hsame : ∀ c ∈ s.held, ∀ c' ∈ s.held, c.vm.id = c'.vm.id → c.vm = c'.vm :=
    fun c hc c' hc' => h.sound.eq_of_id (h.sound.kept c hc) (h.sound.kept c' hc')
  refine ⟨h.sound.map_vm_children, ?_, ?_, fun up =>
    ⟨fun order all => h.vacant_retireAll up all, ?_⟩⟩
  · intro a ha b hb
    exact Site.retire_comm h.nested hcommute (hsame a ha b hb)
  · intro order order' held hp
    apply Site.retireAll_eq_of_perm h.nested hcommute _ hp
    intro c hc c' hc'
    exact hsame c (held c hc) c' (held c' hc')
  · intro s' run up' left
    exact (h.run run).vacant up' left

/-- The first child and the child it has may go in this order or in the other. -/
theorem retire_any_order_nested :
    ((nested LocalTransport.transport ({}, {})).held.map (·.vm.id) = [2, 3, 4]) ∧
    ((nested LocalTransport.transport ({}, {})).site.registry.child? 4).map ChildRecord.parent =
      some 2 ∧
    (nested LocalTransport.transport ({}, {})).site.retireAll
        (nested LocalTransport.transport ({}, {})).held =
      (nested LocalTransport.transport ({}, {})).site.retireAll
        (nested LocalTransport.transport ({}, {})).held.reverse ∧
    ((nested LocalTransport.transport ({}, {})).site.retireAll
      (nested LocalTransport.transport ({}, {})).held.reverse).Vacant := by
  have hreachable : Reachable .ownLocal (nested LocalTransport.transport ({}, {})) :=
    reachable_nested (show Surroundings.ownLocal.fresh ({}, {}) from rfl)
  obtain ⟨_, _, hsame, hvacant⟩ := Reachable.retire_any_order hreachable
  refine ⟨by decide, by decide, ?_, (hvacant rfl).1 _ (List.reverse_perm _)⟩
  exact hsame _ _ (fun c hc => hc) (List.reverse_perm _).symm

end Stage

end VirtualTopology
