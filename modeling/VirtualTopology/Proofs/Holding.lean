import VirtualTopology.Proofs.Claiming
import VirtualTopology.Proofs.Soundness

/-!
# Who holds a processing element

The live children whose records list a processing element form a line: each is entered as a child
of the one before, and the first as a child of the Global VM. The element belongs to the last of
the line. A launch adds to the end of lines. A retirement takes the child out of its lines,
wherever in them it is, and the one after it becomes a child of the one before it.

## Main definitions

- `Descends`, `lowest`: a line of records below a VM, and the VM at its lower end.
- `HoldingLine`: the line of a processing element.

## Main statements

- `HoldingLine.snoc`, `HoldingLine.retire`: lines after a launch and after a retirement.
- `Stage.Reachable.owner_eq_lowest`: the holders at every stage.
-/

namespace VirtualTopology

/-- Each record is that of a child of the VM of the record before, the first of a child of `top`. -/
def Descends : Nat → List ChildRecord → Prop
  | _, [] => True
  | top, r :: rs => r.parent = top ∧ Descends r.vm rs

/-- The last VM of a line below `top`. -/
def lowest : Nat → List ChildRecord → Nat
  | top, [] => top
  | _, r :: rs => lowest r.vm rs

section Lines

variable {top vm parent : Nat} {line : List ChildRecord} {r : ChildRecord}

theorem lowest_mem : lowest top line ∈ top :: line.map ChildRecord.vm := by
  induction line generalizing top with
  | nil => exact List.mem_cons_self
  | cons r rs ih => exact List.mem_cons_of_mem _ ih

theorem lowest_snoc : lowest top (line ++ [r]) = r.vm := by
  induction line generalizing top with
  | nil => rfl
  | cons _ rs ih => exact ih

theorem Descends.snoc (h : Descends top line) (hr : r.parent = lowest top line) :
    Descends top (line ++ [r]) := by
  induction line generalizing top with
  | nil => exact ⟨hr, trivial⟩
  | cons _ rs ih => exact ⟨h.1, ih h.2 hr⟩

theorem Descends.parent_mem (h : Descends top line) :
    ∀ r ∈ line, r.parent ∈ top :: line.map ChildRecord.vm := by
  induction line generalizing top with
  | nil => simp
  | cons x xs ih =>
    intro r hr
    rcases List.mem_cons.1 hr with rfl | hr
    · rw [h.1]
      exact List.mem_cons_self
    · exact List.mem_cons_of_mem _ (ih h.2 r hr)

/-- The last VM of a line has no child in it. -/
theorem Descends.parent_ne_lowest (h : Descends top line)
    (hn : (top :: line.map ChildRecord.vm).Nodup) : ∀ r ∈ line, r.parent ≠ lowest top line := by
  induction line generalizing top with
  | nil => simp
  | cons x xs ih =>
    obtain ⟨htop, hn⟩ := List.nodup_cons.1 hn
    intro r hr
    rcases List.mem_cons.1 hr with rfl | hr
    · rw [h.1]
      intro heq
      exact htop (heq ▸ lowest_mem)
    · exact ih h.2 hn r hr

/-- A VM of a line that has no child in it is the last. -/
theorem Descends.lowest_eq (h : Descends top line) {v : Nat}
    (hv : v ∈ top :: line.map ChildRecord.vm) (hno : ∀ r ∈ line, r.parent ≠ v) :
    lowest top line = v := by
  induction line generalizing top with
  | nil => exact (List.mem_singleton.1 hv).symm
  | cons x xs ih =>
    rcases List.mem_cons.1 hv with rfl | hv
    · exact absurd h.1 (hno x List.mem_cons_self)
    · exact ih h.2 hv fun r hr => hno r (List.mem_cons_of_mem _ hr)

/-- No two children in a line have one parent. -/
theorem Descends.eq_of_parent (h : Descends top line)
    (hn : (top :: line.map ChildRecord.vm).Nodup) :
    ∀ r ∈ line, ∀ r' ∈ line, r.parent = r'.parent → r = r' := by
  induction line generalizing top with
  | nil => simp
  | cons x xs ih =>
    obtain ⟨htop, hn⟩ := List.nodup_cons.1 hn
    -- What comes after the first has its parent below `top`.
    have hbelow : ∀ r ∈ xs, r.parent ≠ x.parent := by
      intro r hr heq
      exact htop (h.1 ▸ heq ▸ h.2.parent_mem r hr)
    intro r hr r' hr' heq
    rcases List.mem_cons.1 hr with hrx | hrxs <;> rcases List.mem_cons.1 hr' with hrx' | hrxs'
    · exact hrx.trans hrx'.symm
    · exact absurd (hrx ▸ heq.symm) (hbelow r' hrxs')
    · exact absurd (hrx' ▸ heq) (hbelow r hrxs)
    · exact ih h.2 hn r hrxs r' hrxs' heq

/-- A VM leaves a line: the one after it moves up to the one before it. -/
theorem Descends.retire (h : Descends top line) (hn : (top :: line.map ChildRecord.vm).Nodup)
    (hvm : vm ≠ top) (hparent : ∀ r ∈ line, r.vm = vm → r.parent = parent) :
    Descends top ((line.filter (·.vm != vm)).map (ChildRecord.reparent vm parent)) ∧
      lowest top ((line.filter (·.vm != vm)).map (ChildRecord.reparent vm parent)) =
        if lowest top line = vm then parent else lowest top line := by
  induction line generalizing top with
  | nil => exact ⟨trivial, (if_neg hvm.symm).symm⟩
  | cons x xs ih =>
    obtain ⟨htop, hxs⟩ := List.nodup_cons.1 hn
    by_cases hx : x.vm = vm
    · obtain rfl : parent = top := (hparent x List.mem_cons_self hx).symm.trans h.1
      subst hx
      obtain ⟨hgone, _⟩ := List.nodup_cons.1 hxs
      have hrest : ((x :: xs).filter (·.vm != x.vm)) = xs := by
        rw [List.filter_cons_of_neg (by simp), List.filter_eq_self]
        intro r hr
        have hne : r.vm ≠ x.vm := fun heq => hgone (heq ▸ List.mem_map_of_mem hr)
        simpa using hne
      rw [hrest]
      -- Only the next record names the VM that leaves.
      cases xs with
      | nil => exact ⟨trivial, (if_pos rfl).symm⟩
      | cons y ys =>
        have hys : ys.map (ChildRecord.reparent x.vm parent) = ys := by
          apply Site.map_reparent_of_ne
          intro r hr hrx
          exact hgone (hrx ▸ h.2.2.parent_mem r hr)
        have hlow : lowest y.vm ys ≠ x.vm := fun heq => hgone (heq ▸ lowest_mem)
        have hy : y.reparent x.vm parent = { y with parent } := if_pos h.2.1
        rw [List.map_cons, hys, hy]
        exact ⟨⟨rfl, h.2.2⟩, (if_neg hlow).symm⟩
    · have hkeep : x.reparent vm parent = x := if_neg (h.1 ▸ hvm.symm)
      rw [List.filter_cons_of_pos (by simpa using hx), List.map_cons, hkeep]
      obtain ⟨hdescends, hlow⟩ := ih h.2 hxs (Ne.symm hx) fun r hr =>
        hparent r (List.mem_cons_of_mem _ hr)
      exact ⟨⟨h.1, hdescends⟩, hlow⟩

end Lines

/-- The records that list a processing element, as a line below `top`. -/
structure HoldingLine (records : List ChildRecord) (top : Nat) (pe : Pe)
    (line : List ChildRecord) : Prop where
  mem : ∀ r, r ∈ line ↔ r ∈ records ∧ pe ∈ r.pes
  distinct : (top :: line.map ChildRecord.vm).Nodup
  descends : Descends top line

namespace HoldingLine

variable {records : List ChildRecord} {top : Nat} {pe : Pe} {line : List ChildRecord}
  {r : ChildRecord}

theorem nil (h : ∀ r ∈ records, pe ∉ r.pes) (top : Nat) : HoldingLine records top pe [] where
  mem r := by simpa using h r
  distinct := List.nodup_singleton _
  descends := trivial

/-- A child of the lowest VM goes to the end of the line. -/
theorem snoc (h : HoldingLine records top pe line) {new : List ChildRecord} (hr : r ∈ new)
    (hpe : pe ∈ r.pes) (honly : ∀ r' ∈ new, pe ∈ r'.pes → r' = r)
    (hparent : r.parent = lowest top line) (hfresh : r.vm ∉ top :: line.map ChildRecord.vm) :
    HoldingLine (records ++ new) top pe (line ++ [r]) := by
  refine ⟨fun r' => ?_, ?_, h.descends.snoc hparent⟩
  · rw [List.mem_append, List.mem_append, h.mem, List.mem_singleton]
    constructor
    · rintro (⟨hmem, hpe'⟩ | rfl)
      · exact ⟨Or.inl hmem, hpe'⟩
      · exact ⟨Or.inr hr, hpe⟩
    · rintro ⟨hmem | hmem, hpe'⟩
      · exact Or.inl ⟨hmem, hpe'⟩
      · exact Or.inr (honly r' hmem hpe')
  · rw [List.map_append, ← List.cons_append, List.nodup_append]
    refine ⟨h.distinct, List.nodup_singleton _, ?_⟩
    intro a ha b hb heq
    obtain rfl := List.mem_singleton.1 hb
    exact hfresh (heq ▸ ha)

theorem append (h : HoldingLine records top pe line) {new : List ChildRecord}
    (hnew : ∀ r ∈ new, pe ∉ r.pes) : HoldingLine (records ++ new) top pe line := by
  refine ⟨fun r => ?_, h.distinct, h.descends⟩
  rw [h.mem, List.mem_append]
  constructor
  · rintro ⟨hmem, hpe⟩
    exact ⟨Or.inl hmem, hpe⟩
  · rintro ⟨hmem | hmem, hpe⟩
    · exact ⟨hmem, hpe⟩
    · exact absurd hpe (hnew r hmem)

/-- A retired child leaves the line, and its elements go to the VM above it. -/
theorem retire (h : HoldingLine records top pe line) (hr : r ∈ records) (hvm : r.vm ≠ top)
    (hapart : (records.map ChildRecord.vm).Nodup) :
    HoldingLine ((records.filter (·.vm != r.vm)).map (ChildRecord.reparent r.vm r.parent)) top pe
        ((line.filter (·.vm != r.vm)).map (ChildRecord.reparent r.vm r.parent)) ∧
      lowest top ((line.filter (·.vm != r.vm)).map (ChildRecord.reparent r.vm r.parent)) =
        if pe ∈ r.pes ∧ lowest top line = r.vm then r.parent else lowest top line := by
  have hsame : ∀ r' ∈ records, r'.vm = r.vm → r' = r := fun r' hr' heq =>
    List.inj_on_of_nodup_map hapart hr' hr heq
  obtain ⟨hdescends, hlow⟩ := h.descends.retire h.distinct hvm fun r' hr' heq => by
    rw [hsame r' ((h.mem r').1 hr').1 heq]
  have hvms : ∀ rs : List ChildRecord, (rs.map (ChildRecord.reparent r.vm r.parent)).map
      ChildRecord.vm = rs.map ChildRecord.vm := by
    intro rs
    rw [List.map_map]
    exact List.map_congr_left fun r' _ => r'.vm_reparent r.vm r.parent
  refine ⟨⟨fun r' => ?_, ?_, hdescends⟩, ?_⟩
  · simp only [List.mem_map, List.mem_filter, h.mem]
    constructor
    · rintro ⟨r'', ⟨⟨hmem, hpe⟩, hne⟩, rfl⟩
      exact ⟨⟨r'', ⟨hmem, hne⟩, rfl⟩, (r''.pes_reparent _ _).symm ▸ hpe⟩
    · rintro ⟨⟨r'', ⟨hmem, hne⟩, rfl⟩, hpe⟩
      exact ⟨r'', ⟨⟨hmem, r''.pes_reparent _ _ ▸ hpe⟩, hne⟩, rfl⟩
  · rw [hvms]
    exact h.distinct.sublist ((List.filter_sublist.map _).cons_cons _)
  · rw [hlow]
    -- If the line ends in the child that retires, the child lists the element.
    have hiff : (pe ∈ r.pes ∧ lowest top line = r.vm) ↔ lowest top line = r.vm := by
      refine ⟨And.right, fun heq => ⟨?_, heq⟩⟩
      have hlowest : lowest top line ∈ top :: line.map ChildRecord.vm := lowest_mem
      cases List.mem_cons.1 hlowest with
      | inl htop => exact absurd (heq.symm.trans htop) hvm
      | inr hmem =>
        obtain ⟨r', hr', hr'vm⟩ := List.mem_map.1 hmem
        obtain ⟨hmem', hpe⟩ := (h.mem r').1 hr'
        exact hsame r' hmem' (hr'vm.trans heq) ▸ hpe
    simp only [hiff]

end HoldingLine

namespace Stage

variable {σ : Type} {env : Surroundings σ} {s s' : Stage σ}

/-- Every processing element belongs to the last VM of its line below the Global VM. -/
def Lined (s : Stage σ) : Prop :=
  ∀ g, s.site.registry.global = some g → ∀ pe,
    (∀ owner, s.site.registry.owner? pe = some owner →
      ∃ line, HoldingLine s.site.registry.children g.vm.id pe line ∧
        lowest g.vm.id line = owner) ∧
    (s.site.registry.owner? pe = none → ∀ r ∈ s.site.registry.children, pe ∉ r.pes)

namespace Lined

variable {c : ExecutionContext} {t : Topology} {world : Communicator} {net : σ}

theorem raised (sound : s.Sound) (free : s.site.registry.global = none) :
    (s.raised c t world net).Lined := by
  intro g hg pe
  have hchildren := sound.children_eq_nil_iff.2 (sound.held_eq_nil free)
  have hnone : ∀ r ∈ s.site.registry.children, pe ∉ r.pes := by simp [hchildren]
  obtain rfl := Option.some.inj hg
  refine ⟨fun owner howner => ⟨[], HoldingLine.nil hnone _, ?_⟩, fun _ => hnone⟩
  have hheld : (if pe ∈ t.pes then some s.site.nextVm else none) = some owner :=
    (Owners.owner?_allHeldBy ..).symm.trans howner
  split at hheld
  · exact Option.some.inj hheld
  · cases hheld

theorem launched {parent : Vm} {policy : SpawnPolicy} {children : List LaunchedChild}
    {after : Site σ} {entered : List ExecutionContext} (h : s.Lined) (sound : s.Sound)
    (hlaunched : s.site.Launched parent policy children after) :
    (s.launched parent children after entered).Lined := by
  intro g hg pe
  obtain ⟨hsome, hnone⟩ := h g hg pe
  -- An element that was taken was its parent's, so the parent was at the end of its line.
  by_cases hex : ∃ c ∈ children, pe ∈ c.partition.pes
  · obtain ⟨c, hc, hpe⟩ := hex
    obtain ⟨hafter, hbefore⟩ := hlaunched.taken c hc pe hpe
    obtain ⟨line, hline, hlow⟩ := hsome _ hbefore
    have honly : ∀ r ∈ children.map (LaunchedChild.record parent.id .running), pe ∈ r.pes →
        r = c.record parent.id .running := by
      intro r hr hpe'
      obtain ⟨c', hc', rfl⟩ := List.mem_map.1 hr
      have hid := (hlaunched.taken c' hc' pe hpe').1.symm.trans hafter
      rw [List.inj_on_of_nodup_map hlaunched.distinct hc' hc (Option.some.inj hid)]
    have hfresh : (c.record parent.id .running).vm ∉ g.vm.id :: line.map ChildRecord.vm := by
      have hnew := (hlaunched.fresh c hc).1
      intro hmem
      cases List.mem_cons.1 hmem with
      | inl hglobal =>
        have hold := sound.ids _ (sound.global_mem_made hg)
        exact absurd hglobal (Nat.ne_of_gt (Nat.lt_of_lt_of_le hold hnew))
      | inr hmem =>
        obtain ⟨r, hr, heq⟩ := List.mem_map.1 hmem
        have hold := (sound.tidy.records r ((hline.mem r).1 hr).1).1
        exact absurd heq (Nat.ne_of_lt (Nat.lt_of_lt_of_le hold hnew))
    have hnew := hline.snoc (List.mem_map_of_mem hc) hpe honly hlow.symm hfresh
    refine ⟨fun owner howner => ⟨_, hnew, ?_⟩, fun hempty => ?_⟩
    · rw [lowest_snoc]
      exact Option.some.inj (hafter.symm.trans howner)
    · exact absurd (hafter.symm.trans hempty) (by simp)
  · have hapart : ∀ c ∈ children, pe ∉ c.partition.pes := fun c hc hpe => hex ⟨c, hc, hpe⟩
    have hsame := hlaunched.others pe hapart
    have hnew : ∀ r ∈ children.map (LaunchedChild.record parent.id .running), pe ∉ r.pes := by
      intro r hr
      obtain ⟨c, hc, rfl⟩ := List.mem_map.1 hr
      exact hapart c hc
    refine ⟨fun owner howner => ?_, fun hempty r hr => ?_⟩
    · obtain ⟨line, hline, hlow⟩ := hsome owner (hsame.symm.trans howner)
      exact ⟨line, hline.append hnew, hlow⟩
    · cases List.mem_append.1 hr with
      | inl hr => exact hnone (hsame.symm.trans hempty) r hr
      | inr hr => exact hnew r hr

theorem retired {r : ChildRecord} (h : s.Lined) (sound : s.Sound)
    (record : r ∈ s.site.registry.children) : (s.retired r net).Lined := by
  intro g hg pe
  obtain ⟨hsome, hnone⟩ := h g hg pe
  obtain ⟨c, hc, hcvm, _⟩ := sound.exists_held record
  have hvm : r.vm ≠ g.vm.id := hcvm ▸ sound.ne_global hg hc
  have howners : (s.retired r net).site.registry.owner? pe =
      if pe ∈ r.pes ∧ s.site.registry.owner? pe = some r.vm then some r.parent
      else s.site.registry.owner? pe :=
    Owners.owner?_release ..
  rw [howners]
  cases howner : s.site.registry.owner? pe with
  | some holder =>
    obtain ⟨line, hline, hlow⟩ := hsome holder howner
    obtain ⟨hline', hlow'⟩ := hline.retire record hvm sound.records_apart
    rw [hlow] at hlow'
    refine ⟨fun owner heq => ⟨_, hline', ?_⟩, fun hempty => ?_⟩
    · rw [hlow']
      simp only [Option.some.injEq] at heq
      split at heq
      · next hif => rw [if_pos hif]; exact Option.some.inj heq
      · next hif => rw [if_neg hif]; exact Option.some.inj heq
    · split at hempty <;> cases hempty
  | none =>
    refine ⟨fun owner heq => ?_, fun _ r' hr' => ?_⟩
    · simp at heq
    · obtain ⟨r'', hr'', rfl⟩ := List.mem_map.1 hr'
      rw [ChildRecord.pes_reparent]
      exact hnone howner r'' (List.mem_filter.1 hr'').1

theorem change (h : s.Lined) (sound : s.Sound) (hc : s.Change s') : s'.Lined := by
  cases hc with
  | still registry _ _ _ _ =>
    unfold Lined
    rw [registry]
    exact h
  | up c world net begun free found => exact raised sound free
  | down c net left =>
    intro g hg
    cases hg
  | launch entered live built depth parts launched => exact h.launched sound launched
  | retire net record ended => exact h.retired sound record

end Lined

theorem Reachable.lined (h : Reachable env s) : s.Lined := by
  -- Before the first bring-up there is no Global VM to have lines below.
  refine h.induction (fun _ _ _ _ _ g hg => ?_) fun _ _ sound ih hc => ih.change sound hc
  cases hg

/-- An element in a record is in the table of holders, and has a line with the record in it. -/
theorem Reachable.exists_line (h : Reachable env s) {g : VmHandle}
    (hg : s.site.registry.global = some g) {r : ChildRecord}
    (hr : r ∈ s.site.registry.children) {pe : Pe} (hpe : pe ∈ r.pes) :
    pe ∈ s.site.registry.owners.pes ∧
      ∃ line, HoldingLine s.site.registry.children g.vm.id pe line ∧ r ∈ line := by
  obtain ⟨hsome, hnone⟩ := h.lined g hg pe
  cases howner : s.site.registry.owner? pe with
  | none => exact absurd hpe (hnone howner r hr)
  | some owner =>
    obtain ⟨line, hline, _⟩ := hsome owner howner
    exact ⟨Owners.mem_pes_iff.2 ⟨owner, howner⟩, line, hline, (hline.mem r).2 ⟨hr, hpe⟩⟩

/-- While a registry is up, its table of holders is about exactly the elements of the topology.
The live children whose records list an element are a line below the Global VM, and the element
belongs to the last of them, which has no live child that lists it, or to the Global VM if there
are none. -/
theorem Reachable.owner_eq_lowest (h : Reachable env s)
    (up : s.site.registry.state = .initialized) :
    ∃ g t, s.site.registry.global = some g ∧ s.site.registry.topology = some t ∧
      s.site.registry.owners.pes = t.pes ∧
      (∀ r ∈ s.site.registry.children, ∀ pe ∈ r.pes, pe ∈ t.pes) ∧
      ∀ pe ∈ t.pes, ∃ line, HoldingLine s.site.registry.children g.vm.id pe line ∧
        s.site.registry.owner? pe = some (lowest g.vm.id line) ∧
        ∀ r ∈ s.site.registry.children, r.parent = lowest g.vm.id line → pe ∉ r.pes := by
  obtain ⟨g, hglobal⟩ := h.sound.exists_global up
  obtain ⟨_, _, _, t, htopology, _, hkeys⟩ := h.sound.up g hglobal
  refine ⟨g, t, hglobal, htopology, hkeys, fun r hr pe hpe => ?_, fun pe hpe => ?_⟩
  · exact hkeys ▸ (h.exists_line hglobal hr hpe).1
  · have hmem : pe ∈ s.site.registry.owners.pes := hkeys.symm ▸ hpe
    obtain ⟨owner, howner⟩ := Owners.mem_pes_iff.1 hmem
    obtain ⟨line, hline, rfl⟩ := (h.lined g hglobal pe).1 owner howner
    refine ⟨line, hline, howner, fun r hr hparent hpe' => ?_⟩
    exact hline.descends.parent_ne_lowest hline.distinct r ((hline.mem r).2 ⟨hr, hpe'⟩) hparent

/-- An element of a child that outlived its parent is the child's, which is now the Global VM's. -/
theorem owner_eq_lowest_orphaned :
    orphaned.site.registry.state = .initialized ∧
    orphaned.site.registry.owner? ⟨0, 1⟩ = some 4 ∧
    ∃ g t, orphaned.site.registry.global = some g ∧
      orphaned.site.registry.topology = some t ∧
      orphaned.site.registry.owners.pes = t.pes ∧
      (∀ r ∈ orphaned.site.registry.children, ∀ pe ∈ r.pes, pe ∈ t.pes) ∧
      ∀ pe ∈ t.pes, ∃ line,
        HoldingLine orphaned.site.registry.children g.vm.id pe line ∧
        orphaned.site.registry.owner? pe = some (lowest g.vm.id line) ∧
        ∀ r ∈ orphaned.site.registry.children,
          r.parent = lowest g.vm.id line → pe ∉ r.pes :=
  ⟨rfl, by decide, Reachable.owner_eq_lowest reachable_orphaned rfl⟩

end Stage

end VirtualTopology
