import Mathlib.Data.List.Nodup
import VirtualTopology.Proofs.Claiming
import VirtualTopology.Registry.Launch

/-!
# The steps of a launch

What each part of a launch does to the registry, on success and on failure, and what the slots of
a launch come to together. Retiring the children of a launch, in whatever state the launch is
left, takes the registry back to where the launch began.

## Main definitions

- `Site.Tidy`: nothing mentions an id that is yet to be given out.
- `Site.Launched`: some children of a VM were launched since a certain state, and nothing else.

## Main statements

- `Site.launchSlot_eq_ok`, `Site.launchSlot_eq_error`: one slot.
- `Site.launchSlots_induction`, `Site.launchSlots_eq_error`: all slots.
- `Site.Launched.retireAll`, `Site.launchSlots_rollback`: rollback.
-/

namespace VirtualTopology

/-! ### Items told apart by a key -/

section Keys

variable {α : Type} {key : α → Nat} {items new before after : List α} {a b : α}

/-- Where no two items have one key, an item is found by its key. -/
theorem find?_eq_some_of_key (hn : (items.map key).Nodup) (ha : a ∈ items) :
    items.find? (key · == key a) = some a := by
  cases hfind : items.find? (key · == key a) with
  | none => simpa using List.find?_eq_none.1 hfind a ha
  | some b =>
    have hkey : key b = key a := by simpa using List.find?_some hfind
    rw [List.inj_on_of_nodup_map hn (List.mem_of_find?_eq_some hfind) ha hkey]

theorem key_ne_of_split (hn : ((before ++ a :: after).map key).Nodup) :
    ∀ b ∈ before ++ after, key b ≠ key a := by
  intro b hb heq
  rw [List.map_append, List.map_cons] at hn
  have hgone := (List.nodup_cons.1 (List.perm_middle.nodup_iff.1 hn)).1
  rw [← List.map_append] at hgone
  exact hgone (heq ▸ List.mem_map_of_mem hb)

/-- Taking an item out by its key takes out nothing else. -/
theorem filter_key_ne_of_split (hn : ((before ++ a :: after).map key).Nodup) :
    (before ++ a :: after).filter (key · != key a) = before ++ after := by
  rw [List.filter_append, List.filter_cons_of_neg (by simp), ← List.filter_append]
  apply List.filter_eq_self.2
  intro b hb
  simpa using key_ne_of_split hn b hb

theorem nodup_map_append (hitems : (items.map key).Nodup) (hnew : (new.map key).Nodup)
    (hne : ∀ a ∈ items, ∀ b ∈ new, key a ≠ key b) : ((items ++ new).map key).Nodup := by
  rw [List.map_append, List.nodup_append]
  refine ⟨hitems, hnew, ?_⟩
  intro k hk l hl
  obtain ⟨a, ha, rfl⟩ := List.mem_map.1 hk
  obtain ⟨b, hb, rfl⟩ := List.mem_map.1 hl
  exact hne a ha b hb

theorem nodup_map_concat (hitems : (items.map key).Nodup) (hne : ∀ a ∈ items, key a ≠ key b) :
    ((items ++ [b]).map key).Nodup := by
  apply nodup_map_append hitems (by simp)
  intro a ha c hc
  rw [List.mem_singleton.1 hc]
  exact hne a ha

end Keys

/-! ### The children of a launch -/

/-- The PET threads of VMs below `next` and all other threads. -/
def ExecutionContext.Begun (next : Nat) : ExecutionContext → Prop
  | pet vm _ => vm < next
  | _ => True

theorem ExecutionContext.Begun.mono {next next' : Nat} (hle : next ≤ next') :
    ∀ {c : ExecutionContext}, c.Begun next → c.Begun next'
  | pet _ _, h => Nat.lt_of_lt_of_le h hle
  | main, _ | thread _ _, _ => trivial

/-- The transport takes communicators back one after the other, whatever it answers. -/
def Transport.releaseAll {σ : Type} (t : Transport σ) (cs : List Communicator) (net : σ) : σ :=
  cs.foldl (fun net c => (t.release c net).2) net

/-- The communicator of a child. -/
def LaunchedChild.communicator (c : LaunchedChild) : Communicator := c.vm.communicator

/-- The record a child is entered with. -/
def LaunchedChild.record (parent : Nat) (state : ChildState) (c : LaunchedChild) : ChildRecord :=
  ⟨c.vm.id, parent, c.partition.slot, state, c.partition.pes⟩

namespace Site

variable {σ : Type} {s s' base : Site σ} {parent : Vm} {policy : SpawnPolicy} {part : Partition}
  {parts : List Partition} {child : LaunchedChild} {done children : List LaunchedChild}

/-- Nothing mentions an id that is yet to be given out, and no element has two holders. -/
structure Tidy (s : Site σ) : Prop where
  records : ∀ r ∈ s.registry.children, r.vm < s.nextVm ∧ r.parent < s.nextVm
  keys : s.registry.owners.pes.Nodup
  contexts : ∀ b ∈ s.bindings, b.registry = s.registry.id → b.context.Begun s.nextVm

/-! ### One slot -/

/-- A slot that is launched: its claim is granted, its communicator derived, its child entered. -/
theorem launchSlot_eq_ok (h : launchSlot parent policy part s = (.ok child, s')) :
    ∃ owners communicator net,
      s.registry.owners.claim parent.id s.nextVm part.pes = (.ok (), owners) ∧
      s.registry.transport.derive parent.communicator (policy.petGroups part.pes).length s.net =
        (.ok communicator, net) ∧
      child = ⟨part, .ofGroups s.nextVm (some parent.id) (parent.depth + 1)
        (policy.petGroups part.pes) policy.threadCompat communicator⟩ ∧
      s' = { s with
        nextVm := s.nextVm + 1
        net
        registry :=
          { s.registry with
            owners
            children := s.registry.children ++ [child.record parent.id .created] } } := by
  unfold launchSlot at h
  dsimp only at h
  split at h
  · simp at h
  · next owners hclaim =>
    split at h
    · simp at h
    · next communicator net hderive =>
      obtain ⟨hchild, hs'⟩ := Prod.mk.inj h
      obtain rfl := Except.ok.inj hchild
      exact ⟨owners, communicator, net, hclaim, hderive, rfl, hs'.symm⟩

/-- A slot that is not launched: its claim is refused, or its communicator, and then what was
claimed is given back. -/
theorem launchSlot_eq_error {fault : LaunchFault}
    (h : launchSlot parent policy part s = (.error fault, s')) :
    (∃ refusal owners,
      s.registry.owners.claim parent.id s.nextVm part.pes = (.error refusal, owners) ∧
      fault = .claim refusal ∧
      s' = { s with nextVm := s.nextVm + 1, registry := { s.registry with owners } }) ∨
    ∃ owners e net,
      s.registry.owners.claim parent.id s.nextVm part.pes = (.ok (), owners) ∧
      s.registry.transport.derive parent.communicator (policy.petGroups part.pes).length s.net =
        (.error e, net) ∧
      fault = .transport e ∧
      s' = { s with
        nextVm := s.nextVm + 1
        net
        registry :=
          { s.registry with owners := owners.release s.nextVm parent.id part.pes } } := by
  unfold launchSlot at h
  dsimp only at h
  split at h
  · next refusal owners hclaim =>
    obtain ⟨hfault, hs'⟩ := Prod.mk.inj h
    exact Or.inl ⟨refusal, owners, hclaim, (Except.error.inj hfault).symm, hs'.symm⟩
  · next owners hclaim =>
    split at h
    · next e net hderive =>
      obtain ⟨hfault, hs'⟩ := Prod.mk.inj h
      exact Or.inr ⟨owners, e, net, hclaim, hderive, (Except.error.inj hfault).symm, hs'.symm⟩
    · simp at h

/-- A slot that is not launched uses up its id and leaves the registry as it was. -/
theorem eq_of_launchSlot_eq_error {fault : LaunchFault} (hkeys : s.registry.owners.pes.Nodup)
    (hp : parent.id < s.nextVm) (h : launchSlot parent policy part s = (.error fault, s')) :
    ∃ net, s' = { s with nextVm := s.nextVm + 1, net } := by
  have hne : parent.id ≠ s.nextVm := Nat.ne_of_lt hp
  rcases launchSlot_eq_error h with
    ⟨refusal, owners, hclaim, _, rfl⟩ | ⟨owners, e, net, hclaim, _, _, rfl⟩
  · obtain rfl := Owners.eq_of_claim_eq_error hne hkeys hclaim
    exact ⟨s.net, rfl⟩
  · rw [Owners.release_of_claim_eq_ok hne hkeys hclaim]
    exact ⟨net, rfl⟩

/-! ### All slots -/

/-- What holds at first and is kept by every slot that is launched holds in the end. -/
theorem launchSlots_induction {P : List LaunchedChild → Site σ → Prop}
    (step : ∀ done s part child s', part ∈ parts → P done s →
      launchSlot parent policy part s = (.ok child, s') → P (done ++ [child]) s')
    (h : launchSlots parent policy done parts s = (.ok children, s')) (hfirst : P done s) :
    P children s' := by
  induction parts generalizing done s with
  | nil =>
    obtain ⟨hdone, hs⟩ := Prod.mk.inj h
    exact Except.ok.inj hdone ▸ hs ▸ hfirst
  | cons part parts ih =>
    rw [launchSlots] at h
    split at h
    · simp at h
    · next child s₁ hslot =>
      exact ih
        (fun done s part child s' hpart =>
          step done s part child s' (List.mem_cons_of_mem _ hpart))
        h (step done s part child s₁ List.mem_cons_self hfirst hslot)

/-- There is a child for every slot, in order. -/
theorem partitions_of_launchSlots
    (h : launchSlots parent policy done parts s = (.ok children, s')) :
    children.map LaunchedChild.partition = done.map LaunchedChild.partition ++ parts := by
  induction parts generalizing done s with
  | nil =>
    obtain ⟨hdone, _⟩ := Prod.mk.inj h
    simp [Except.ok.inj hdone]
  | cons part parts ih =>
    rw [launchSlots] at h
    split at h
    · simp at h
    · next child s₁ hslot =>
      obtain ⟨_, _, _, _, _, rfl, _⟩ := launchSlot_eq_ok hslot
      rw [ih h]
      simp

/-- Children get the ids that follow, in slot order, and these are used up. -/
theorem vmIds_of_launchSlots (h : launchSlots parent policy [] parts s = (.ok children, s')) :
    children.map (·.vm.id) = List.range' s.nextVm parts.length ∧
      s'.nextVm = s.nextVm + parts.length := by
  have hids : children.map (·.vm.id) = List.range' s.nextVm children.length ∧
      s'.nextVm = s.nextVm + children.length := by
    refine launchSlots_induction (P := fun done s₁ =>
      done.map (·.vm.id) = List.range' s.nextVm done.length ∧
        s₁.nextVm = s.nextVm + done.length) ?_ h ⟨rfl, rfl⟩
    rintro done s₁ part child s₂ _ ⟨hdone, hnext⟩ hslot
    obtain ⟨_, _, _, _, _, rfl, rfl⟩ := launchSlot_eq_ok hslot
    refine ⟨?_, by simp [hnext, Nat.add_assoc]⟩
    rw [List.map_append, hdone, List.length_append, List.length_singleton, List.range'_concat,
      Nat.one_mul, ← hnext]
    rfl
  have hparts := congrArg List.length (partitions_of_launchSlots h)
  simp only [List.length_map, List.map_nil, List.nil_append] at hparts
  rwa [hparts] at hids

/-- A launch that fails has launched the slots before the one that failed, and retired them. -/
theorem launchSlots_eq_error {e : VmError}
    (h : launchSlots parent policy done parts s = (.error e, s')) :
    ∃ before part after launched s₁ s₂ fault, parts = before ++ part :: after ∧
      launchSlots parent policy done before s = (.ok launched, s₁) ∧
      launchSlot parent policy part s₁ = (.error fault, s₂) ∧
      e = fault.toVmError part.slot ∧ s' = s₂.retireAll launched := by
  induction parts generalizing done s with
  | nil => simp [launchSlots] at h
  | cons part parts ih =>
    rw [launchSlots] at h
    split at h
    · next fault s₂ hslot =>
      obtain ⟨he, hs'⟩ := Prod.mk.inj h
      exact ⟨[], part, parts, done, s, s₂, fault, rfl, rfl, hslot, (Except.error.inj he).symm,
        hs'.symm⟩
    · next child s₁ hslot =>
      obtain ⟨before, part', after, launched, s₁', s₂, fault, rfl, hbefore, hrest⟩ := ih h
      refine ⟨part :: before, part', after, launched, s₁', s₂, fault, rfl, ?_, hrest⟩
      rw [launchSlots, hslot]
      exact hbefore

/-! ### The children launched so far -/

/-- Since `base`, the children `done` of `parent` were launched; nothing else happened to the
registry. -/
structure Launched (parent : Vm) (policy : SpawnPolicy) (base : Site σ)
    (done : List LaunchedChild) (s : Site σ) : Prop where
  registry : s.registry =
    { base.registry with
      owners := s.registry.owners
      children := base.registry.children ++ done.map (LaunchedChild.record parent.id .created) }
  bindings : s.bindings = base.bindings
  entered : s.entered = base.entered
  next : base.nextVm ≤ s.nextVm
  fresh : ∀ c ∈ done, base.nextVm ≤ c.vm.id ∧ c.vm.id < s.nextVm
  distinct : (done.map (·.vm.id)).Nodup
  built : ∀ c ∈ done, c.vm = .ofGroups c.vm.id (some parent.id) (parent.depth + 1)
    (policy.petGroups c.partition.pes) policy.threadCompat c.vm.communicator
  keys : s.registry.owners.pes = base.registry.owners.pes
  taken : ∀ c ∈ done, ∀ q ∈ c.partition.pes,
    s.registry.owners.owner? q = some c.vm.id ∧ base.registry.owners.owner? q = some parent.id
  others : ∀ q, (∀ c ∈ done, q ∉ c.partition.pes) →
    s.registry.owners.owner? q = base.registry.owners.owner? q

namespace Launched

theorem nil (parent : Vm) (policy : SpawnPolicy) (s : Site σ) : Launched parent policy s [] s where
  registry := by simp
  bindings := rfl
  entered := rfl
  next := Nat.le_refl _
  fresh := by simp
  distinct := List.nodup_nil
  built := by simp
  keys := rfl
  taken := by simp
  others := fun _ _ => rfl

theorem children_eq (h : Launched parent policy base done s) : s.registry.children =
    base.registry.children ++ done.map (LaunchedChild.record parent.id .created) :=
  congrArg Registry.children h.registry

/-- One more slot is launched. -/
theorem snoc (h : Launched parent policy base done s) (hp : parent.id < base.nextVm)
    (hslot : launchSlot parent policy part s = (.ok child, s')) :
    Launched parent policy base (done ++ [child]) s' := by
  obtain ⟨owners, communicator, net, hclaim, _, hchild, rfl⟩ := launchSlot_eq_ok hslot
  have hid : child.vm.id = s.nextVm := by rw [hchild]; rfl
  have hpes : child.partition.pes = part.pes := by rw [hchild]
  have hne : parent.id ≠ s.nextVm := Nat.ne_of_lt (Nat.lt_of_lt_of_le hp h.next)
  obtain ⟨_, hall, hkeys, hafter⟩ := Owners.claimFrom_eq_ok hne hclaim
  -- What the new child takes was the parent's, so none of it belongs to a child launched before.
  have hapart : ∀ c ∈ done, ∀ q ∈ c.partition.pes, q ∉ part.pes := by
    intro c hc q hq hpart
    have hsame := (h.taken c hc q hq).1.symm.trans (hall q hpart)
    have hfresh := (h.fresh c hc).1
    have hcid := Option.some.inj hsame
    omega
  refine ⟨?_, h.bindings, h.entered, Nat.le_succ_of_le h.next, ?_, ?_, ?_, hkeys.trans h.keys,
    ?_, ?_⟩
  · rw [h.registry]
    simp [List.append_assoc]
  · intro c hc
    cases List.mem_append.1 hc with
    | inl hc => exact ⟨(h.fresh c hc).1, Nat.lt_succ_of_lt (h.fresh c hc).2⟩
    | inr hc =>
      rw [List.mem_singleton.1 hc, hid]
      exact ⟨h.next, Nat.lt_succ_self _⟩
  · apply nodup_map_concat h.distinct
    intro c hc
    rw [hid]
    exact Nat.ne_of_lt (h.fresh c hc).2
  · intro c hc
    cases List.mem_append.1 hc with
    | inl hc => exact h.built c hc
    | inr hc =>
      rw [List.mem_singleton.1 hc, hchild]
      rfl
  · intro c hc q hq
    show owners.owner? q = _ ∧ _
    rw [hafter]
    cases List.mem_append.1 hc with
    | inl hc =>
      rw [if_neg (hapart c hc q hq)]
      exact h.taken c hc q hq
    | inr hc =>
      obtain rfl := List.mem_singleton.1 hc
      rw [hpes] at hq
      refine ⟨by rw [if_pos hq, hid], ?_⟩
      have hbefore : ∀ c ∈ done, q ∉ c.partition.pes := fun c hc hq' => hapart c hc q hq' hq
      rw [← h.others q hbefore, hall q hq]
  · intro q hq
    have hpart : q ∉ part.pes := hpes ▸ hq child (by simp)
    show owners.owner? q = _
    rw [hafter, if_neg hpart]
    exact h.others q fun c hc => hq c (List.mem_append_left _ hc)

/-- What a launch came to when all its slots were launched. -/
theorem of_launchSlots (hp : parent.id < base.nextVm)
    (h : launchSlots parent policy [] parts base = (.ok children, s')) :
    Launched parent policy base children s' :=
  launchSlots_induction (P := Launched parent policy base)
    (fun _ _ _ _ _ _ hdone hslot => hdone.snoc hp hslot) h (nil parent policy base)

end Launched

/-! ### Rollback -/

/-- A child that is entered is forgotten, and what it holds goes to the parent in its record. -/
theorem retire_of_child? {vm : Vm} {r : ChildRecord} (h : s.registry.child? vm.id = some r) :
    s.retire vm = { s with
      net := (s.registry.transport.release vm.communicator s.net).2
      registry :=
        { s.registry with
          owners := s.registry.owners.release vm.id r.parent r.pes
          children :=
            (s.registry.children.filter (·.vm != vm.id)).map
              (ChildRecord.reparent vm.id r.parent) } } := by
  unfold retire
  rw [h]

/-- A retirement changes the holders, the records and what the transport keeps. -/
theorem exists_tables_retire (s : Site σ) (vm : Vm) : ∃ owners records net,
    s.retire vm = { s with net, registry := { s.registry with owners, children := records } } := by
  unfold retire
  split
  · exact ⟨_, _, _, rfl⟩
  · exact ⟨_, _, _, rfl⟩

theorem exists_tables_retireAll (s : Site σ) (children : List LaunchedChild) :
    ∃ owners records net, s.retireAll children =
      { s with net, registry := { s.registry with owners, children := records } } := by
  induction children generalizing s with
  | nil => exact ⟨_, _, _, rfl⟩
  | cons child children ih =>
    obtain ⟨_, _, _, hretire⟩ := s.exists_tables_retire child.vm
    obtain ⟨owners, records, net, hall⟩ := ih (s.retire child.vm)
    exact ⟨owners, records, net, hall.trans (by rw [hretire])⟩

/-- Where no record names a VM as its parent, none is changed when the VM goes. -/
theorem map_reparent_of_ne {vm parent : Nat} {records : List ChildRecord}
    (h : ∀ r ∈ records, r.parent ≠ vm) :
    records.map (ChildRecord.reparent vm parent) = records := by
  have hid : ∀ r ∈ records, ChildRecord.reparent vm parent r = id r := fun r hr => if_neg (h r hr)
  rw [List.map_congr_left hid, List.map_id]

namespace Launched

/-- The child launched first has its record. -/
theorem child?_head (h : Launched parent policy base (child :: done) s) (hbase : base.Tidy) :
    s.registry.child? child.vm.id = some (child.record parent.id .created) := by
  have hfresh := (h.fresh child List.mem_cons_self).1
  have hold : ∀ r ∈ base.registry.children, r.vm ≠ child.vm.id := fun r hr =>
    Nat.ne_of_lt (Nat.lt_of_lt_of_le (hbase.records r hr).1 hfresh)
  rw [Registry.child?, h.children_eq, List.find?_append,
    List.find?_eq_none.2 (by simpa using hold)]
  simp [LaunchedChild.record]

/-- An id that is used up and the transport do not matter to what was launched. -/
theorem skip (h : Launched parent policy base done s) (net : σ) :
    Launched parent policy base done { s with nextVm := s.nextVm + 1, net } :=
  { h with
    next := Nat.le_succ_of_le h.next
    fresh := fun c hc => ⟨(h.fresh c hc).1, Nat.lt_succ_of_lt (h.fresh c hc).2⟩ }

/-- Retiring the child launched first undoes its launch. -/
theorem retire (h : Launched parent policy base (child :: done) s) (hbase : base.Tidy)
    (hp : parent.id < base.nextVm) :
    Launched parent policy base done (s.retire child.vm) ∧
      s.retire child.vm = { s with
        net := (s.registry.transport.release child.vm.communicator s.net).2
        registry := (s.retire child.vm).registry } := by
  have hfresh := (h.fresh child List.mem_cons_self).1
  have hdistinct := List.nodup_cons.1 h.distinct
  have hother : ∀ c ∈ done, c.vm.id ≠ child.vm.id := fun c hc heq =>
    hdistinct.1 (List.mem_map.2 ⟨c, hc, heq⟩)
  have hold : ∀ r ∈ base.registry.children, r.vm ≠ child.vm.id := fun r hr =>
    Nat.ne_of_lt (Nat.lt_of_lt_of_le (hbase.records r hr).1 hfresh)
  -- The ids of a launch are new, so only the child's own record has its id, and no record names
  -- the child as its parent.
  have hchildren : (s.registry.children.filter (·.vm != child.vm.id)).map
      (ChildRecord.reparent child.vm.id parent.id) =
      base.registry.children ++ done.map (LaunchedChild.record parent.id .created) := by
    have hfilter : s.registry.children.filter (·.vm != child.vm.id) =
        base.registry.children ++ done.map (LaunchedChild.record parent.id .created) := by
      rw [h.children_eq, List.filter_append, List.filter_eq_self.2 (by simpa using hold),
        List.map_cons, List.filter_cons_of_neg (by simp [LaunchedChild.record]),
        List.filter_eq_self.2]
      intro r hr
      obtain ⟨c, hc, rfl⟩ := List.mem_map.1 hr
      simpa [LaunchedChild.record] using hother c hc
    rw [hfilter]
    apply map_reparent_of_ne
    intro r hr
    cases List.mem_append.1 hr with
    | inl hr => exact Nat.ne_of_lt (Nat.lt_of_lt_of_le (hbase.records r hr).2 hfresh)
    | inr hr =>
      obtain ⟨c, _, rfl⟩ := List.mem_map.1 hr
      exact Nat.ne_of_lt (Nat.lt_of_lt_of_le hp hfresh)
  have hretire : s.retire child.vm = _ := retire_of_child? (h.child?_head hbase)
  change s.retire child.vm = { s with
      net := _
      registry := { s.registry with
        owners := s.registry.owners.release child.vm.id parent.id child.partition.pes
        children := (s.registry.children.filter (·.vm != child.vm.id)).map
          (ChildRecord.reparent child.vm.id parent.id) } } at hretire
  rw [hchildren] at hretire
  rw [hretire]
  refine ⟨⟨?_, h.bindings, h.entered, h.next, ?_, hdistinct.2, ?_, ?_, ?_, ?_⟩, rfl⟩
  · rw [h.registry]
  · exact fun c hc => h.fresh c (List.mem_cons_of_mem _ hc)
  · exact fun c hc => h.built c (List.mem_cons_of_mem _ hc)
  · exact (Owners.pes_release ..).trans h.keys
  · intro c hc q hq
    have htaken := h.taken c (List.mem_cons_of_mem _ hc) q hq
    refine ⟨?_, htaken.2⟩
    rw [Owners.owner?_release, htaken.1, if_neg]
    rintro ⟨_, heq⟩
    exact hother c hc (Option.some.inj heq)
  · intro q hq
    rw [Owners.owner?_release]
    by_cases hmem : q ∈ child.partition.pes
    · have htaken := h.taken child List.mem_cons_self q hmem
      rw [if_pos ⟨hmem, htaken.1⟩, htaken.2]
    · rw [if_neg fun h => hmem h.1]
      apply h.others q
      intro c hc
      rcases List.mem_cons.1 hc with rfl | hc
      · exact hmem
      · exact hq c hc

/-- A launch of no children left the registry as it was. -/
theorem registry_eq (h : Launched parent policy base [] s) (hbase : base.Tidy) :
    s.registry = base.registry := by
  have howners : s.registry.owners = base.registry.owners :=
    Owners.ext_of_nodup h.keys (h.keys ▸ hbase.keys) fun q => h.others q (by simp)
  rw [h.registry, howners]
  simp

/-- Retiring all that was launched takes the registry back, and its communicators too. -/
theorem retireAll (h : Launched parent policy base done s) (hbase : base.Tidy)
    (hp : parent.id < base.nextVm) :
    s.retireAll done = { base with
      nextVm := s.nextVm
      net := base.registry.transport.releaseAll (done.map LaunchedChild.communicator) s.net } := by
  induction done generalizing s with
  | nil =>
    have hregistry := h.registry_eq hbase
    have hbindings := h.bindings
    have hentered := h.entered
    obtain ⟨⟨nextVm, bindings, entered, net⟩, registry⟩ := s
    simp_all [Site.retireAll, Transport.releaseAll]
  | cons child done ih =>
    -- What is left of the launch is again a launch since `base`.
    obtain ⟨hrest, hretire⟩ := h.retire hbase hp
    have htransport : s.registry.transport = base.registry.transport := by rw [h.registry]
    have hnext : (s.retire child.vm).nextVm = s.nextVm := by rw [hretire]
    have hnet : (s.retire child.vm).net =
        (base.registry.transport.release child.communicator s.net).2 := by
      rw [hretire, htransport]
      rfl
    have hall := ih hrest
    rw [hnext, hnet] at hall
    exact hall

end Launched

/-- A launch in which a slot fails leaves used-up ids and what the transport keeps, nothing else. -/
theorem launchSlots_rollback {e : VmError} (hs : s.Tidy) (hp : parent.id < s.nextVm)
    (h : launchSlots parent policy [] parts s = (.error e, s')) :
    ∃ before part after launched s₁ fault net, parts = before ++ part :: after ∧
      launchSlots parent policy [] before s = (.ok launched, s₁) ∧
      launchSlot parent policy part s₁ =
        (.error fault, { s₁ with nextVm := s₁.nextVm + 1, net }) ∧
      e = fault.toVmError part.slot ∧
      s' = { s with
        nextVm := s.nextVm + before.length + 1
        net := s.registry.transport.releaseAll (launched.map LaunchedChild.communicator) net } := by
  obtain ⟨before, part, after, launched, s₁, s₂, fault, hparts, hbefore, hslot, he, rfl⟩ :=
    launchSlots_eq_error h
  have hlaunched := Launched.of_launchSlots hp hbefore
  have hkeys : s₁.registry.owners.pes.Nodup := hlaunched.keys ▸ hs.keys
  have hp₁ : parent.id < s₁.nextVm := Nat.lt_of_lt_of_le hp hlaunched.next
  obtain ⟨net, rfl⟩ := eq_of_launchSlot_eq_error hkeys hp₁ hslot
  refine ⟨before, part, after, launched, s₁, fault, net, hparts, hbefore, hslot, he, ?_⟩
  rw [(hlaunched.skip net).retireAll hs hp, (vmIds_of_launchSlots hbefore).2]

end Site

end VirtualTopology
