import VirtualTopology.Proofs.Lineage
import VirtualTopology.Proofs.Wiring

/-!
# Which launches succeed

A launch asks for the processing elements of a VM one by one. That it gets them all comes down to
one condition: the VM has no live child. Over a local transport of the registry's own nothing else
stands in the way once the caller runs in the VM and the VM is not too deep.

## Main statements

- `Stage.Reachable.childless_iff`: a VM without live children holds all its elements.
- `Stage.Reachable.startup_isOk_iff`: which launches succeed, and what refusals name.
-/

namespace VirtualTopology

/-! ### Wordings -/

theorem notMem_toDigits_of_not_isDigit {a : Char} (ha : a.isDigit = false) (n : Nat) :
    a ∉ Nat.toDigits 10 n := by
  intro h
  have hdigit := Nat.isDigit_of_mem_toDigits (by decide) (by decide) h
  rw [ha] at hdigit
  cases hdigit

/-- Only the refusal of an element that is not known has this letter in it. -/
theorem LaunchFault.k_mem_message {fault : LaunchFault} (pe : Pe)
    (h : fault.message = (ClaimRefusal.unknown pe).message) : 'k' ∈ fault.message.toList := by
  have hunknown : (ClaimRefusal.unknown pe).message =
      "ssi" ++ pe.image.repr ++ ":pe" ++ pe.core.repr ++ " is not known to this registry" := rfl
  rw [h, hunknown]
  simp

/-- Only refusals of the transport begin with this letter. -/
theorem LaunchFault.head_message {fault : LaunchFault} (e : TransportError)
    (h : fault.message = (LaunchFault.transport e).message) :
    fault.message.toList.head? = some 't' := by
  have htransport : (LaunchFault.transport e).message = "transport: " ++ e.message := rfl
  rw [h, htransport]
  simp

/-- Refusals that are neither about an element that is not known nor from the transport. -/
def LaunchFault.IsPlain : LaunchFault → Prop
  | wrongCaller .. | tooDeep _ | claim (.held ..) => True
  | _ => False

/-- Plain refusals do not read like others. -/
theorem LaunchFault.IsPlain.message_ne {fault : LaunchFault} (h : fault.IsPlain) :
    (∀ pe, fault.message ≠ (ClaimRefusal.unknown pe).message) ∧
      ∀ e, fault.message ≠ (LaunchFault.transport e).message := by
  have hdigits := notMem_toDigits_of_not_isDigit (a := 'k') rfl
  suffices hletters : 'k' ∉ fault.message.toList ∧ fault.message.toList.head? ≠ some 't' from
    ⟨fun pe heq => hletters.1 (k_mem_message pe heq),
      fun e heq => hletters.2 (head_message e heq)⟩
  cases fault with
  | wrongCaller caller planned =>
    have hmessage : (wrongCaller caller planned).message =
        "caller runs in VM " ++ caller.repr ++ ", plan was built for VM " ++ planned.repr := rfl
    rw [hmessage]
    simp [hdigits]
  | tooDeep depth =>
    have hmessage : (tooDeep depth).message =
        "spawn depth " ++ depth.repr ++ " exceeds " ++ Limits.maxSpawnDepth.repr := rfl
    rw [hmessage]
    simp [hdigits]
  | claim refusal =>
    cases refusal with
    | held pe owner =>
      have hmessage : (claim (.held pe owner)).message =
          "ssi" ++ pe.image.repr ++ ":pe" ++ pe.core.repr ++ " is held by VM " ++ owner.repr := rfl
      rw [hmessage]
      simp [hdigits]
    | unknown pe => exact h.elim
  | transport e => exact h.elim
  | thread reason => exact h.elim

namespace Stage

variable {σ : Type} {env : Surroundings σ} {s : Stage σ} {g : VmHandle} {v : Vm} {pe : Pe}

/-! ### VMs without live children -/

theorem Reachable.global_of_live (h : Reachable env s) (hv : s.Live v) :
    ∃ g, s.site.registry.global = some g :=
  h.sound.global_of_live hv

/-- A live VM is in the lines of its elements. -/
theorem Reachable.line_of_live (h : Reachable env s) (hg : s.site.registry.global = some g)
    (hv : s.Live v) (hpe : pe ∈ v.pes) :
    ∃ line, HoldingLine s.site.registry.children g.vm.id pe line ∧
      s.site.registry.owner? pe = some (lowest g.vm.id line) ∧
      v.id ∈ g.vm.id :: line.map ChildRecord.vm := by
  obtain ⟨_, _, _, t, _, hpes, hkeys⟩ := h.sound.up g hg
  have hrecord : v = g.vm ∨ ∃ r ∈ s.site.registry.children, r.vm = v.id ∧ pe ∈ r.pes := by
    rcases hv with ⟨g', hg', rfl⟩ | ⟨c, hc, rfl⟩
    · exact Or.inl (by rw [Option.some.inj (hg'.symm.trans hg)])
    · obtain ⟨r, hr, hvm, hrpes⟩ := h.sound.exists_record hc
      rw [(h.sound.whole c hc).1, ← hrpes] at hpe
      exact Or.inr ⟨r, hr, hvm, hpe⟩
  have hmem : pe ∈ s.site.registry.owners.pes := by
    rcases hrecord with rfl | ⟨r, hr, _, hpe⟩
    · rw [hkeys, ← hpes]
      exact hpe
    · exact (h.exists_line hg hr hpe).1
  obtain ⟨owner, howner⟩ := Owners.mem_pes_iff.1 hmem
  obtain ⟨line, hline, rfl⟩ := (h.lined g hg pe).1 owner howner
  refine ⟨line, hline, howner, ?_⟩
  rcases hrecord with rfl | ⟨r, hr, hvm, hpe⟩
  · exact List.mem_cons_self
  · exact List.mem_cons_of_mem _ (hvm ▸ List.mem_map_of_mem ((hline.mem r).2 ⟨hr, hpe⟩))

/-- Whatever is held is held by a live VM. -/
theorem Reachable.isLive_of_owner (h : Reachable env s) (hg : s.site.registry.global = some g)
    {owner : Nat} (howner : s.site.registry.owner? pe = some owner) : s.IsLive owner := by
  obtain ⟨line, hline, rfl⟩ := (h.lined g hg pe).1 owner howner
  have hlowest : lowest g.vm.id line ∈ g.vm.id :: line.map ChildRecord.vm := lowest_mem
  cases List.mem_cons.1 hlowest with
  | inl hglobal => exact Or.inl ⟨g, hg, hglobal.symm⟩
  | inr hmem =>
    obtain ⟨r, hr, hvm⟩ := List.mem_map.1 hmem
    exact Or.inr ⟨r, ((hline.mem r).1 hr).1, hvm⟩

/-- A live VM has no live child if and only if it holds all its elements. -/
theorem Reachable.childless_iff (h : Reachable env s) (hv : s.Live v) :
    (∀ r ∈ s.site.registry.children, r.parent ≠ v.id) ↔
      ∀ pe ∈ v.pes, s.site.registry.owner? pe = some v.id := by
  obtain ⟨g, hg⟩ := h.global_of_live hv
  constructor
  · intro hno pe hpe
    obtain ⟨line, hline, howner, hmem⟩ := h.line_of_live hg hv hpe
    rw [howner, hline.descends.lowest_eq hmem fun r hr => hno r ((hline.mem r).1 hr).1]
  · intro hall r hr hparent
    -- The child has an element, which it got from the VM.
    obtain ⟨c, hc, _, hpes⟩ := h.sound.exists_held hr
    obtain ⟨pe, hpe⟩ := List.exists_mem_of_ne_nil _ (h.sound.whole c hc).2
    rw [hpes] at hpe
    obtain ⟨w, hw, hid, hsub⟩ := h.pes_subset hg hr
    have hwv : w = v := h.sound.eq_of_id (h.sound.mem_made_of_live hw)
      (h.sound.mem_made_of_live hv) (hid.trans hparent)
    have howner := hall pe (hwv ▸ hsub hpe)
    obtain ⟨line, hline, hlowest, _⟩ := h.line_of_live hg hw (hsub hpe)
    have hlow := Option.some.inj (hlowest.symm.trans howner)
    exact hline.descends.parent_ne_lowest hline.distinct r ((hline.mem r).2 ⟨hr, hpe⟩)
      (hparent.trans hlow.symm)

/-! ### Over an own local transport -/

section OwnLocal

variable {s : Stage (Fabric × LocalTransport)} {plan : SpawnPlan} {c : ExecutionContext}
  {count : Nat} {before after : List Partition} {part : Partition}
  {launched : List LaunchedChild} {s₁ s₂ : Site (Fabric × LocalTransport)} {fault : LaunchFault}

/-- The transport refuses no child of a live VM. -/
theorem Reachable.not_refused (h : Reachable .ownLocal s) (live : s.Live plan.parent.vm)
    (built : SpawnPlan.build plan.parent count plan.policy = .ok plan)
    (hpart : part ∈ plan.partitions)
    (hbefore : Site.launchSlots plan.parent.vm plan.policy [] before s.site = (.ok launched, s₁))
    (e : TransportError) (net : Fabric × LocalTransport) :
    s₁.registry.transport.derive plan.parent.vm.communicator
      (plan.policy.petGroups part.pes).length s₁.net ≠ (.error e, net) := by
  intro hderive
  obtain ⟨ht, hintact, hlive⟩ := Site.live_of_launchSlots h.wired.transport h.wired.intact hbefore
  rw [ht] at hderive
  cases (LocalTransport.derive_eq_error hderive).2 with
  | inl hclosed =>
    have hmem := h.wired.mem_live live
    rw [hintact.opened _ (hlive ▸ List.mem_append_left _ hmem)] at hclosed
    cases hclosed
  | inr hsize =>
    have hplaced := h.sound.placed _ (h.sound.mem_made_of_live live)
    have hpiece := hplaced.of_piece (SpawnPlan.infix_of_mem_partitions built hpart)
    have hnonempty := SpawnPlan.pes_ne_nil_of_mem_partitions built hpart
    obtain ⟨hpos, hle⟩ := plan.policy.length_petGroups hpiece.ordered hnonempty
    have hmax := hpiece.length_le
    simp only [LocalTransport.validSize, Bool.and_eq_false_iff, decide_eq_false_iff_not] at hsize
    omega

/-- A slot that cannot be launched asks for an element that the VM did not hold. -/
theorem Reachable.held_of_launchSlot_eq_error (h : Reachable .ownLocal s)
    (live : s.Live plan.parent.vm)
    (built : SpawnPlan.build plan.parent count plan.policy = .ok plan)
    (hparts : plan.partitions = before ++ part :: after)
    (hbefore : Site.launchSlots plan.parent.vm plan.policy [] before s.site = (.ok launched, s₁))
    (hslot : Site.launchSlot plan.parent.vm plan.policy part s₁ = (.error fault, s₂)) :
    ∃ pre pe post owner, part.pes = pre ++ pe :: post ∧
      (∀ q ∈ before.flatMap Partition.pes ++ pre,
        s.site.registry.owner? q = some plan.parent.vm.id) ∧
      s.site.registry.owner? pe = some owner ∧ owner ≠ plan.parent.vm.id ∧ s.IsLive owner ∧
      fault = .claim (.held pe owner) := by
  have hmade := h.sound.mem_made_of_live live
  have hlaunched := Site.Launched.of_launchSlots (h.sound.ids _ hmade) hbefore
  have hbeforeParts : launched.map LaunchedChild.partition = before :=
    Site.partitions_of_launchSlots hbefore
  have hpart : part ∈ plan.partitions := hparts ▸ List.mem_append_right _ List.mem_cons_self
  have hcover := SpawnPlan.flatMap_pes_partitions built
  have hnodup : (plan.partitions.flatMap Partition.pes).Nodup :=
    hcover ▸ (h.sound.placed _ hmade).nodup
  rw [hparts, List.flatMap_append, List.flatMap_cons, List.nodup_append] at hnodup
  obtain ⟨_, hrest, hapart⟩ := hnodup
  have hpartNodup := (List.nodup_append.1 hrest).1
  -- Nothing of this slot was asked for before.
  have howner : ∀ q ∈ part.pes, s₁.registry.owners.owner? q = s.site.registry.owner? q := by
    intro q hq
    apply hlaunched.others q
    intro c hc hqc
    have hmem : q ∈ before.flatMap Partition.pes :=
      List.mem_flatMap.2 ⟨c.partition, hbeforeParts ▸ List.mem_map_of_mem hc, hqc⟩
    exact hapart q hmem q (List.mem_append_left _ hq) rfl
  have hbeforeOwner : ∀ q ∈ before.flatMap Partition.pes,
      s.site.registry.owner? q = some plan.parent.vm.id := by
    intro q hq
    obtain ⟨p, hp, hqp⟩ := List.mem_flatMap.1 hq
    rw [← hbeforeParts] at hp
    obtain ⟨c, hc, rfl⟩ := List.mem_map.1 hp
    exact (hlaunched.taken c hc q hqp).2
  rcases Site.launchSlot_eq_error hslot with
    ⟨refusal, owners, hclaim, rfl, _⟩ | ⟨owners, e, net, _, hderive, _, _⟩
  · have hne : plan.parent.vm.id ≠ s₁.nextVm :=
      Nat.ne_of_lt (Nat.lt_of_lt_of_le (h.sound.ids _ hmade) hlaunched.next)
    obtain ⟨⟨pre, pe, post, hpes, _, hpre, hpe, hrefusal⟩, _, _⟩ := Owners.claim_eq_error hne hclaim
    have hmemPe : pe ∈ part.pes := hpes ▸ List.mem_append_right _ List.mem_cons_self
    have hnew : pe ∉ pre := by
      rw [hpes, List.nodup_append] at hpartNodup
      exact fun hmem => hpartNodup.2.2 pe hmem pe List.mem_cons_self rfl
    rw [if_neg hnew, howner pe hmemPe] at hrefusal
    have hnot : s.site.registry.owner? pe ≠ some plan.parent.vm.id :=
      howner pe hmemPe ▸ hpe.resolve_left hnew
    have hparent : pe ∈ plan.parent.vm.pes :=
      hcover ▸ List.mem_flatMap.2 ⟨part, hpart, hmemPe⟩
    obtain ⟨g, hg⟩ := h.global_of_live live
    obtain ⟨line, _, hlowest, _⟩ := h.line_of_live hg live hparent
    refine ⟨pre, pe, post, lowest g.vm.id line, hpes, ?_, hlowest, ?_,
      h.isLive_of_owner hg hlowest, ?_⟩
    · intro q hq
      cases List.mem_append.1 hq with
      | inl hq => exact hbeforeOwner q hq
      | inr hq =>
        rw [← howner q (hpes ▸ List.mem_append_left _ hq)]
        exact hpre q hq
    · intro heq
      exact hnot (hlowest.trans (congrArg some heq))
    · rw [hrefusal, hlowest]
      rfl
  -- The claim was granted, and the transport has no reason to refuse.
  · exact absurd hderive (h.not_refused live built hpart hbefore e net)

/-- The context runs in the VM. -/
def RunsIn (s : Stage (Fabric × LocalTransport)) (c : ExecutionContext) (v : Vm) : Prop :=
  ∃ caller, s.site.current c = .ok caller ∧ caller.vm = v

/-- Whoever may launch a plan runs in the very VM it was made for. -/
theorem Sound.admits_iff (h : s.Sound) (known : s.Plans plan) :
    s.site.Admits c plan ↔
      s.RunsIn c plan.parent.vm ∧ plan.parent.vm.depth < Limits.maxSpawnDepth := by
  constructor
  · intro hadmits
    have hmade := h.mem_made_of_live (h.live_of_admits known hadmits).1
    obtain ⟨caller, hcurrent, hsame, hdepth⟩ := hadmits
    have hid : caller.vm.id = plan.parent.vm.id := by simpa [VmHandle.sameVm] using hsame
    have hcaller := h.mem_made_of_live (h.live_of_current hcurrent)
    exact ⟨⟨caller, hcurrent, h.eq_of_id hcaller hmade hid⟩, hdepth⟩
  · rintro ⟨⟨caller, hcurrent, hvm⟩, hdepth⟩
    exact ⟨caller, hcurrent, by simp [VmHandle.sameVm, hvm], hdepth⟩

theorem Reachable.children_of_startup (h : Reachable .ownLocal s) (known : s.Plans plan)
    {spawned : Spawned} (hok : (s.site.startup .ample c plan).1 = .ok spawned) :
    s.site.Admits c plan ∧ ∀ r ∈ s.site.registry.children, r.parent ≠ plan.parent.vm.id := by
  obtain ⟨hadmits, s₁, hslots, hlaunched, _⟩ :=
    Site.startup_eq_ok h.sound.tidy h.sound.parent_lt (Prod.ext hok rfl)
  obtain ⟨live, count, built⟩ := h.sound.live_of_admits known hadmits
  refine ⟨hadmits, (h.childless_iff live).2 fun pe hpe => ?_⟩
  rw [← SpawnPlan.flatMap_pes_partitions built] at hpe
  obtain ⟨part, hpart, hpe⟩ := List.mem_flatMap.1 hpe
  have hparts : spawned.children.map LaunchedChild.partition = plan.partitions :=
    Site.partitions_of_launchSlots hslots
  rw [← hparts] at hpart
  obtain ⟨child, hchild, rfl⟩ := List.mem_map.1 hpart
  exact (hlaunched.taken child hchild pe hpe).2

/-- A launch that the caller may ask for fails only at an element that the VM does not hold. -/
theorem Reachable.held_of_startup_eq_error (h : Reachable .ownLocal s) (known : s.Plans plan)
    (hadmits : s.site.Admits c plan) {e : VmError}
    (herror : (s.site.startup .ample c plan).1 = .error e) :
    ∃ before part after pre pe post owner, plan.partitions = before ++ part :: after ∧
      part.slot = before.length ∧ part.pes = pre ++ pe :: post ∧
      (∀ q ∈ before.flatMap Partition.pes ++ pre,
        s.site.registry.owner? q = some plan.parent.vm.id) ∧
      s.site.registry.owner? pe = some owner ∧ owner ≠ plan.parent.vm.id ∧ s.IsLive owner ∧
      e = (LaunchFault.claim (.held pe owner)).toVmError part.slot := by
  obtain ⟨live, count, built⟩ := h.sound.live_of_admits known hadmits
  rcases Site.startup_eq_error h.sound.tidy h.sound.parent_lt (Prod.ext herror rfl) with
    ⟨hnot, _⟩ |
    ⟨_, before, part, after, launched, s₁, fault, net, hparts, hbefore, hslot, rfl, _⟩ |
    ⟨_, _, _, _, _, _, _, hhost, _⟩
  · exact absurd hadmits hnot
  · obtain ⟨pre, pe, post, owner, hpes, hheld, howner, hne, hlive, rfl⟩ :=
      h.held_of_launchSlot_eq_error live built hparts hbefore hslot
    exact ⟨before, part, after, pre, pe, post, owner, hparts,
      SpawnPlan.slot_eq_length built hparts, hpes, hheld, howner, hne, hlive, rfl⟩
  · cases hhost

/-- Over an own local transport, on a host with threads for all, a startup succeeds if and only if
the caller runs in the very VM the plan was made for, the VM is not too deep and it has no live
child. If only the last of these fails, the refusal is about the first slot with an element that
the VM did not hold, and names the first such element and the live VM that held it. No element is
ever unknown, and the transport never refuses. -/
theorem Reachable.startup_isOk_iff (h : Reachable .ownLocal s) (known : s.Plans plan)
    (c : ExecutionContext) :
    ((∃ spawned, (s.site.startup .ample c plan).1 = .ok spawned) ↔
      s.RunsIn c plan.parent.vm ∧ plan.parent.vm.depth < Limits.maxSpawnDepth ∧
        ∀ r ∈ s.site.registry.children, r.parent ≠ plan.parent.vm.id) ∧
    (s.RunsIn c plan.parent.vm → plan.parent.vm.depth < Limits.maxSpawnDepth →
      (∃ r ∈ s.site.registry.children, r.parent = plan.parent.vm.id) →
      ∃ before part after pre pe post owner, plan.partitions = before ++ part :: after ∧
        part.slot = before.length ∧ part.pes = pre ++ pe :: post ∧
        (∀ q ∈ before.flatMap Partition.pes ++ pre,
          s.site.registry.owner? q = some plan.parent.vm.id) ∧
        s.site.registry.owner? pe = some owner ∧ owner ≠ plan.parent.vm.id ∧ s.IsLive owner ∧
        (s.site.startup .ample c plan).1 =
          .error (.launch part.slot (ClaimRefusal.held pe owner).message)) ∧
    ∀ slot reason, (s.site.startup .ample c plan).1 = .error (.launch slot reason) →
      (∀ pe, reason ≠ (ClaimRefusal.unknown pe).message) ∧
        ∀ e, reason ≠ (LaunchFault.transport e).message := by
  refine ⟨⟨?_, ?_⟩, ?_, ?_⟩
  · rintro ⟨spawned, hok⟩
    obtain ⟨hadmits, hno⟩ := h.children_of_startup known hok
    obtain ⟨hruns, hdepth⟩ := (h.sound.admits_iff known).1 hadmits
    exact ⟨hruns, hdepth, hno⟩
  · rintro ⟨hruns, hdepth, hno⟩
    have hadmits := (h.sound.admits_iff known).2 ⟨hruns, hdepth⟩
    cases hstartup : (s.site.startup .ample c plan).1 with
    | ok spawned => exact ⟨spawned, rfl⟩
    | error e =>
      obtain ⟨before, part, after, pre, pe, post, owner, hparts, _, hpes, _, howner, hne, _, _⟩ :=
        h.held_of_startup_eq_error known hadmits hstartup
      obtain ⟨live, count, built⟩ := h.sound.live_of_admits known hadmits
      have hmem : pe ∈ plan.parent.vm.pes := by
        rw [← SpawnPlan.flatMap_pes_partitions built, hparts]
        simp [hpes]
      have hheld := (h.childless_iff live).1 hno pe hmem
      exact absurd (Option.some.inj (howner.symm.trans hheld)) hne
  · rintro hruns hdepth ⟨r, hr, hparent⟩
    have hadmits := (h.sound.admits_iff known).2 ⟨hruns, hdepth⟩
    cases hstartup : (s.site.startup .ample c plan).1 with
    | ok spawned => exact absurd hparent ((h.children_of_startup known hstartup).2 r hr)
    | error e =>
      obtain ⟨before, part, after, pre, pe, post, owner, hparts, hslot, hpes, hheld, howner, hne,
        hlive, rfl⟩ := h.held_of_startup_eq_error known hadmits hstartup
      exact ⟨before, part, after, pre, pe, post, owner, hparts, hslot, hpes, hheld, howner, hne,
        hlive, rfl⟩
  · intro slot reason herror
    -- Whichever check failed, the reason is of the plain kind.
    have hplain : ∃ fault : LaunchFault, fault.IsPlain ∧ fault.message = reason := by
      by_cases hadmits : s.site.Admits c plan
      · obtain ⟨_, part, _, _, pe, _, owner, _, _, _, _, _, _, _, heq⟩ :=
          h.held_of_startup_eq_error known hadmits herror
        exact ⟨.claim (.held pe owner), trivial, (VmError.launch.inj heq).2.symm⟩
      · rcases Site.startup_eq_error_of_not_admits hadmits herror with
          hcurrent | ⟨fault, heq, ⟨caller, planned, rfl⟩ | ⟨depth, rfl⟩⟩
        · rcases Site.current_eq_error hcurrent with hnone | ⟨_, hlabel⟩
          · cases hnone
          · cases hlabel
        · exact ⟨.wrongCaller caller planned, trivial, (VmError.launch.inj heq).2.symm⟩
        · exact ⟨.tooDeep depth, trivial, (VmError.launch.inj heq).2.symm⟩
    obtain ⟨fault, hfault, rfl⟩ := hplain
    exact hfault.message_ne

end OwnLocal

/-- The Global VM has two children and may not have the same children again. -/
theorem startup_isOk_iff_nested :
    (nested LocalTransport.transport ({}, {})).Plans (halves ⟨1, 4, 0⟩) ∧
    ((nested LocalTransport.transport ({}, {})).site.startup .ample .main (halves ⟨1, 4, 0⟩)).1 =
      .error (.launch 0 "ssi0:pe0 is held by VM 4") ∧
    ¬ ∃ spawned, ((nested LocalTransport.transport ({}, {})).site.startup .ample .main
      (halves ⟨1, 4, 0⟩)).1 = .ok spawned := by
  have hreachable : Reachable .ownLocal (nested LocalTransport.transport ({}, {})) :=
    reachable_nested (show Surroundings.ownLocal.fresh ({}, {}) from rfl)
  have hknown : (nested LocalTransport.transport ({}, {})).Plans (halves ⟨1, 4, 0⟩) :=
    ⟨(halves ⟨1, 4, 0⟩).parent, 2, .maxThreads, rfl, Or.inl List.mem_cons_self⟩
  have hfailed : ((nested LocalTransport.transport ({}, {})).site.startup .ample .main
      (halves ⟨1, 4, 0⟩)).1 = .error (.launch 0 "ssi0:pe0 is held by VM 4") := by rfl
  refine ⟨hknown, hfailed, fun hok => ?_⟩
  have hno := ((Reachable.startup_isOk_iff hreachable hknown .main).1.1 hok).2.2
  revert hno
  decide

end Stage

end VirtualTopology
