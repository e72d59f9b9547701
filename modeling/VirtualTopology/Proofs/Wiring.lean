import VirtualTopology.Proofs.Soundness
import VirtualTopology.Transport.Local

/-!
# A registry over a local transport of its own

If nobody else uses the local transport of a registry, the transport's table lists the
communicators of the VMs that are live, and all of them are open. So no live VM is ever refused a
communicator of a size there can be.

## Main definitions

- `LocalTransport.Intact`: what is in the table is open and told apart.
- `Surroundings.ownLocal`: a local transport that nobody else uses.
- `Stage.Wired`: the table lists the communicators of the live VMs.

## Main statements

- `LocalTransport.derive_eq_ok`: when a communicator is given.
- `Stage.Reachable.wired`: the table at every stage.
-/

namespace VirtualTopology

namespace Fabric

variable {f : Fabric} {c d : Communicator}

theorem isClosed_close_of_ne (h : d.mesh ≠ c.mesh) : (f.close c).isClosed d = f.isClosed d := by
  simp [close, setMesh, isClosed, meshOf, Array.getD_eq_getD_getElem?,
    Array.getElem?_setIfInBounds_ne h.symm]

theorem isClosed_allocate (id size : Nat) (h : c.mesh < f.meshes.size) :
    (f.allocate id size).2.isClosed c = f.isClosed c := by
  simp [allocate, isClosed, meshOf, Array.getD_eq_getD_getElem?, Array.getElem?_push,
    Nat.ne_of_lt h]

theorem isClosed_allocate_self (id size : Nat) :
    (f.allocate id size).2.isClosed (f.allocate id size).1 = false := by
  simp [allocate, isClosed, meshOf, Array.getD_eq_getD_getElem?]

@[simp] theorem size_close : (f.close c).meshes.size = f.meshes.size := by
  simp [close, setMesh]

end Fabric

namespace LocalTransport

/-- The table of a local transport lists open communicators with numbers and mailboxes of their
own, made before now. -/
structure Intact (net : Fabric × LocalTransport) : Prop where
  ids : (net.2.live.map Communicator.id).Nodup
  meshes : (net.2.live.map Communicator.mesh).Nodup
  earlier : ∀ c ∈ net.2.live, c.id < net.2.next ∧ c.mesh < net.1.meshes.size
  opened : ∀ c ∈ net.2.live, net.1.isClosed c = false

variable {net net' : Fabric × LocalTransport} {c parent : Communicator} {size : Nat}
  {before after : List Communicator}

/-- Communicators made before now, and the one that is made now, are made before what comes next. -/
theorem earlier_allocate {f : Fabric} {next : Nat} {cs : List Communicator}
    (h : ∀ c ∈ cs, c.id < next ∧ c.mesh < f.meshes.size) (size : Nat) :
    ∀ c ∈ cs ++ [(f.allocate next size).1],
      c.id < next + 1 ∧ c.mesh < (f.allocate next size).2.meshes.size := by
  have hsize : (f.allocate next size).2.meshes.size = f.meshes.size + 1 := Array.size_push _
  intro c hc
  rw [hsize]
  cases List.mem_append.1 hc with
  | inl hc =>
    obtain ⟨hid, hmesh⟩ := h c hc
    exact ⟨Nat.lt_succ_of_lt hid, Nat.lt_succ_of_lt hmesh⟩
  | inr hc =>
    obtain rfl := List.mem_singleton.1 hc
    exact ⟨Nat.lt_succ_self _, Nat.lt_succ_self _⟩

theorem create_eq_ok (h : Intact net) (hc : create size net = (.ok c, net')) :
    Intact net' ∧ net'.2.live = net.2.live ++ [c] := by
  obtain ⟨f, t⟩ := net
  unfold create at hc
  dsimp only at hc
  split at hc
  · obtain ⟨hanswer, rfl⟩ := Prod.mk.inj hc
    obtain rfl := Except.ok.inj hanswer
    refine ⟨⟨?_, ?_, earlier_allocate h.earlier size, ?_⟩, rfl⟩
    · apply nodup_map_concat h.ids
      intro d hd
      exact Nat.ne_of_lt (h.earlier d hd).1
    · apply nodup_map_concat h.meshes
      intro d hd
      exact Nat.ne_of_lt (h.earlier d hd).2
    · intro d hd
      cases List.mem_append.1 hd with
      | inl hd =>
        rw [Fabric.isClosed_allocate _ _ (h.earlier d hd).2]
        exact h.opened d hd
      | inr hd =>
        obtain rfl := List.mem_singleton.1 hd
        exact Fabric.isClosed_allocate_self ..
  · simp at hc

theorem create_eq_error {e : TransportError} (hc : create size net = (.error e, net')) :
    net' = net ∧ validSize size = false := by
  unfold create at hc
  dsimp only at hc
  split at hc
  · simp at hc
  · next hsize => exact ⟨(Prod.mk.inj hc).2.symm, by simpa using hsize⟩

theorem derive_eq_ok (h : Intact net) (hd : derive parent size net = (.ok c, net')) :
    Intact net' ∧ net'.2.live = net.2.live ++ [c] := by
  unfold derive at hd
  dsimp only at hd
  split at hd
  · simp at hd
  · exact create_eq_ok h hd

/-- Only a closed communicator or a size there cannot be is refused, and then nothing changes. -/
theorem derive_eq_error {e : TransportError} (hd : derive parent size net = (.error e, net')) :
    net' = net ∧ (net.1.isClosed parent = true ∨ validSize size = false) := by
  unfold derive at hd
  dsimp only at hd
  split at hd
  · next hclosed => exact ⟨(Prod.mk.inj hd).2.symm, Or.inl hclosed⟩
  · obtain ⟨hnet, hsize⟩ := create_eq_error hd
    exact ⟨hnet, Or.inr hsize⟩

/-- What is released leaves the table, and the others stay open. -/
theorem release_eq (h : Intact net) (hlive : net.2.live = before ++ c :: after) :
    Intact (release c net).2 ∧ (release c net).2.2.live = before ++ after := by
  obtain ⟨f, t⟩ := net
  change t.live = before ++ c :: after at hlive
  have hids : ((before ++ c :: after).map Communicator.id).Nodup := hlive ▸ h.ids
  have hmeshes : ((before ++ c :: after).map Communicator.mesh).Nodup := hlive ▸ h.meshes
  have hc : c ∈ t.live := hlive ▸ List.mem_append_right _ List.mem_cons_self
  have hfind : t.find? c.id = some c := find?_eq_some_of_key h.ids hc
  have hfilter : t.live.filter (·.id != c.id) = before ++ after := by
    rw [hlive]
    exact filter_key_ne_of_split hids
  have hrelease : release c (f, t) =
      (.ok (), f.close c, { t with live := t.live.filter (·.id != c.id) }) := by
    simp only [release, hfind]
  rw [hrelease]
  have hsub : List.Sublist (before ++ after) t.live :=
    hlive ▸ List.Sublist.append (List.Sublist.refl _) (List.sublist_cons_self _ _)
  refine ⟨⟨?_, ?_, ?_, ?_⟩, hfilter⟩ <;> dsimp only <;> rw [hfilter]
  · exact h.ids.sublist (hsub.map _)
  · exact h.meshes.sublist (hsub.map _)
  · intro d hd
    rw [Fabric.size_close]
    exact h.earlier d (hsub.subset hd)
  · intro d hd
    rw [Fabric.isClosed_close_of_ne (key_ne_of_split hmeshes d hd)]
    exact h.opened d (hsub.subset hd)

theorem releaseAll_eq {cs : List Communicator} (h : Intact net)
    (hlive : net.2.live = before ++ cs) :
    Intact (transport.releaseAll cs net) ∧ (transport.releaseAll cs net).2.live = before := by
  induction cs generalizing net with
  | nil => exact ⟨h, hlive.trans (List.append_nil _)⟩
  | cons c cs ih =>
    obtain ⟨hintact, hrest⟩ := release_eq h hlive
    exact ih hintact hrest

/-- Finalizing an open communicator empties the table. -/
theorem finalize_eq (h : net.1.isClosed c = false) :
    Intact (finalize c net).2 ∧ (finalize c net).2.2.live = [] := by
  have hfinalize : finalize c net =
      (.ok (), net.1.closeAll net.2.live, { net.2 with live := [] }) := by
    simp [finalize, h]
  rw [hfinalize]
  exact ⟨⟨List.nodup_nil, List.nodup_nil, by simp, by simp⟩, rfl⟩

end LocalTransport

/-- A local transport that nobody else uses. Others may use the fabric, but not to close what is in
the transport's table. -/
def Surroundings.ownLocal : Surroundings (Fabric × LocalTransport) where
  transport := LocalTransport.transport
  fresh net := net.2 = {}
  meanwhile net net' := net'.2 = net.2 ∧ net.1.meshes.size ≤ net'.1.meshes.size ∧
    ∀ c ∈ net.2.live, net.1.isClosed c = false → net'.1.isClosed c = false

open LocalTransport (Intact)

namespace Site

variable {s s' : Site (Fabric × LocalTransport)} {parent : Vm} {policy : SpawnPolicy}
  {part : Partition} {parts : List Partition} {children : List LaunchedChild}

/-- The communicators of the children are added to the table. -/
theorem live_of_launchSlots (ht : s.registry.transport = LocalTransport.transport)
    (hi : Intact s.net) (h : launchSlots parent policy [] parts s = (.ok children, s')) :
    s'.registry.transport = LocalTransport.transport ∧ Intact s'.net ∧
      s'.net.2.live = s.net.2.live ++ children.map LaunchedChild.communicator := by
  refine launchSlots_induction
    (P := fun done s₁ => s₁.registry.transport = LocalTransport.transport ∧ Intact s₁.net ∧
      s₁.net.2.live = s.net.2.live ++ done.map LaunchedChild.communicator) ?_ h
    ⟨ht, hi, by simp⟩
  rintro done s₁ part child s₂ _ ⟨ht₁, hi₁, hlive⟩ hslot
  obtain ⟨owners, communicator, net, _, hderive, rfl, rfl⟩ := launchSlot_eq_ok hslot
  rw [ht₁] at hderive
  obtain ⟨hintact, htable⟩ := LocalTransport.derive_eq_ok hi₁ hderive
  refine ⟨ht₁, hintact, ?_⟩
  rw [htable, hlive, List.map_append, List.append_assoc]
  rfl

theorem net_of_launchSlot_eq_error {fault : LaunchFault}
    (ht : s.registry.transport = LocalTransport.transport)
    (h : launchSlot parent policy part s = (.error fault, s')) : s'.net = s.net := by
  rcases launchSlot_eq_error h with
    ⟨refusal, owners, _, _, rfl⟩ | ⟨owners, e, net, _, hderive, _, rfl⟩
  · rfl
  · rw [ht] at hderive
    exact (LocalTransport.derive_eq_error hderive).1

/-- A startup that fails leaves the table as it was. -/
theorem live_of_startup_eq_error {host : ThreadHost} {c : ExecutionContext} {plan : SpawnPlan}
    {e : VmError} (ht : s.registry.transport = LocalTransport.transport) (hi : Intact s.net)
    (hs : s.Tidy) (hp : s.Admits c plan → plan.parent.vm.id < s.nextVm)
    (h : s.startup host c plan = (.error e, s')) :
    Intact s'.net ∧ s'.net.2.live = s.net.2.live := by
  rcases startup_eq_error hs hp h with
    ⟨_, rfl⟩ |
    ⟨_, before, part, after, launched, s₁, fault, net, _, hbefore, hslot, _, rfl⟩ |
    ⟨_, children, s₁, pet, reason, hslots, _, _, rfl⟩
  · exact ⟨hi, rfl⟩
  · obtain ⟨ht₁, hi₁, hlive⟩ := live_of_launchSlots ht hi hbefore
    obtain rfl : net = s₁.net := net_of_launchSlot_eq_error ht₁ hslot
    rw [ht]
    exact LocalTransport.releaseAll_eq hi₁ hlive
  · obtain ⟨_, hi₁, hlive⟩ := live_of_launchSlots ht hi hslots
    rw [ht]
    exact LocalTransport.releaseAll_eq hi₁ hlive

end Site

namespace Stage

variable {s s' : Stage (Fabric × LocalTransport)}

/-- The table of the transport lists the communicators of the live VMs. -/
structure Wired (s : Stage (Fabric × LocalTransport)) : Prop where
  transport : s.site.registry.transport = LocalTransport.transport
  intact : Intact s.site.net
  table : s.site.net.2.live =
    s.site.registry.global.toList.map (·.vm.communicator) ++
      s.held.map LaunchedChild.communicator

namespace Wired

theorem mem_live (h : s.Wired) {v : Vm} (hv : s.Live v) : v.communicator ∈ s.site.net.2.live := by
  rw [h.table, List.mem_append]
  rcases hv with ⟨g, hg, rfl⟩ | ⟨c, hc, rfl⟩
  · exact Or.inl (List.mem_map.2 ⟨g, by simp [hg], rfl⟩)
  · exact Or.inr (List.mem_map.2 ⟨c, hc, rfl⟩)

theorem bringUp (h : s.Wired) (sound : s.Sound) (c : ExecutionContext) : (s.bringUp c).Wired := by
  unfold Stage.bringUp
  split
  · next global site hup =>
    obtain ⟨hglobal, t, world, net, _, hinit, rfl, rfl⟩ := Site.bringUp_eq_ok hup
    rw [h.transport] at hinit
    have hempty : s.site.net.2.live = [] := by
      rw [h.table, hglobal, sound.held_eq_nil hglobal]
      rfl
    obtain ⟨hintact, hlive⟩ := LocalTransport.create_eq_ok h.intact hinit
    refine ⟨h.transport, hintact, ?_⟩
    show net.2.live = [world] ++ s.held.map LaunchedChild.communicator
    rw [hlive, hempty, sound.held_eq_nil hglobal]
    rfl
  · next e site hup =>
    rcases Site.bringUp_eq_error hup with rfl | ⟨size, refusal, net, hinit, rfl⟩
    · exact h
    · rw [h.transport] at hinit
      obtain ⟨rfl, _⟩ := LocalTransport.create_eq_error hinit
      exact ⟨h.transport, h.intact, h.table⟩

theorem takeDown (h : s.Wired) (sound : s.Sound) (c : ExecutionContext) :
    (s.takeDown c).Wired := by
  unfold Stage.takeDown Site.takeDown
  cases hglobal : s.site.registry.global with
  | none => exact h
  | some g =>
    dsimp only
    split
    · next hleft =>
      have hheld : s.held = [] := sound.children_eq_nil_iff.1 (List.isEmpty_iff.1 hleft)
      have hopen := h.intact.opened _ (h.mem_live (Or.inl ⟨g, hglobal, rfl⟩))
      obtain ⟨hintact, hlive⟩ := LocalTransport.finalize_eq hopen
      refine ⟨h.transport, ?_, ?_⟩
      · show Intact (s.site.registry.transport.finalize g.vm.communicator s.site.net).2
        rw [h.transport]
        exact hintact
      · show (s.site.registry.transport.finalize g.vm.communicator s.site.net).2.2.live =
          s.held.map LaunchedChild.communicator
        rw [h.transport, hheld]
        exact hlive
    · exact ⟨h.transport, h.intact, h.table⟩

theorem startup (h : s.Wired) (sound : s.Sound) (host : ThreadHost) (c : ExecutionContext)
    (plan : SpawnPlan) : (s.startup host c plan).Wired := by
  unfold Stage.startup
  split
  · next spawned site hok =>
    obtain ⟨_, s₁, hslots, _, _, rfl⟩ := Site.startup_eq_ok sound.tidy sound.parent_lt hok
    obtain ⟨_, hintact, hlive⟩ := Site.live_of_launchSlots h.transport h.intact hslots
    refine ⟨h.transport, hintact, ?_⟩
    show s₁.net.2.live = _ ++ (s.held ++ spawned.children).map LaunchedChild.communicator
    rw [hlive, h.table, List.map_append, List.append_assoc]
  · next e site herror =>
    obtain ⟨hintact, hlive⟩ := Site.live_of_startup_eq_error h.transport h.intact sound.tidy
      sound.parent_lt herror
    obtain ⟨next, net, _, rfl⟩ :=
      Site.exists_eq_of_startup_eq_error sound.tidy sound.parent_lt herror
    exact ⟨h.transport, hintact, hlive.trans h.table⟩

theorem retire (h : s.Wired) (sound : s.Sound) {child : LaunchedChild} (held : child ∈ s.held) :
    (s.retire child).Wired := by
  obtain ⟨r, hr, hvm, _⟩ := sound.exists_record held
  have hretire := Site.retire_of_child? (hvm ▸ sound.child?_of_mem hr)
  obtain ⟨before, after, hheld⟩ := List.append_of_mem held
  have hrest : s.held.filter (·.vm.id != child.vm.id) = before ++ after := by
    have hn := sound.apart
    rw [hheld] at hn ⊢
    exact filter_key_ne_of_split hn
  have hlive : s.site.net.2.live =
      (s.site.registry.global.toList.map (·.vm.communicator) ++
        before.map LaunchedChild.communicator) ++
          child.communicator :: after.map LaunchedChild.communicator := by
    rw [h.table, hheld, List.map_append, List.append_assoc]
    rfl
  obtain ⟨hintact, htable⟩ := LocalTransport.release_eq h.intact hlive
  rw [Stage.retire, hretire, hrest]
  refine ⟨h.transport, ?_, ?_⟩
  · show Intact (s.site.registry.transport.release child.communicator s.site.net).2
    rw [h.transport]
    exact hintact
  · show (s.site.registry.transport.release child.communicator s.site.net).2.2.live = _
    rw [h.transport, List.map_append, ← List.append_assoc]
    exact htable

end Wired

/-- Over an own local transport, the table lists the communicators of the live VMs, all open. -/
theorem Reachable.wired (h : Reachable .ownLocal s) : s.Wired := by
  induction h with
  | start id config detected process _ fresh =>
    have hlive : process.net.2.live = [] := by
      rw [show process.net.2 = {} from fresh]
    refine ⟨rfl, ⟨?_, ?_, ?_, ?_⟩, hlive⟩ <;> simp [Stage.start, hlive]
  | step h next ih =>
    cases next with
    | bringUp c _ => exact ih.bringUp h.sound c
    | takeDown c => exact ih.takeDown h.sound c
    | startup host c _ => exact ih.startup h.sound host c _
    | retire held _ => exact ih.retire h.sound held
    | endThread c => exact ⟨ih.transport, ih.intact, ih.table⟩
    | meanwhile process _ _ net =>
      -- The fabric may have grown, but the table is the same and still open.
      obtain ⟨htable, hsize, hopen⟩ := net
      refine ⟨ih.transport, ⟨?_, ?_, ?_, ?_⟩, ?_⟩ <;> dsimp only [within] <;> rw [htable]
      · exact ih.intact.ids
      · exact ih.intact.meshes
      · intro c hc
        obtain ⟨hid, hmesh⟩ := ih.intact.earlier c hc
        exact ⟨hid, Nat.lt_of_lt_of_le hmesh hsize⟩
      · intro c hc
        exact hopen c hc (ih.intact.opened c hc)
      · exact ih.table

end Stage

end VirtualTopology
