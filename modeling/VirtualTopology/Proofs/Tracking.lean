import VirtualTopology.Proofs.Custody
import VirtualTopology.Proofs.Wiring

/-!
# Communicators over whole runs

A registry and the local transport it has for itself keep their books separately: the registry
knows its VMs, the transport its live communicators. Over every run the two agree. A communicator
is live as long as its VM is; once the VM is retired, rolled back or taken down with its bring-up,
the communicator is closed, and nothing opens it again.

## Main definitions

- `Fabric.Use`: what others may do to the fabric a transport lives on.
- `LocalTransport.Tracks`: the communicators given out so far, and which of them are closed.
- `Surroundings.soleLocal`: a local transport used by one registry only.

## Main statements

- `LocalTransport.tracks_create`, `LocalTransport.tracks_release`,
  `LocalTransport.tracks_finalize`, `LocalTransport.tracks_use`: one call, or what others do.
- `Chronicle.Reachable.tracking`: the communicators of all VMs of a run.
-/

namespace VirtualTopology

namespace Fabric

variable {f f' : Fabric} {c d : Communicator} {live : List Communicator}

/-! ### Closing -/

theorem isClosed_close (f : Fabric) (c d : Communicator) :
    (f.close c).isClosed d = (decide (c.mesh = d.mesh) || f.isClosed d) := by
  by_cases h : c.mesh = d.mesh
  · simp only [isClosed, close, meshOf, setMesh, h, Array.getD_eq_getD_getElem?,
      Array.getElem?_setIfInBounds_self]
    split <;> simp
  · simp [isClosed_close_of_ne (Ne.symm h), h]

theorem isClosed_closeAll (f : Fabric) (cs : List Communicator) (d : Communicator) :
    (f.closeAll cs).isClosed d = (cs.any (·.mesh = d.mesh) || f.isClosed d) := by
  induction cs generalizing f with
  | nil => rfl
  | cons c cs ih =>
    rw [closeAll, List.foldl_cons, ← closeAll, ih, isClosed_close, List.any_cons,
      Bool.or_left_comm, Bool.or_assoc]

theorem size_closeAll (f : Fabric) (cs : List Communicator) :
    (f.closeAll cs).meshes.size = f.meshes.size := by
  induction cs generalizing f with
  | nil => rfl
  | cons c cs ih => exact (ih (f.close c)).trans size_close

theorem lt_size_of_not_closed (h : f.isClosed c = false) : c.mesh < f.meshes.size := by
  by_contra hge
  simp [isClosed, meshOf, Array.getD_eq_getD_getElem?, Array.getElem?_eq_none (Nat.not_lt.1 hge)]
    at h

/-- Messages come and go on open communicators only. -/
theorem isClosed_setMesh_live {pending pending' : List Delivery}
    (h : f.meshOf c = .live pending) : (f.setMesh c (.live pending')).isClosed d = f.isClosed d := by
  by_cases hd : c.mesh = d.mesh
  · have hopen : f.isClosed c = false := by simp [isClosed, h]
    have hsize := lt_size_of_not_closed hopen
    have hsame : f.isClosed d = false := by rw [← hopen, isClosed, isClosed, meshOf, meshOf, hd]
    rw [hsame]
    simp [isClosed, meshOf, setMesh, ← hd, Array.getD_eq_getD_getElem?, hsize]
  · simp [isClosed, meshOf, setMesh, Array.getD_eq_getD_getElem?,
      Array.getElem?_setIfInBounds_ne hd]

/-! ### The use others make of a fabric -/

/-- Others make communicators, close those that are not live in the transport, and send and
receive. -/
inductive Use (live : List Communicator) (f : Fabric) : Fabric → Prop
  | none : Use live f f
  | allocate (id size : Nat) : Use live f (f.allocate id size).2
  | close (c : Communicator) (foreign : ∀ d ∈ live, d.mesh ≠ c.mesh) : Use live f (f.close c)
  | send (e : Endpoint) (target : Nat) (payload : Payload) : Use live f (e.send target payload f).2
  | receive (e : Endpoint) : Use live f (e.receive f).2

theorem isClosed_send (e : Endpoint) (target : Nat) (payload : Payload) :
    (e.send target payload f).2.isClosed d = f.isClosed d ∧
      (e.send target payload f).2.meshes.size = f.meshes.size := by
  unfold Endpoint.send
  split
  · exact ⟨rfl, rfl⟩
  · next hmesh =>
    split
    · exact ⟨isClosed_setMesh_live hmesh, by simp [setMesh]⟩
    · exact ⟨rfl, rfl⟩

theorem isClosed_receive (e : Endpoint) :
    (e.receive f).2.isClosed d = f.isClosed d ∧
      (e.receive f).2.meshes.size = f.meshes.size := by
  unfold Endpoint.receive
  split
  · exact ⟨rfl, rfl⟩
  · next hmesh =>
    split
    · exact ⟨rfl, rfl⟩
    · exact ⟨isClosed_setMesh_live hmesh, by simp [setMesh]⟩

/-- What is closed stays closed, and what is live stays open. -/
theorem Use.keeps (h : f.Use live f') : f.meshes.size ≤ f'.meshes.size ∧
    (∀ c, c.mesh < f.meshes.size → f.isClosed c = true → f'.isClosed c = true) ∧
    ∀ c ∈ live, f.isClosed c = false → f'.isClosed c = false := by
  cases h with
  | none => exact ⟨Nat.le_refl _, fun _ _ h => h, fun _ _ h => h⟩
  | allocate id size =>
    refine ⟨?_, fun c hc h => ?_, fun c _ h => ?_⟩
    · show f.meshes.size ≤ (f.meshes.push _).size
      rw [Array.size_push]
      exact Nat.le_succ _
    · rwa [isClosed_allocate id size hc]
    · rwa [isClosed_allocate id size (lt_size_of_not_closed h)]
  | close c foreign =>
    refine ⟨Nat.le_of_eq size_close.symm, fun d _ h => ?_, fun d hd h => ?_⟩
    · rw [isClosed_close, h, Bool.or_true]
    · rwa [isClosed_close_of_ne (foreign d hd)]
  | send e target payload =>
    have hsend := fun d => isClosed_send (f := f) (d := d) e target payload
    exact ⟨Nat.le_of_eq (hsend default).2.symm, fun d _ h => (hsend d).1.trans h,
      fun d _ h => (hsend d).1.trans h⟩
  | receive e =>
    have hreceive := fun d => isClosed_receive (f := f) (d := d) e
    exact ⟨Nat.le_of_eq (hreceive default).2.symm, fun d _ h => (hreceive d).1.trans h,
      fun d _ h => (hreceive d).1.trans h⟩

end Fabric

namespace LocalTransport

/-- These are the communicators given out so far; those that are not in the table are closed. -/
structure Tracks (given : List Communicator) (net : Fabric × LocalTransport) : Prop where
  ids : (given.map Communicator.id).Nodup
  earlier : ∀ c ∈ given, c.id < net.2.next ∧ c.mesh < net.1.meshes.size
  live : ∀ c ∈ net.2.live, c ∈ given
  shut : ∀ c ∈ given, c ∉ net.2.live → net.1.isClosed c = true

variable {given : List Communicator} {net net' : Fabric × LocalTransport}
  {c parent : Communicator} {size : Nat}

theorem tracks_create (h : Tracks given net) (hc : create size net = (.ok c, net')) :
    Tracks (given ++ [c]) net' := by
  obtain ⟨f, t⟩ := net
  unfold create at hc
  dsimp only at hc
  split at hc
  · obtain ⟨hanswer, rfl⟩ := Prod.mk.inj hc
    obtain rfl := Except.ok.inj hanswer
    refine ⟨?_, earlier_allocate h.earlier size, ?_, ?_⟩
    · exact nodup_map_concat h.ids fun d hd => Nat.ne_of_lt (h.earlier d hd).1
    · intro d hd
      exact List.mem_append.2 ((List.mem_append.1 hd).imp_left (h.live d))
    · intro d hd hnot
      rw [List.mem_append, not_or] at hnot
      have hold := (List.mem_append.1 hd).resolve_right hnot.2
      rw [Fabric.isClosed_allocate _ _ (h.earlier d hold).2]
      exact h.shut d hold hnot.1
  · simp at hc

theorem tracks_derive (h : Tracks given net) (hd : derive parent size net = (.ok c, net')) :
    Tracks (given ++ [c]) net' := by
  unfold derive at hd
  dsimp only at hd
  split at hd
  · simp at hd
  · exact tracks_create h hd

/-- Taking a communicator back closes what leaves the table. -/
theorem tracks_release (h : Tracks given net) (c : Communicator) :
    Tracks given (release c net).2 := by
  obtain ⟨f, t⟩ := net
  cases hfind : t.find? c.id with
  | none =>
    rw [show release c (f, t) = (.ok (), f, t) by simp only [release, hfind]]
    exact h
  | some found =>
    have hmem := List.mem_of_find?_eq_some hfind
    have hid : found.id = c.id := by simpa using List.find?_some hfind
    rw [show release c (f, t) = (.ok (), f.close found,
      { t with live := t.live.filter (·.id != c.id) }) by simp only [release, hfind]]
    refine ⟨h.ids, ?_, ?_, ?_⟩
    · intro d hd
      rw [Fabric.size_close]
      exact h.earlier d hd
    · intro d hd
      exact h.live d (List.mem_filter.1 hd).1
    · intro d hd hnot
      rw [Fabric.isClosed_close]
      by_cases hlive : d ∈ t.live
      -- It left the table, so it has the number that was asked for and is the one that was found.
      · have hdid : d.id = c.id := by
          by_contra hne
          exact hnot (List.mem_filter.2 ⟨hlive, by simpa using hne⟩)
        have hsame : d = found :=
          List.inj_on_of_nodup_map h.ids hd (h.live _ hmem) (hdid.trans hid.symm)
        simp [hsame]
      · rw [h.shut d hd hlive, Bool.or_true]

theorem tracks_releaseAll (h : Tracks given net) (cs : List Communicator) :
    Tracks given (transport.releaseAll cs net) := by
  induction cs generalizing net with
  | nil => exact h
  | cons c cs ih => exact ih (tracks_release h c)

theorem tracks_finalize (h : Tracks given net) (world : Communicator) :
    Tracks given (finalize world net).2 := by
  obtain ⟨f, t⟩ := net
  unfold finalize
  dsimp only
  split
  · exact h
  · refine ⟨h.ids, ?_, ?_, ?_⟩
    · intro d hd
      rw [Fabric.size_closeAll]
      exact h.earlier d hd
    · simp
    · intro d hd _
      rw [Fabric.isClosed_closeAll]
      by_cases hlive : d ∈ t.live
      · rw [List.any_eq_true.2 ⟨d, hlive, by simp⟩, Bool.true_or]
      · rw [h.shut d hd hlive, Bool.or_true]

/-- Others may let the fabric grow and close what is not in the table. -/
theorem tracks_mono (h : Tracks given net) (htable : net'.2 = net.2)
    (hsize : net.1.meshes.size ≤ net'.1.meshes.size)
    (hclosed : ∀ c, c.mesh < net.1.meshes.size → net.1.isClosed c = true →
      net'.1.isClosed c = true) : Tracks given net' := by
  refine ⟨h.ids, ?_, ?_, ?_⟩
  · intro c hc
    rw [htable]
    obtain ⟨hid, hmesh⟩ := h.earlier c hc
    exact ⟨hid, Nat.lt_of_lt_of_le hmesh hsize⟩
  · intro c hc
    exact h.live c (htable ▸ hc)
  · intro c hc hnot
    exact hclosed c (h.earlier c hc).2 (h.shut c hc (htable ▸ hnot))

theorem tracks_use (h : Tracks given net) (htable : net'.2 = net.2)
    (huse : net.1.Use net.2.live net'.1) : Tracks given net' :=
  tracks_mono h htable huse.keeps.1 huse.keeps.2.1

theorem intact_mono (h : Intact net) (htable : net'.2 = net.2)
    (hsize : net.1.meshes.size ≤ net'.1.meshes.size)
    (hopen : ∀ c ∈ net.2.live, net.1.isClosed c = false → net'.1.isClosed c = false) :
    Intact net' := by
  refine ⟨?_, ?_, ?_, ?_⟩ <;> rw [htable]
  · exact h.ids
  · exact h.meshes
  · intro c hc
    obtain ⟨hid, hmesh⟩ := h.earlier c hc
    exact ⟨hid, Nat.lt_of_lt_of_le hmesh hsize⟩
  · intro c hc
    exact hopen c hc (h.opened c hc)

end LocalTransport

open LocalTransport (Tracks)

/-- A local transport that one registry has for itself. Others may use the fabric it is on. -/
def Surroundings.soleLocal : Surroundings (Fabric × LocalTransport) where
  transport := LocalTransport.transport
  fresh net := net.2 = {}
  meanwhile net net' := net'.2 = net.2 ∧ net.1.Use net.2.live net'.1

theorem Stage.Reachable.ownLocal {s : Stage (Fabric × LocalTransport)}
    (h : Reachable .soleLocal s) : Reachable .ownLocal s := by
  induction h with
  | start id config detected process unbound fresh =>
    exact .start id config detected process unbound fresh
  | step _ next ih =>
    refine ih.step ?_
    cases next with
    | bringUp c begun => exact .bringUp c begun
    | takeDown c => exact .takeDown c
    | startup host c known => exact .startup host c known
    | retire held ended => exact .retire held ended
    | endThread c => exact .endThread c
    | meanwhile process ids own net =>
      obtain ⟨hsize, _, hopen⟩ := net.2.keeps
      exact .meanwhile process ids own ⟨net.1, hsize, hopen⟩

namespace Site

variable {s s' : Site (Fabric × LocalTransport)} {parent : Vm} {policy : SpawnPolicy}
  {parts : List Partition} {children : List LaunchedChild} {given : List Communicator}
  {c : ExecutionContext} {plan : SpawnPlan}

theorem tracks_of_launchSlots (ht : s.registry.transport = LocalTransport.transport)
    (hgiven : Tracks given s.net) (h : launchSlots parent policy [] parts s = (.ok children, s')) :
    s'.registry.transport = LocalTransport.transport ∧
      Tracks (given ++ children.map LaunchedChild.communicator) s'.net := by
  refine launchSlots_induction
    (P := fun done s₁ => s₁.registry.transport = LocalTransport.transport ∧
      Tracks (given ++ done.map LaunchedChild.communicator) s₁.net) ?_ h ⟨ht, by simpa using hgiven⟩
  rintro done s₁ part child s₂ _ ⟨ht₁, hdone⟩ hslot
  obtain ⟨owners, communicator, net, _, hderive, rfl, rfl⟩ := launchSlot_eq_ok hslot
  rw [ht₁] at hderive
  refine ⟨ht₁, ?_⟩
  rw [List.map_append, ← List.append_assoc]
  exact LocalTransport.tracks_derive hdone hderive

/-- A startup has the communicators of the VMs it makes, whether or not it fails. -/
theorem tracks_startup (ht : s.registry.transport = LocalTransport.transport)
    (hgiven : Tracks given s.net) (hs : s.Tidy)
    (hp : s.Admits c plan → plan.parent.vm.id < s.nextVm) (host : ThreadHost) :
    Tracks (given ++ (s.built c plan).map Vm.communicator) (s.startup host c plan).2.net := by
  rcases hstartup : s.startup host c plan with ⟨e | spawned, s'⟩
  · rcases startup_eq_error hs hp hstartup with
      ⟨hadmits, rfl⟩ |
      ⟨hadmits, before, part, after, launched, s₁, fault, net, hparts, hbefore, hslot, _, rfl⟩ |
      ⟨hadmits, children, s₁, pet, reason, hslots, _, _, rfl⟩
    · rw [built_of_not_admits hadmits]
      simpa using hgiven
    · obtain ⟨ht₁, htracks⟩ := tracks_of_launchSlots ht hgiven hbefore
      obtain rfl : net = s₁.net := net_of_launchSlot_eq_error ht₁ hslot
      have hbuilt : launched.map LaunchedChild.vm = s.built c plan := by
        rw [built_of_admits hadmits, hparts]
        exact builtSlots_of_error hbefore hslot
      rw [← hbuilt, List.map_map]
      show Tracks _ (s.registry.transport.releaseAll _ s₁.net)
      rw [ht]
      exact LocalTransport.tracks_releaseAll htracks _
    · obtain ⟨_, htracks⟩ := tracks_of_launchSlots ht hgiven hslots
      have hbuilt : children.map LaunchedChild.vm = s.built c plan := by
        rw [built_of_admits hadmits]
        exact builtSlots_of_ok hslots
      rw [← hbuilt, List.map_map]
      show Tracks _ (s.registry.transport.releaseAll _ s₁.net)
      rw [ht]
      exact LocalTransport.tracks_releaseAll htracks _
  · rw [built_of_startup_eq_ok hs hp hstartup, List.map_map]
    obtain ⟨_, s₁, hslots, _, _, rfl⟩ := startup_eq_ok hs hp hstartup
    exact (tracks_of_launchSlots ht hgiven hslots).2

end Site

namespace Stage

variable {σ : Type} {s : Stage σ} {v : Vm}

/-- The VMs that are live: the Global VM and the children that are held. -/
def liveVms (s : Stage σ) : List Vm :=
  s.site.registry.global.toList.map VmHandle.vm ++ s.held.map LaunchedChild.vm

theorem mem_liveVms_iff : v ∈ s.liveVms ↔ s.Live v := by
  simp [liveVms, Live, and_comm]

theorem Sound.eq_nil_of_down (h : s.Sound) (hdown : s.site.registry.state ≠ .initialized) :
    s.site.registry.global = none ∧ s.held = [] := by
  have hglobal : s.site.registry.global = none := by
    cases hg : s.site.registry.global with
    | none => rfl
    | some g => exact absurd (h.up g hg).1 hdown
  exact ⟨hglobal, h.held_eq_nil hglobal⟩

end Stage

namespace Chronicle

variable {k k' : Chronicle (Fabric × LocalTransport)}

theorem Reachable.tracks (h : Reachable .soleLocal k) :
    Tracks (k.built.map Vm.communicator) k.stage.site.net := by
  induction h with
  | start id config detected process unbound fresh =>
    have hlive : process.net.2.live = [] := by rw [show process.net.2 = {} from fresh]
    constructor <;> simp [Stage.start, hlive]
  | @step k k' h next ih =>
    have hsound := h.stage.sound
    have ht := h.stage.ownLocal.wired.transport
    cases next with
    | bringUp c begun =>
      show Tracks ((k.bringUp c).built.map _) (k.stage.bringUp c).site.net
      rw [Stage.site_bringUp, Chronicle.bringUp]
      rcases hup : k.stage.site.bringUp c with ⟨e | global, site⟩
      · have hnet : site.net = k.stage.site.net := by
          rcases Site.bringUp_eq_error hup with rfl | ⟨size, refusal, net, hinit, rfl⟩
          · rfl
          · rw [ht] at hinit
            exact (LocalTransport.create_eq_error hinit).1
        simpa [Except.toOption, hnet] using ih
      · obtain ⟨_, t, world, net, _, hinit, rfl, rfl⟩ := Site.bringUp_eq_ok hup
        rw [ht] at hinit
        rw [List.map_append]
        exact LocalTransport.tracks_create ih hinit
    | takeDown c =>
      show Tracks _ (k.stage.site.takeDown c).2.net
      unfold Site.takeDown
      split
      · exact ih
      · split
        · dsimp only
          rw [ht]
          exact LocalTransport.tracks_finalize ih _
        · exact ih
    | startup host c known =>
      show Tracks ((k.built ++ _).map _) (k.stage.startup host c _).site.net
      rw [Stage.site_startup, List.map_append]
      exact Site.tracks_startup ht ih hsound.tidy hsound.parent_lt host
    | @retire before handle after child rest split left ended =>
      show Tracks _ (k.stage.site.retire child.vm).net
      unfold Site.retire
      split
      · exact ih
      · dsimp only
        rw [ht]
        exact LocalTransport.tracks_release ih _
    | endThread c => exact ih
    | meanwhile process ids own net => exact LocalTransport.tracks_use ih net.1 net.2

/-- Over a local transport that the registry has for itself, the live communicators are those of the
live VMs, one each, so their number is none while nothing is up and otherwise one more than that of
the outstanding children. No two VMs that were ever made have the same communicator, that of a live
VM is open, and that of a VM that is not live is closed for good. Among these are the VMs that were
retired, those that were made by startups that failed, and, once the registry was taken down, all. -/
theorem Reachable.tracking (h : Reachable .soleLocal k) :
    k.stage.site.net.2.live = k.stage.liveVms.map Vm.communicator ∧
    k.stage.liveVms.Nodup ∧
    k.stage.site.net.2.liveCount =
      (if k.stage.site.registry.state = .initialized then 1 + k.stage.site.registry.outstanding
      else 0) ∧
    (k.built.map (·.communicator.id)).Nodup ∧
    (∀ v ∈ k.stage.liveVms,
      v ∈ k.built ∧ k.stage.site.net.1.isClosed v.communicator = false) ∧
    (∀ v ∈ k.built, v ∉ k.stage.liveVms →
      ∀ k', Relation.ReflTransGen (Step .soleLocal) k k' →
        v ∉ k'.stage.liveVms ∧ k'.stage.site.net.1.isClosed v.communicator = true) ∧
    (∀ handle ∈ k.handles, ∀ child ∈ handle.gone, child.vm ∉ k.stage.liveVms) ∧
    (∀ v, v ∉ k.stage.made → v ∉ k.stage.liveVms) ∧
    (k.stage.site.registry.state ≠ .initialized → k.stage.liveVms = []) := by
  have hsound := h.stage.sound
  have hwired := h.stage.ownLocal.wired
  have htable : ∀ {k : Chronicle (Fabric × LocalTransport)}, Reachable .soleLocal k →
      k.stage.site.net.2.live = k.stage.liveVms.map Vm.communicator := by
    intro k h
    rw [h.stage.ownLocal.wired.table, Stage.liveVms, List.map_append, List.map_map, List.map_map]
    rfl
  have hdistinct : ∀ {k : Chronicle (Fabric × LocalTransport)}, Reachable .soleLocal k →
      (k.built.map (·.communicator.id)).Nodup := by
    intro k h
    have hids := h.tracks.ids
    rwa [List.map_map] at hids
  have hmade : ∀ v ∈ k.stage.liveVms, v ∈ k.stage.made := fun v hv =>
    hsound.mem_made_of_live (Stage.mem_liveVms_iff.1 hv)
  refine ⟨htable h, ?_, ?_, hdistinct h, ?_, ?_, ?_, fun v hv hlive => hv (hmade v hlive), ?_⟩
  · have hids := hwired.intact.ids
    rw [htable h, List.map_map] at hids
    exact hids.of_map
  · rw [LocalTransport.liveCount, htable h, List.length_map, Stage.liveVms, List.length_append,
      List.length_map, List.length_map, Registry.outstanding]
    have hlength := congrArg List.length hsound.map_vm_children
    rw [List.length_map, List.length_map] at hlength
    split
    · next up =>
      obtain ⟨g, hg⟩ := hsound.exists_global up
      rw [hg, hlength]
      rfl
    · next hdown =>
      obtain ⟨hglobal, hheld⟩ := hsound.eq_nil_of_down hdown
      rw [hglobal, hheld]
      rfl
  · intro v hv
    refine ⟨h.faithful.built.subset (hmade v hv), hwired.intact.opened _ ?_⟩
    rw [htable h]
    exact List.mem_map_of_mem hv
  · intro v hv hnot k' run
    have h' := h.run run
    obtain ⟨hv', hnot'⟩ := h.not_live_run run hv (mt Stage.mem_liveVms_iff.2 hnot)
    refine ⟨mt Stage.mem_liveVms_iff.1 hnot', h'.tracks.shut _ (List.mem_map_of_mem hv') ?_⟩
    -- No other VM has its communicator.
    rw [htable h']
    intro hmem
    obtain ⟨w, hw, hsame⟩ := List.mem_map.1 hmem
    have hlive := Stage.mem_liveVms_iff.1 hw
    have hw' := h'.faithful.built.subset (h'.stage.sound.mem_made_of_live hlive)
    have heq : w = v := List.inj_on_of_nodup_map (hdistinct h') hw' hv' (by rw [hsame])
    exact hnot' (heq ▸ hlive)
  · intro handle hmem child hchild
    exact mt Stage.mem_liveVms_iff.1 (h.not_live_of_gone handle hmem child hchild)
  · intro hdown
    obtain ⟨hglobal, hheld⟩ := hsound.eq_nil_of_down hdown
    rw [Stage.liveVms, hglobal, hheld]
    rfl

/-- The first of two children is retired and the Global VM asks for both again: VM 4 is made and
goes when its sister is refused. -/
def refused : Chronicle (Fabric × LocalTransport) :=
  (halved LocalTransport.transport ({}, {})).retireHalf.spawn .main 2 .maxThreads

theorem reachable_refused : Reachable .soleLocal refused := by
  have hhalved : Reachable .soleLocal (halved LocalTransport.transport ({}, {})) :=
    reachable_halved (show Surroundings.soleLocal.fresh ({}, {}) from rfl)
  exact reachable_spawn (reachable_retireHalf hhalved (by decide)) _ _ _

theorem tracking_refused :
    refused.built.map Vm.id = [1, 2, 3, 4] ∧ refused.stage.made.map Vm.id = [1, 2, 3] ∧
    refused.stage.liveVms.map Vm.id = [1, 3] ∧ refused.stage.site.net.2.liveCount = 2 ∧
    ∀ v ∈ refused.built, v ∉ refused.stage.liveVms →
      ∀ k', Relation.ReflTransGen (Step .soleLocal) refused k' →
        k'.stage.site.net.1.isClosed v.communicator = true := by
  obtain ⟨_, _, hcount, _, _, hclosed, _⟩ := Reachable.tracking reachable_refused
  refine ⟨by decide, by decide, by decide, hcount.trans (by decide), ?_⟩
  intro v hv hnot k' run
  exact (hclosed v hv hnot k' run).2

end Chronicle

end VirtualTopology
