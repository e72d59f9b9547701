import VirtualTopology.Proofs.Lifecycle
import VirtualTopology.Proofs.Tracking

/-!
# Registries that share a local transport

A local transport does not know which of its communicators were derived from which world: as the
first of several registries is taken down, it closes whatever is live for any of them. The others
are not told. A registry is intact until that happens, and for as long as it is intact the
communicators of its VMs are open; afterwards they are all closed, until it is brought up anew.

## Main definitions

- `Event.intact`: whether a registry was spared since it was brought up.
- `LocalTransport.Serves`: a transport of several users.
- `Grounds.sharedLocal`: registries on one local transport.

## Main statements

- `LocalTransport.Serves.isClosed_iff`: whose communicators are closed.
- `Campus.Reachable.isClosed_iff_not_intact`: what becomes of messages, launches and teardowns.
-/

namespace VirtualTopology

/-- Whether a registry was brought up, and nothing has closed its communicators since. A registry
that is taken down closes those of all others, unless its own were closed by another before. -/
def Event.intact (registry : Nat) : List Event → Bool
  | [] => false
  | .up r _ _ :: earlier => r = registry || Event.intact registry earlier
  | .down r :: earlier =>
    r != registry && Event.intact registry earlier && !Event.intact r earlier
  | .launch .. :: earlier | .ended _ :: earlier => Event.intact registry earlier

/-! ### One transport, several users -/

namespace LocalTransport

/-- What a transport keeps when its communicators are those of the VMs of several users. Those in
the table belong to the users that are intact. -/
structure Serves (given : List Communicator) (users : Nat → Vm → Prop) (intact : Nat → Prop)
    (net : Fabric × LocalTransport) : Prop where
  tracks : Tracks given net
  opened : Intact net
  known : ∀ i v, users i v → v.communicator ∈ given
  told : ∀ i v j w, users i v → users j w → v.communicator = w.communicator → i = j ∧ v = w
  table : ∀ c, c ∈ net.2.live ↔ ∃ i v, users i v ∧ intact i ∧ v.communicator = c

variable {given : List Communicator} {users users' : Nat → Vm → Prop} {intact intact' : Nat → Prop}
  {net net' : Fabric × LocalTransport} {i : Nat} {v : Vm} {c d : Communicator}

/-- A release takes the communicator out of the table, and no other. -/
theorem mem_live_release_iff (h : Tracks given net) (hc : c ∈ given) :
    d ∈ (release c net).2.2.live ↔ d ∈ net.2.live ∧ d ≠ c := by
  obtain ⟨f, t⟩ := net
  have hid : ∀ d ∈ t.live, d.id = c.id → d = c := fun d hd =>
    List.inj_on_of_nodup_map h.ids (h.live d hd) hc
  cases hfind : t.find? c.id with
  | none =>
    have hnone : ∀ d ∈ t.live, d.id ≠ c.id := by simpa [find?] using hfind
    rw [show release c (f, t) = (.ok (), f, t) by simp only [release, hfind]]
    exact ⟨fun hd => ⟨hd, fun heq => hnone d hd (congrArg _ heq)⟩, And.left⟩
  | some found =>
    rw [show release c (f, t) = (.ok (), f.close found,
      { t with live := t.live.filter (·.id != c.id) }) by simp only [release, hfind]]
    rw [List.mem_filter, bne_iff_ne]
    refine and_congr_right fun hd => not_congr ⟨hid d hd, congrArg _⟩

theorem intact_release (h : Tracks given net) (hi : Intact net) (hc : c ∈ given) :
    Intact (release c net).2 := by
  by_cases hlive : c ∈ net.2.live
  · obtain ⟨before, after, hsplit⟩ := List.append_of_mem hlive
    exact (release_eq hi hsplit).1
  · obtain ⟨f, t⟩ := net
    have hfind : t.find? c.id = none := by
      rw [find?, List.find?_eq_none]
      intro d hd hid
      have heq : d = c := List.inj_on_of_nodup_map h.ids (h.live d hd) hc (by simpa using hid)
      exact hlive (heq ▸ hd)
    rwa [show release c (f, t) = (.ok (), f, t) by simp only [release, hfind]]

namespace Serves

/-- A communicator is closed if its user is not intact. -/
theorem isClosed_iff (h : Serves given users intact net) (hv : users i v) :
    net.1.isClosed v.communicator = true ↔ ¬ intact i := by
  constructor
  · intro hclosed hintact
    have hopen := h.opened.opened _ ((h.table _).2 ⟨i, v, hv, hintact, rfl⟩)
    rw [hclosed] at hopen
    cases hopen
  · intro hnot
    refine h.tracks.shut _ (h.known i v hv) fun hlive => ?_
    obtain ⟨j, w, hw, hintact, heq⟩ := (h.table _).1 hlive
    obtain ⟨rfl, _⟩ := h.told j w i v hw hv heq
    exact hnot hintact

/-- Users may be forgotten, as long as those that are intact stay. -/
theorem mono (h : Serves given users intact net) (sub : ∀ i v, users' i v → users i v)
    (keep : ∀ i v, users i v → intact i → users' i v ∧ intact' i)
    (back : ∀ i v, users' i v → intact' i → intact i) : Serves given users' intact' net where
  tracks := h.tracks
  opened := h.opened
  known i v hv := h.known i v (sub i v hv)
  told i v j w hv hw := h.told i v j w (sub i v hv) (sub j w hw)
  table c := by
    rw [h.table]
    constructor
    · rintro ⟨i, v, hv, hintact, rfl⟩
      obtain ⟨hv', hintact'⟩ := keep i v hv hintact
      exact ⟨i, v, hv', hintact', rfl⟩
    · rintro ⟨i, v, hv, hintact, rfl⟩
      exact ⟨i, v, sub i v hv, back i v hv hintact, rfl⟩

/-- A user that is intact gets communicators for new VMs. -/
theorem grow (h : Serves given users intact net) (hi : intact i) (vms : List Vm)
    (tracks : Tracks (given ++ vms.map Vm.communicator) net') (opened : Intact net')
    (live : net'.2.live = net.2.live ++ vms.map Vm.communicator) :
    Serves (given ++ vms.map Vm.communicator) (fun j v => users j v ∨ j = i ∧ v ∈ vms) intact
      net' := by
  have hnodup := List.Nodup.of_map _ tracks.ids
  obtain ⟨_, hvms, hapart⟩ := List.nodup_append.1 hnodup
  refine { tracks, opened, known := ?_, told := ?_, table := ?_ }
  · rintro j v (hv | ⟨_, hv⟩)
    · exact List.mem_append_left _ (h.known j v hv)
    · exact List.mem_append_right _ (List.mem_map_of_mem hv)
  · rintro j v j' w (hv | ⟨rfl, hv⟩) (hw | ⟨rfl, hw⟩) heq
    · exact h.told j v j' w hv hw heq
    · exact absurd heq (hapart _ (h.known j v hv) _ (List.mem_map_of_mem hw))
    · exact absurd heq.symm (hapart _ (h.known j' w hw) _ (List.mem_map_of_mem hv))
    · exact ⟨rfl, List.inj_on_of_nodup_map hvms hv hw heq⟩
  · intro c
    rw [live, List.mem_append, h.table, List.mem_map]
    constructor
    · rintro (⟨j, v, hv, hintact, rfl⟩ | ⟨v, hv, rfl⟩)
      · exact ⟨j, v, Or.inl hv, hintact, rfl⟩
      · exact ⟨i, v, Or.inr ⟨rfl, hv⟩, hi, rfl⟩
    · rintro ⟨j, v, hv | ⟨rfl, hv⟩, hintact, rfl⟩
      · exact Or.inl ⟨j, v, hv, hintact, rfl⟩
      · exact Or.inr ⟨v, hv, rfl⟩

/-- What is released is of nobody any more. -/
theorem release (h : Serves given users intact net) (hv : users i v) :
    Serves given (fun j w => users j w ∧ w ≠ v) intact
      (LocalTransport.release v.communicator net).2 where
  tracks := tracks_release h.tracks _
  opened := intact_release h.tracks h.opened (h.known i v hv)
  known j w hw := h.known j w hw.1
  told j w j' w' hw hw' := h.told j w j' w' hw.1 hw'.1
  table c := by
    rw [mem_live_release_iff h.tracks (h.known i v hv), h.table]
    constructor
    · rintro ⟨⟨j, w, hw, hintact, rfl⟩, hne⟩
      exact ⟨j, w, ⟨hw, fun heq => hne (congrArg _ heq)⟩, hintact, rfl⟩
    · rintro ⟨j, w, ⟨hw, hne⟩, hintact, rfl⟩
      exact ⟨⟨j, w, hw, hintact, rfl⟩, fun heq => hne (h.told j w i v hw hv heq).2⟩

/-- A world that is shut down takes everything along, if it is open itself. -/
theorem finalize (h : Serves given users intact net) (hv : users i v)
    (spared : ∀ j, j ≠ i → (intact' j ↔ intact j ∧ ¬ intact i)) :
    Serves given (fun j w => j ≠ i ∧ users j w) intact'
      (LocalTransport.finalize v.communicator net).2 := by
  by_cases hi : intact i
  · have hopen : net.1.isClosed v.communicator = false := by
      rw [← Bool.not_eq_true, h.isClosed_iff hv]
      exact not_not_intro hi
    obtain ⟨hintact, hlive⟩ := finalize_eq hopen
    refine
      { tracks := tracks_finalize h.tracks _
        opened := hintact
        known := fun j w hw => h.known j w hw.2
        told := fun j w j' w' hw hw' => h.told j w j' w' hw.2 hw'.2
        table := fun c => ?_ }
    rw [hlive]
    refine iff_of_false List.not_mem_nil ?_
    rintro ⟨j, w, ⟨hne, _⟩, hj, _⟩
    exact ((spared j hne).1 hj).2 hi
  · have hclosed := (h.isClosed_iff hv).2 hi
    have hnet : (LocalTransport.finalize v.communicator net).2 = net := by
      simp [LocalTransport.finalize, hclosed]
    rw [hnet]
    refine h.mono (fun j w hw => hw.2) (fun j w hw hj => ?_) fun j w hw hj =>
      ((spared j hw.1).1 hj).1
    have hne : j ≠ i := by
      rintro rfl
      exact hi hj
    exact ⟨⟨hne, hw⟩, (spared j hne).2 ⟨hj, hi⟩⟩

/-- Communicators that come and go again are nobody's. -/
theorem renew (h : Serves given users intact net) {given' : List Communicator}
    (sub : given ⊆ given') (tracks : Tracks given' net') (opened : Intact net')
    (live : net'.2.live = net.2.live) : Serves given' users intact net' where
  tracks := tracks
  opened := opened
  known i v hv := sub (h.known i v hv)
  told := h.told
  table c := by
    rw [live]
    exact h.table c

/-- Others may use the fabric. -/
theorem use (h : Serves given users intact net) (htable : net'.2 = net.2)
    (huse : net.1.Use net.2.live net'.1) : Serves given users intact net' :=
  h.renew (List.Subset.refl _) (tracks_use h.tracks htable huse)
    (intact_mono h.opened htable huse.keeps.1 huse.keeps.2.2) (by rw [htable])

end Serves

end LocalTransport

namespace Endpoint

variable {target : Nat}

/-- Messages are taken in and given out as long as the communicator is open. -/
theorem isOk_send_iff (e : Endpoint) (f : Fabric) (payload : Payload)
    (h : target < e.communicator.size) :
    (e.send target payload f).1.isOk ↔ f.isClosed e.communicator = false := by
  unfold send Fabric.isClosed
  cases f.meshOf e.communicator with
  | closed => simp [Except.isOk, Except.toBool]
  | live pending => simp [h, Except.isOk, Except.toBool]

theorem isOk_receive_iff (e : Endpoint) (f : Fabric) :
    (e.receive f).1.isOk ↔ f.isClosed e.communicator = false := by
  unfold receive Fabric.isClosed
  cases f.meshOf e.communicator with
  | closed => simp [Except.isOk, Except.toBool]
  | live pending =>
    dsimp only
    split <;> simp [Except.isOk, Except.toBool]

end Endpoint

namespace Site

variable {s s' : Site (Fabric × LocalTransport)} {parent : Vm} {policy : SpawnPolicy}
  {parts : List Partition} {children : List LaunchedChild}

/-- Children are launched under a parent that is open only. -/
theorem open_of_launchSlots (ht : s.registry.transport = LocalTransport.transport)
    (h : launchSlots parent policy [] parts s = (.ok children, s')) (hparts : parts ≠ []) :
    s.net.1.isClosed parent.communicator = false := by
  cases parts with
  | nil => exact absurd rfl hparts
  | cons part parts =>
    rw [launchSlots] at h
    rcases hslot : launchSlot parent policy part s with ⟨fault | child, s₁⟩
    · rw [hslot] at h
      cases (Prod.mk.inj h).1
    · obtain ⟨_, communicator, net, _, hderive, _, _⟩ := launchSlot_eq_ok hslot
      rw [ht] at hderive
      change LocalTransport.derive _ _ _ = _ at hderive
      unfold LocalTransport.derive at hderive
      dsimp only at hderive
      split at hderive
      · simp at hderive
      · next hopen => simpa using hopen

end Site

namespace Stage

variable {σ : Type} {s : Stage σ} {child : LaunchedChild} {v : Vm}

/-- A child that is retired is live no more, and all others are. -/
theorem Sound.live_retire_iff (h : s.Sound) (hheld : child ∈ s.held) :
    (s.retire child).Live v ↔ s.Live v ∧ v ≠ child.vm := by
  have hglobal : (s.retire child).site.registry.global = s.site.registry.global := by
    show (s.site.retire child.vm).registry.global = _
    unfold Site.retire
    split <;> rfl
  rw [Live, hglobal]
  constructor
  · rintro (⟨g, hg, rfl⟩ | ⟨other, hother, rfl⟩)
    · exact ⟨Or.inl ⟨g, hg, rfl⟩, fun heq => h.ne_global hg hheld (by rw [heq])⟩
    · obtain ⟨hmem, hne⟩ := List.mem_filter.1 hother
      exact ⟨Or.inr ⟨other, hmem, rfl⟩, fun heq => by simp [heq] at hne⟩
  · rintro ⟨hg | ⟨other, hother, rfl⟩, hne⟩
    · exact Or.inl hg
    · refine Or.inr ⟨other, List.mem_filter.2 ⟨hother, ?_⟩, rfl⟩
      have hid : other.vm.id ≠ child.vm.id := fun heq =>
        hne (h.eq_of_id (h.kept other hother) (h.kept child hheld) heq)
      simpa using hid

end Stage

namespace Campus

variable {σ : Type}

/-- The VMs that are live for the registry at a position. -/
def Uses (a : Campus σ) (i : Nat) (v : Vm) : Prop := ∃ k, a.chronicle? i = some k ∧ k.stage.Live v

/-- Whether the registry at a position is intact. -/
def Spared (history : List Event) (i : Nat) : Prop := Event.intact (i + 1) history = true

variable {a : Campus σ} {i j : Nat} {k k' : Chronicle σ} {news : List Event} {v : Vm}

theorem uses_iff (hk : a.chronicle? i = some k) : a.Uses i v ↔ k.stage.Live v := by
  constructor
  · rintro ⟨k', hk', hv⟩
    rwa [Option.some.inj (hk.symm.trans hk')]
  · exact fun hv => ⟨k, hk, hv⟩

theorem uses_enter_iff (hk : a.chronicle? i = some k) :
    (a.enter i k' news).Uses j v ↔ (j ≠ i ∧ a.Uses j v) ∨ (j = i ∧ k'.stage.Live v) := by
  by_cases hij : j = i
  · subst hij
    simp [uses_iff (chronicle?_enter_self hk k' news)]
  · have hne : i ≠ j := Ne.symm hij
    simp [Uses, chronicle?_enter_of_ne hne, hij, Chronicle.within, Stage.within, Stage.Live]

end Campus

/-- Registries on one local transport. Others may use the fabric it is on. -/
def Grounds.sharedLocal : Grounds (Fabric × LocalTransport) where
  transports := (· = LocalTransport.transport)
  fresh net := net.2 = {}
  meanwhile net net' := net'.2 = net.2 ∧ net.1.Use net.2.live net'.1

/-! ### Operations -/

namespace Campus

open LocalTransport (Serves)

section

variable {a : Campus (Fabric × LocalTransport)} {i : Nat} {news : List Event}
  {k : Chronicle (Fabric × LocalTransport)} {given : List Communicator}

/-- An operation that comes to nothing changes nothing for anyone. -/
theorem uses_enter_of_live_iff (hk : a.chronicle? i = some k)
    {k' : Chronicle (Fabric × LocalTransport)} (hlive : ∀ v, k'.stage.Live v ↔ k.stage.Live v) :
    (a.enter i k' news).Uses = a.Uses := by
  funext j v
  rw [uses_enter_iff hk, hlive, ← uses_iff hk, eq_iff_iff]
  by_cases hj : j = i <;> simp [hj]

theorem serves_bringUp (hk : a.chronicle? i = some k) (sound : k.stage.Sound)
    (ht : k.stage.site.registry.transport = LocalTransport.transport)
    (hid : k.stage.site.registry.id = i + 1)
    (h : Serves given a.Uses (Spared a.history) a.process.net) (c : ExecutionContext) :
    ∃ given', Serves given' (a.enter i (k.bringUp c) (k.news (.bringUp c))).Uses
      (Spared (k.news (.bringUp c) ++ a.history)) (k.bringUp c).stage.site.net := by
  have hnet : k.stage.site.net = a.process.net := by rw [toProcess_of_chronicle? hk]
  rcases hup : k.stage.site.bringUp c with ⟨e | global, site⟩
  · obtain ⟨hstage, hnews⟩ := Chronicle.bringUp_of_error hup
    obtain ⟨hregistry, hsame⟩ : site.registry = k.stage.site.registry ∧
        site.net = a.process.net := by
      rcases Site.bringUp_eq_error hup with rfl | ⟨_, _, net, hinit, rfl⟩
      · exact ⟨rfl, hnet⟩
      · rw [ht] at hinit
        exact ⟨rfl, (LocalTransport.create_eq_error hinit).1.trans hnet⟩
    rw [hnews, uses_enter_of_live_iff hk, hstage]
    · exact ⟨given, hsame ▸ h⟩
    · intro v
      rw [hstage, Stage.Live, Stage.Live, hregistry]
  · obtain ⟨hstage, hnews⟩ := Chronicle.bringUp_of_ok hup
    obtain ⟨hdown, t, world, net, _, hinit, rfl, rfl⟩ := Site.bringUp_eq_ok hup
    rw [ht, hnet] at hinit
    rw [hid] at hnews
    have hnone : ∀ v, ¬ a.Uses i v := by
      intro v hv
      obtain ⟨g, hg⟩ := sound.global_of_live ((uses_iff hk).1 hv)
      simp [hdown] at hg
    -- Nobody uses the registry that was down, so it may count as intact already.
    have hintact : Serves given a.Uses (Spared (k.news (.bringUp c) ++ a.history))
        a.process.net := by
      rw [hnews]
      refine h.mono (fun _ _ => id) (fun j v hv hj => ⟨hv, ?_⟩) fun j v hv hj => ?_
      · simp only [Spared, List.singleton_append, Event.intact, Bool.or_eq_true]
        exact Or.inr hj
      · have hne : i ≠ j := by
          rintro rfl
          exact hnone v hv
        simpa [Spared, Event.intact, hne] using hj
    have hspared : Spared (k.news (.bringUp c) ++ a.history) i := by
      simp [hnews, Spared, Event.intact]
    obtain ⟨hopened, hlive⟩ := LocalTransport.create_eq_ok h.opened hinit
    have huses : (a.enter i (k.bringUp c) (k.news (.bringUp c))).Uses = fun j v =>
        a.Uses j v ∨ j = i ∧ v ∈ [Vm.ofTopology k.stage.site.nextVm t world] := by
      funext j v
      rw [uses_enter_iff hk, hstage, eq_iff_iff, Stage.Live]
      by_cases hj : j = i
      · subst hj
        simp [hnone, sound.held_eq_nil hdown, eq_comm]
      · simp [hj]
    rw [huses, hstage]
    exact ⟨_, hintact.grow hspared [.ofTopology k.stage.site.nextVm t world]
      (LocalTransport.tracks_create h.tracks hinit) hopened hlive⟩

theorem serves_takeDown (hk : a.chronicle? i = some k) (sound : k.stage.Sound)
    (ht : k.stage.site.registry.transport = LocalTransport.transport)
    (hid : k.stage.site.registry.id = i + 1)
    (h : Serves given a.Uses (Spared a.history) a.process.net) (c : ExecutionContext) :
    Serves given (a.enter i (k.takeDown c) (k.news (.takeDown c))).Uses
      (Spared (k.news (.takeDown c) ++ a.history)) (k.takeDown c).stage.site.net := by
  have hnet : k.stage.site.net = a.process.net := by rw [toProcess_of_chronicle? hk]
  rcases k.takeDown_cases c with ⟨g, hglobal, hleft, hstage, hnews⟩ | ⟨hstage, hnews⟩
  · have hno : ∀ v, ¬ (k.takeDown c).stage.Live v := by
      rw [hstage]
      simp [Stage.Live, Stage.lowered, sound.children_eq_nil_iff.1 hleft]
    have huses : (a.enter i (k.takeDown c) (k.news (.takeDown c))).Uses =
        fun j v => j ≠ i ∧ a.Uses j v := by
      funext j v
      rw [uses_enter_iff hk, eq_iff_iff]
      simp [hno]
    rw [huses, hnews, hstage, hid]
    show Serves _ _ _ (k.stage.site.registry.transport.finalize _ _).2
    rw [ht, hnet]
    refine h.finalize ((uses_iff hk).2 (Or.inl ⟨g, hglobal, rfl⟩)) fun j hj => ?_
    have hne : i ≠ j := Ne.symm hj
    simp [Spared, Event.intact, hne]
  · rw [hnews, uses_enter_of_live_iff hk, hstage, hnet]
    · exact h
    · intro v
      rw [hstage]

/-- Children are launched for a registry only while it is intact. -/
theorem spared_of_startup (hk : a.chronicle? i = some k) (sound : k.stage.Sound)
    (ht : k.stage.site.registry.transport = LocalTransport.transport)
    (h : Serves given a.Uses (Spared a.history) a.process.net) {host : ThreadHost}
    {c : ExecutionContext} {plan : SpawnPlan} (known : k.stage.Plans plan) {spawned : Spawned}
    {site : Site (Fabric × LocalTransport)}
    (hstartup : k.stage.site.startup host c plan = (.ok spawned, site)) : Spared a.history i := by
  obtain ⟨hadmits, s₁, hslots, _⟩ := Site.startup_eq_ok sound.tidy sound.parent_lt hstartup
  obtain ⟨hparent, count, hplan⟩ := sound.live_of_admits known hadmits
  -- The first child could be derived, so the parent was open.
  have hopen := Site.open_of_launchSlots ht hslots (SpawnPlan.partitions_ne_nil hplan)
  rw [toProcess_of_chronicle? hk] at hopen
  by_contra hnot
  rw [(h.isClosed_iff ((uses_iff hk).2 hparent)).2 hnot] at hopen
  cases hopen

theorem serves_startup (hk : a.chronicle? i = some k) (sound : k.stage.Sound)
    (ht : k.stage.site.registry.transport = LocalTransport.transport)
    (h : Serves given a.Uses (Spared a.history) a.process.net) (host : ThreadHost)
    (c : ExecutionContext) {plan : SpawnPlan} (known : k.stage.Plans plan) :
    ∃ given', Serves given'
      (a.enter i (k.startup host c plan) (k.news (.startup host c plan))).Uses
      (Spared (k.news (.startup host c plan) ++ a.history))
      (k.startup host c plan).stage.site.net := by
  have hparent : k.stage.site.Admits c plan → plan.parent.vm.id < k.stage.site.nextVm :=
    sound.parent_lt
  have hnet : k.stage.site.net = a.process.net := by rw [toProcess_of_chronicle? hk]
  have htracks := Site.tracks_startup ht (hnet.symm ▸ h.tracks) sound.tidy hparent host
  have hintact : LocalTransport.Intact k.stage.site.net := hnet.symm ▸ h.opened
  rcases hstartup : k.stage.site.startup host c plan with ⟨e | spawned, site⟩
  · obtain ⟨hstage, hnews⟩ := Chronicle.startup_of_error hstartup
    obtain ⟨hopened, hlive⟩ := Site.live_of_startup_eq_error ht hintact sound.tidy hparent hstartup
    rw [hstartup] at htracks
    rw [hnet] at hlive
    have hregistry : site.registry = k.stage.site.registry := by
      obtain ⟨_, _, _, rfl⟩ := Site.exists_eq_of_startup_eq_error sound.tidy hparent hstartup
      rfl
    rw [hnews, uses_enter_of_live_iff hk, hstage]
    · exact ⟨_, h.renew (List.subset_append_left _ _) htracks hopened hlive⟩
    · intro v
      rw [hstage, Stage.Live, Stage.Live, hregistry]
  · obtain ⟨hstage, hnews⟩ := Chronicle.startup_of_ok hstartup
    have hspared := spared_of_startup hk sound ht h known hstartup
    have hbuilt := Site.built_of_startup_eq_ok sound.tidy hparent hstartup
    rw [hstartup, hbuilt] at htracks
    obtain ⟨_, s₁, hslots, _, _, rfl⟩ := Site.startup_eq_ok sound.tidy hparent hstartup
    obtain ⟨_, hopened, hlive⟩ := Site.live_of_launchSlots ht hintact hslots
    rw [hnet] at hlive
    have huses : (a.enter i (k.startup host c plan) (k.news (.startup host c plan))).Uses =
        fun j v => a.Uses j v ∨ j = i ∧ v ∈ spawned.children.map LaunchedChild.vm := by
      funext j v
      rw [uses_enter_iff hk, hstage, eq_iff_iff, Stage.Live]
      by_cases hj : j = i
      · subst hj
        rw [uses_iff hk, Stage.Live]
        simp [or_and_right, exists_or, or_assoc]
      · simp [hj]
    rw [huses, hstage, hnews]
    refine ⟨_, h.grow hspared _ htracks hopened ?_⟩
    rw [hlive, List.map_map]
    rfl

theorem serves_retire (hk : a.chronicle? i = some k) (sound : k.stage.Sound)
    (ht : k.stage.site.registry.transport = LocalTransport.transport)
    (h : Serves given a.Uses (Spared a.history) a.process.net) {child : LaunchedChild}
    (hheld : child ∈ k.stage.held) (handles : List Handle) :
    Serves given (a.enter i (k.retire child handles) []).Uses (Spared a.history)
      (k.retire child handles).stage.site.net := by
  have hnet : k.stage.site.net = a.process.net := by rw [toProcess_of_chronicle? hk]
  have hchild : a.Uses i child.vm := (uses_iff hk).2 (Or.inr ⟨child, hheld, rfl⟩)
  have huses : (a.enter i (k.retire child handles) []).Uses =
      fun j v => a.Uses j v ∧ v ≠ child.vm := by
    funext j v
    rw [uses_enter_iff hk, eq_iff_iff]
    show _ ∨ _ ∧ (k.stage.retire child).Live v ↔ _
    rw [sound.live_retire_iff hheld, ← uses_iff hk]
    by_cases hj : j = i
    · subst hj
      simp
    · have hne : ∀ w, a.Uses j w → w ≠ child.vm := by
        rintro w hw rfl
        exact hj (h.told j _ i _ hw hchild rfl).1
      simpa [hj] using hne v
  obtain ⟨r, hr, hvm, _⟩ := sound.exists_record hheld
  have hretire := Site.retire_of_child? (hvm ▸ sound.child?_of_mem hr)
  rw [huses]
  show Serves _ _ _ (k.stage.site.retire child.vm).net
  rw [hretire, ht, hnet]
  exact h.release hchild

theorem serves_act (h : Reachable .sharedLocal a) (hk : a.chronicle? i = some k)
    (hserves : Serves given a.Uses (Spared a.history) a.process.net) {op : Operation}
    (allowed : a.Allows k op) :
    ∃ given', Serves given' (a.enter i (k.act op) (k.news op)).Uses
      (Spared (k.news op ++ a.history)) (k.act op).stage.site.net := by
  have hreach := h.chronicle hk
  have hsound := hreach.stage.sound
  have ht := h.transport hk
  have hid := h.coherent.ids i k hk
  have hnet : k.stage.site.net = a.process.net := by rw [toProcess_of_chronicle? hk]
  cases op with
  | bringUp c => exact serves_bringUp hk hsound ht hid hserves c
  | takeDown c => exact ⟨given, serves_takeDown hk hsound ht hid hserves c⟩
  | startup host c plan =>
    exact serves_startup hk hsound ht hserves host c (h.coherent.allows hk allowed)
  | retire position =>
    refine ⟨given, ?_⟩
    show Serves given (a.enter i _ []).Uses (Spared a.history) _
    cases hnext : k.next? position with
    | none =>
      rw [Chronicle.act_retire_of_none hnext, uses_enter_of_live_iff hk fun _ => Iff.rfl, hnet]
      exact hserves
    | some child =>
      obtain ⟨_, _, _, _, _, _, hact⟩ := Chronicle.act_retire_of_some hnext
      rw [hact]
      exact serves_retire hk hsound ht hserves (hreach.faithful.mem_held_of_next hnext) _

theorem Reachable.serves (h : Reachable .sharedLocal a) :
    ∃ given, Serves given a.Uses (Spared a.history) a.process.net := by
  induction h with
  | start process unbound fresh =>
    have hlive : process.net.2.live = [] := by rw [show process.net.2 = {} from fresh]
    refine ⟨[], ⟨?_, ?_, ?_, ?_⟩, ⟨?_, ?_, ?_, ?_⟩, ?_, ?_, ?_⟩ <;> simp [hlive, Uses, chronicle?]
  | @step a a' h next ih =>
    obtain ⟨given, ih⟩ := ih
    cases next with
    | @found t ht config detected =>
      have huses : (a.found t config detected).Uses = a.Uses := by
        funext i v
        rw [eq_iff_iff]
        constructor
        · rintro ⟨k, hk, hv⟩
          rcases chronicle?_found hk with hold | ⟨_, rfl⟩
          · exact ⟨k, hold, hv⟩
          · simp [Stage.Live, Stage.start] at hv
        · rintro ⟨k, hk, hv⟩
          exact ⟨k, chronicle?_found_of_some hk, hv⟩
      exact ⟨given, huses.symm ▸ ih⟩
    | act hk allowed => exact serves_act h hk ih allowed
    | endThread c =>
      have huses : (a.endThread c).Uses = a.Uses := by
        funext i v
        simp [Uses, chronicle?_endThread, Chronicle.endThread, Stage.endThread, Stage.Live]
      exact ⟨given, huses.symm ▸ ih⟩
    | @meanwhile net hnet =>
      have huses : (a.within net).Uses = a.Uses := by
        funext i v
        simp [Uses, chronicle?_within, Chronicle.within, Stage.within, Stage.Live]
      refine ⟨given, ?_⟩
      rw [huses]
      exact ih.use hnet.1 hnet.2

theorem Reachable.isClosed_iff (h : Reachable .sharedLocal a) (hk : a.chronicle? i = some k)
    {v : Vm} (hv : k.stage.Live v) : a.process.net.1.isClosed v.communicator = true ↔
      Event.intact k.stage.site.registry.id a.history = false := by
  obtain ⟨given, hserves⟩ := h.serves
  rw [hserves.isClosed_iff ((uses_iff hk).2 hv), Spared, h.coherent.ids i k hk, Bool.not_eq_true]

/-- The communicators of the live VMs of a registry are open if and only if the registry is intact.
Its messages arrive only then, and only then can children be launched; it can be taken down all the
same. So all live VMs of all registries have open communicators just as long as every registry that
is up is intact. -/
theorem Reachable.isClosed_iff_not_intact (h : Reachable .sharedLocal a)
    (hk : a.chronicle? i = some k) :
    (∀ v, k.stage.Live v →
      (a.process.net.1.isClosed v.communicator = true ↔
        Event.intact k.stage.site.registry.id a.history = false) ∧
      ∀ e : Endpoint, e.communicator = v.communicator →
        ((e.receive a.process.net.1).1.isOk ↔
          Event.intact k.stage.site.registry.id a.history = true) ∧
        ∀ target payload, target < v.communicator.size →
          ((e.send target payload a.process.net.1).1.isOk ↔
            Event.intact k.stage.site.registry.id a.history = true)) ∧
    (Event.intact k.stage.site.registry.id a.history = false →
      ∀ host c plan, k.stage.Plans plan → ¬ (k.stage.site.startup host c plan).1.isOk) ∧
    (∀ c, (k.stage.site.takeDown c).1.isOk ↔
      k.stage.site.registry.state = .initialized ∧ k.stage.site.registry.children = []) ∧
    ((∀ j k', a.chronicle? j = some k' → ∀ v, k'.stage.Live v →
        a.process.net.1.isClosed v.communicator = false) ↔
      ∀ j k', a.chronicle? j = some k' → k'.stage.site.registry.state = .initialized →
        Event.intact k'.stage.site.registry.id a.history = true) := by
  have hfields := (h.chronicle hk).stage.fields
  refine ⟨fun v hv => ⟨h.isClosed_iff hk hv, fun e he => ?_⟩, fun hnot host c plan known hok => ?_,
    fun c => ?_, fun hall j k' hk' up => ?_, fun hall j k' hk' v hv => ?_⟩
  · have hopen := (h.isClosed_iff hk hv).not
    rw [Bool.not_eq_true, Bool.not_eq_false, ← he] at hopen
    refine ⟨(e.isOk_receive_iff _).trans hopen, fun target payload hlt => ?_⟩
    exact (e.isOk_send_iff _ payload (he ▸ hlt)).trans hopen
  · obtain ⟨given, hserves⟩ := h.serves
    rcases hstartup : k.stage.site.startup host c plan with ⟨e | spawned, site⟩
    · simp [hstartup, Except.isOk, Except.toBool] at hok
    · have hspared := spared_of_startup hk (h.chronicle hk).stage.sound (h.transport hk) hserves
        known hstartup
      rw [Spared, ← h.coherent.ids i k hk, hnot] at hspared
      cases hspared
  · rw [Site.takeDown_isOk_iff, hfields.1]
  · obtain ⟨g, hg⟩ := (h.chronicle hk').stage.sound.exists_global up
    have hlive : k'.stage.Live g.vm := Or.inl ⟨g, hg, rfl⟩
    rw [← Bool.not_eq_false, ← h.isClosed_iff hk' hlive, hall j k' hk' g.vm hlive]
    simp
  · have hsound := (h.chronicle hk').stage.sound
    obtain ⟨g, hg⟩ := hsound.global_of_live hv
    obtain ⟨hup, _⟩ := hsound.up g hg
    rw [← Bool.not_eq_true, h.isClosed_iff hk' hv, hall j k' hk' hup]
    simp

/-- Two registries come up on one transport, and the first is taken down. -/
def evicted : Campus (Fabric × LocalTransport) :=
  ({ process := { net := ({}, {}) } } : Campus (Fabric × LocalTransport))
    |>.found LocalTransport.transport {} 4
    |>.found LocalTransport.transport {} 4
    |>.perform 0 (.bringUp .main)
    |>.perform 1 (.bringUp (.thread 1 none))
    |>.perform 0 (.takeDown .main)

theorem reachable_evicted : Reachable .sharedLocal evicted := by
  have hstart : Reachable .sharedLocal
      ({ process := { net := ({}, {}) } } : Campus (Fabric × LocalTransport)) := .start _ rfl rfl
  have hfound := (hstart.step (.found rfl {} 4)).step (.found rfl {} 4)
  have hfirst := reachable_perform hfound 0 (.bringUp .main) fun _ _ => trivial
  have hsecond := reachable_perform hfirst 1 (.bringUp (.thread 1 none)) fun _ _ => trivial
  exact reachable_perform hsecond 0 (.takeDown .main) fun _ _ => trivial

/-- The second registry is up, but no message arrives at its Global VM and no children can be
launched. It can still be taken down. -/
theorem isClosed_evicted : ∃ k, evicted.chronicle? 1 = some k ∧
    k.stage.site.registry.state = .initialized ∧
    (∀ v, k.stage.Live v → ∀ e : Endpoint, e.communicator = v.communicator →
      ¬ (e.receive evicted.process.net.1).1.isOk) ∧
    (∀ host c plan, k.stage.Plans plan → ¬ (k.stage.site.startup host c plan).1.isOk) ∧
    ∀ c, (k.stage.site.takeDown c).1.isOk := by
  obtain ⟨k, hk, hup, hchildren, hnot⟩ : ∃ k, evicted.chronicle? 1 = some k ∧
      k.stage.site.registry.state = .initialized ∧ k.stage.site.registry.children = [] ∧
      Event.intact k.stage.site.registry.id evicted.history = false :=
    ⟨_, rfl, by decide, by decide, by decide⟩
  obtain ⟨hclosed, hlaunch, hdown, _⟩ := Reachable.isClosed_iff_not_intact reachable_evicted hk
  refine ⟨k, hk, hup, fun v hv e he hok => ?_, hlaunch hnot, fun c => (hdown c).2 ⟨hup, hchildren⟩⟩
  have hintact := ((hclosed v hv).2 e he).1.1 hok
  rw [hnot] at hintact
  cases hintact

/-- Registries that share a transport are not spared by each other. -/
theorem not_always_open : ¬ ∀ a : Campus (Fabric × LocalTransport), Reachable .sharedLocal a →
    ∀ i k, a.chronicle? i = some k → ∀ v, k.stage.Live v →
      a.process.net.1.isClosed v.communicator = false := by
  intro hall
  obtain ⟨k, hk, g, hg, hclosed⟩ : ∃ k, evicted.chronicle? 1 = some k ∧
      ∃ g, k.stage.site.registry.global = some g ∧
        evicted.process.net.1.isClosed g.vm.communicator = true :=
    ⟨_, rfl, _, rfl, by decide⟩
  have hopen := hall evicted reachable_evicted 1 k hk g.vm (Or.inl ⟨g, hg, rfl⟩)
  rw [hclosed] at hopen
  cases hopen

end

end Campus

end VirtualTopology
