import VirtualTopology.Proofs.Campus

/-!
# Bringing registries up and down over whole runs

What a registry says of itself agrees at every campus: its state, its Global VM, its topology and
the table of owners come and go together, however its bring-ups, teardowns and launches went and
whatever happens on other registries.

## Main definitions

- `Campus.site?`: a registry of a campus in its process.
- `Site.initCalls`, `Site.finalizeCalls`: the calls that bringing up and taking down make.

## Main statements

- `Site.bringUp_recorded`, `Site.takeDown_recorded`: both over a transport that is recorded.
- `Campus.Reachable.nextVm_le`: ids are given out in order.
- `Campus.Reachable.lifecycle`: when a registry can be brought up and taken down, and what is left
  if it cannot.
-/

namespace VirtualTopology

/-! ### Calls -/

namespace Site

variable {σ : Type} {s : Site σ} {c : ExecutionContext}

/-- The call that a bring-up makes: none unless the registry is down and its host is found. -/
def initCalls (s : Site σ) : List Exchange :=
  match s.registry.global, s.registry.config.discover s.registry.detected with
  | none, .ok t => [.init t.peCount (s.registry.transport.init t.peCount s.net).1]
  | _, _ => []

/-- The call that a teardown makes: none unless the registry is up and without children. -/
def finalizeCalls (s : Site σ) : List Exchange :=
  match s.registry.global, s.registry.children with
  | some g, [] =>
    [.finalize g.vm.communicator (s.registry.transport.finalize g.vm.communicator s.net).1]
  | _, _ => []

theorem bringUp_recorded (s : Site σ) (c : ExecutionContext) (log : List Exchange) :
    (s.recorded log).bringUp c =
      ((s.bringUp c).1, (s.bringUp c).2.recorded (log ++ s.initCalls)) := by
  have hinit : ∀ size, (s.recorded log).registry.transport.init size (s.recorded log).net =
      ((s.registry.transport.init size s.net).1, (s.registry.transport.init size s.net).2,
        log ++ [.init size (s.registry.transport.init size s.net).1]) := fun _ => rfl
  have hglobal : (s.recorded log).registry.global = s.registry.global := rfl
  have hfound : (s.recorded log).registry.config.discover (s.recorded log).registry.detected =
      s.registry.config.discover s.registry.detected := rfl
  unfold bringUp initCalls
  rw [hglobal, hfound]
  cases s.registry.global with
  | some g => simp
  | none =>
    cases s.registry.config.discover s.registry.detected with
    | error fault => simp
    | ok t =>
      dsimp only
      rw [hinit]
      rcases s.registry.transport.init t.peCount s.net with ⟨e | world, net⟩
      · rfl
      · rfl

theorem takeDown_recorded (s : Site σ) (c : ExecutionContext) (log : List Exchange) :
    (s.recorded log).takeDown c =
      ((s.takeDown c).1, (s.takeDown c).2.recorded (log ++ s.finalizeCalls)) := by
  have hglobal : (s.recorded log).registry.global = s.registry.global := rfl
  have hchildren : (s.recorded log).registry.children = s.registry.children := rfl
  unfold takeDown finalizeCalls
  rw [hglobal, hchildren]
  cases s.registry.global with
  | none => simp
  | some g =>
    cases s.registry.children with
    | nil => rfl
    | cons r rs => simp [Registry.outstanding, recorded]

/-! ### Answers -/

/-- A registry that is asked to come up is up already, cannot have its host, is refused by its
transport, or comes up. -/
theorem bringUp_cases (s : Site σ) (c : ExecutionContext) :
    (∃ g, s.registry.global = some g ∧ s.bringUp c = (.error (.alreadyInitialized g.vm.id), s)) ∨
    (s.registry.global = none ∧ ∃ fault, s.registry.config.validate = .error fault ∧
      s.bringUp c = (.error fault.toVmError, s)) ∨
    (s.registry.global = none ∧ s.registry.config.validate = .ok () ∧ ∃ t,
      s.registry.config.discover s.registry.detected = .ok t ∧ ∃ e net,
      s.registry.transport.init t.peCount s.net = (.error e, net) ∧
      s.bringUp c = (.error (.transportInit e.message), { s with net })) ∨
    (s.registry.global = none ∧ s.registry.config.validate = .ok () ∧ ∃ t,
      s.registry.config.discover s.registry.detected = .ok t ∧ ∃ world net,
      s.registry.transport.init t.peCount s.net = (.ok world, net) ∧
      (s.bringUp c).1 = .ok ⟨.ofTopology s.nextVm t world, 0⟩) := by
  unfold bringUp DiscoveryConfig.discover
  cases s.registry.global with
  | some g => exact Or.inl ⟨g, rfl, rfl⟩
  | none =>
    right
    cases s.registry.config.validate with
    | error fault => exact Or.inl ⟨rfl, fault, rfl, rfl⟩
    | ok u =>
      refine Or.inr ?_
      dsimp only
      generalize Topology.uniform _ _ _ = t
      rcases hinit : s.registry.transport.init t.peCount s.net with ⟨e | world, net⟩
      · exact Or.inl ⟨rfl, rfl, t, rfl, e, net, hinit, rfl⟩
      · exact Or.inr ⟨rfl, rfl, t, rfl, world, net, hinit, rfl⟩

theorem bringUp_isOk_iff : (s.bringUp c).1.isOk ↔
    s.registry.global = none ∧ s.registry.config.validate = .ok () ∧
      ∃ t, s.registry.config.discover s.registry.detected = .ok t ∧
        (s.registry.transport.init t.peCount s.net).1.isOk := by
  rcases s.bringUp_cases c with
    ⟨g, hup, heq⟩ | ⟨hdown, fault, hfault, heq⟩ | ⟨hdown, hvalid, t, hfound, e, net, hinit, heq⟩ |
    ⟨hdown, hvalid, t, hfound, world, net, hinit, heq⟩
  · simp [heq, hup, Except.isOk, Except.toBool]
  · simp [heq, hfault, Except.isOk, Except.toBool]
  · simp [heq, hfound, hinit, Except.isOk, Except.toBool]
  · simp [heq, hdown, hvalid, hfound, hinit, Except.isOk, Except.toBool]

/-- The transport is asked for last. -/
theorem initCalls_ne_nil_iff : s.initCalls ≠ [] ↔
    s.registry.global = none ∧ s.registry.config.validate = .ok () := by
  rw [initCalls]
  rcases s.bringUp_cases .main with
    ⟨g, hup, _⟩ | ⟨hdown, fault, hfault, _⟩ | ⟨hdown, hvalid, t, hfound, _⟩ |
    ⟨hdown, hvalid, t, hfound, _⟩
  · simp [hup]
  · simp [hdown, hfault, DiscoveryConfig.discover]
  · simp [hdown, hvalid, hfound]
  · simp [hdown, hvalid, hfound]

/-- The first of the three that cannot be had is what the error names. -/
theorem bringUp_refused {e : VmError} (h : (s.bringUp c).1 = .error e) :
    (s.bringUp c).2 = { s with net := (s.bringUp c).2.net } ∧
    ((s.registry.global.isSome ∧ ∃ id, e = .alreadyInitialized id) ∨
      (s.registry.global = none ∧
        ∃ fault, s.registry.config.validate = .error fault ∧ e = fault.toVmError) ∨
      (s.registry.global = none ∧ s.registry.config.validate = .ok () ∧
        ∃ text, e = .transportInit text)) := by
  rcases s.bringUp_cases c with
    ⟨g, hup, heq⟩ | ⟨hdown, fault, hfault, heq⟩ | ⟨hdown, hvalid, t, _, e', net, _, heq⟩ |
    ⟨hdown, hvalid, t, _, world, net, _, heq⟩
  · rw [heq] at h ⊢
    obtain rfl := Except.error.inj h
    exact ⟨rfl, Or.inl ⟨by simp [hup], _, rfl⟩⟩
  · rw [heq] at h ⊢
    obtain rfl := Except.error.inj h
    exact ⟨rfl, Or.inr (Or.inl ⟨hdown, fault, hfault, rfl⟩)⟩
  · rw [heq] at h ⊢
    obtain rfl := Except.error.inj h
    exact ⟨rfl, Or.inr (Or.inr ⟨hdown, hvalid, _, rfl⟩)⟩
  · rw [heq] at h
    cases h

theorem id_of_bringUp {global : VmHandle} (h : (s.bringUp c).1 = .ok global) :
    global.vm.id = s.nextVm ∧ (s.bringUp c).2.nextVm = s.nextVm + 1 := by
  rcases hup : s.bringUp c with ⟨answer, s'⟩
  rw [hup] at h
  obtain rfl : answer = .ok global := h
  obtain ⟨_, t, world, net, _, _, rfl, rfl⟩ := bringUp_eq_ok hup
  exact ⟨rfl, rfl⟩

theorem takeDown_eq_error {e : VmError} (h : (s.takeDown c).1 = .error e) :
    (s.takeDown c).2 = s := by
  unfold takeDown at h ⊢
  split
  · rfl
  · next g hg =>
    rw [hg] at h
    dsimp only at h
    split
    · next hleft => simp [hleft] at h
    · rfl

theorem takeDown_isOk_iff : (s.takeDown c).1.isOk ↔
    s.registry.global.isSome ∧ s.registry.children = [] := by
  unfold takeDown
  cases s.registry.global with
  | none => simp [Except.isOk, Except.toBool]
  | some g =>
    cases s.registry.children with
    | nil => simp [Except.isOk, Except.toBool]
    | cons r rs => simp [Except.isOk, Except.toBool]

end Site

/-! ### What a registry says of itself -/

theorem Owners.pes_eq_nil_iff {o : Owners} : o.pes = [] ↔ o = [] := List.map_eq_nil_iff

namespace Stage

variable {σ : Type} {env : Surroundings σ} {s : Stage σ}

/-- A host has processing elements. -/
theorem Reachable.pes_ne_nil (h : Reachable env s) :
    ∀ t, s.site.registry.topology = some t → t.pes ≠ [] := by
  refine h.induction
    (P := fun s => ∀ t, s.site.registry.topology = some t → t.pes ≠ []) ?_ fun s s' _ ih hc => ?_
  · intro id config detected process _ t ht
    cases ht
  cases hc with
  | still registry _ _ _ _ => rwa [registry]
  | up c world net begun free found =>
    intro t ht
    obtain rfl := Option.some.inj ht
    obtain ⟨_, hlength, hpos⟩ := DiscoveryConfig.placeable_of_discover found
    exact List.ne_nil_of_length_pos (hlength ▸ hpos)
  | down c net left =>
    intro t ht
    cases ht
  | launch | retire => exact ih

/-- The fields of a registry come and go together. -/
theorem Reachable.fields (h : Reachable env s) :
    (s.site.registry.state = .initialized ↔ s.site.registry.global.isSome) ∧
    (s.site.registry.state = .initialized ↔ s.site.registry.topology.isSome) ∧
    (s.site.registry.state = .initialized ↔ s.site.registry.owners ≠ []) := by
  cases hglobal : s.site.registry.global with
  | none =>
    obtain ⟨hstate, htopology, howners, _⟩ := h.sound.down hglobal
    simp [hstate, htopology, howners]
  | some g =>
    obtain ⟨hstate, _, _, t, htopology, _, hkeys⟩ := h.sound.up g hglobal
    have howners : s.site.registry.owners ≠ [] := by
      rw [ne_eq, ← Owners.pes_eq_nil_iff, hkeys]
      exact h.pes_ne_nil t htopology
    simp [hstate, htopology, howners]

end Stage

namespace Campus

variable {σ : Type} {g : Grounds σ} {a b : Campus σ} {i : Nat} {s : Site σ}

/-- A registry of a campus in its process. -/
def site? (a : Campus σ) (i : Nat) : Option (Site σ) := (a.chronicle? i).map (·.stage.site)

/-- A registry was never initialized if nothing of the kind is remembered. -/
theorem Reachable.uninitialized_iff (h : Reachable g a) {k : Chronicle σ}
    (hk : a.chronicle? i = some k) : k.stage.site.registry.state = .uninitialized ↔
      ∀ c v, Event.up k.stage.site.registry.id c v ∉ a.history := by
  refine h.induction (P := fun history s => s.site.registry.state = .uninitialized ↔
    ∀ c v, Event.up s.site.registry.id c v ∉ history) hk ?_ ?_ ?_ ?_
  · intro t id config detected process history _ hforeign
    exact iff_of_true rfl fun c v hmem => hforeign _ hmem rfl
  · intro history s s' news sound ih hdeed
    cases hdeed with
    | none | retire => exact ih
    | up c world net begun free found =>
      refine iff_of_false (by simp [Stage.raised]) fun hno => ?_
      exact hno _ _ List.mem_cons_self
    | @down c net g global left =>
      refine iff_of_false (by simp [Stage.lowered]) fun hno => ?_
      have hstate := ih.2 fun c' v hmem => hno c' v (List.mem_cons_of_mem _ hmem)
      rw [(sound.up g global).1] at hstate
      cases hstate
    | launch entered live built parts launched =>
      refine ih.trans ⟨fun hno c v hmem => ?_, fun hno c v hmem => ?_⟩
      · exact hno c v (List.mem_of_ne_of_mem (by simp) hmem)
      · exact hno c v (List.mem_cons_of_mem _ hmem)
  · intro history s c sound ih
    refine ih.trans ⟨fun hno c v hmem => ?_, fun hno c v hmem => ?_⟩
    · exact hno c v (List.mem_of_ne_of_mem (by simp) hmem)
    · exact hno c v (List.mem_cons_of_mem _ hmem)
  · intro history s process news sound ih own hforeign
    refine ih.trans ⟨fun hno c v hmem => ?_, fun hno c v hmem => ?_⟩
    · rcases List.mem_append.1 hmem with hnews | hold
      · obtain ⟨r, hne, hr⟩ := hforeign _ hnews
        exact hne (Option.some.inj hr).symm
      · exact hno c v hold
    · exact hno c v (List.mem_append_right _ hmem)

/-- Ids are given out in order. -/
theorem Reachable.nextVm_le (h : Reachable g a) (run : Relation.ReflTransGen (Step g) a b) :
    a.process.nextVm ≤ b.process.nextVm := by
  suffices hrun : Reachable g b ∧ a.process.nextVm ≤ b.process.nextVm from hrun.2
  induction run with
  | refl => exact ⟨h, Nat.le_refl _⟩
  | @tail b b' _ next ih =>
    obtain ⟨hb, hle⟩ := ih
    refine ⟨hb.step next, Nat.le_trans hle ?_⟩
    cases next with
    | found | endThread | meanwhile => exact Nat.le_refl _
    | @act i k hk op allowed =>
      have hleaves := Chronicle.leaves_act (hb.chronicle hk).stage.sound op
      rw [← toProcess_of_chronicle? hk]
      exact hleaves.next

/-- The VMs of all registries have ids from before. -/
theorem Reachable.id_lt (h : Reachable g a) {d : Dossier σ} (hd : d ∈ a.dossiers) {v : Vm}
    (hv : v ∈ d.built) : v.id < a.process.nextVm := by
  obtain ⟨j, k, hk, rfl⟩ := exists_chronicle? hd
  rw [← toProcess_of_chronicle? hk]
  exact (h.chronicle hk).faithful.ids v hv

/-- A registry is initialized if and only if it has a Global VM, a topology and owners; it is
uninitialized until it is brought up for the first time. It can be brought up if it is not
initialized, its configuration is valid and its transport comes up, which is asked for last, and
only then; it can be taken down if it is initialized and without children, whatever the transport
answers. A refusal leaves everything but the state of the transport as it was. The Global VM has an
id that was never given out. -/
theorem Reachable.lifecycle (h : Reachable g a) (known : a.site? i = some s) :
    (s.registry.state = .initialized ↔ s.registry.global.isSome) ∧
    (s.registry.state = .initialized ↔ s.registry.topology.isSome) ∧
    (s.registry.state = .initialized ↔ s.registry.owners ≠ []) ∧
    (s.registry.state = .uninitialized ↔ ∀ c v, Event.up s.registry.id c v ∉ a.history) ∧
    (s.registry.state = .finalized ↔
      s.registry.state ≠ .initialized ∧ ∃ c v, Event.up s.registry.id c v ∈ a.history) ∧
    (∀ c, (s.bringUp c).1.isOk ↔
      s.registry.state ≠ .initialized ∧ s.registry.config.validate = .ok () ∧
        ∃ t, s.registry.config.discover s.registry.detected = .ok t ∧
          (s.registry.transport.init t.peCount s.net).1.isOk) ∧
    (∀ c, ∃ calls, (s.recorded []).bringUp c = ((s.bringUp c).1, (s.bringUp c).2.recorded calls) ∧
      (calls ≠ [] ↔ s.registry.state ≠ .initialized ∧ s.registry.config.validate = .ok ())) ∧
    (∀ c e, (s.bringUp c).1 = .error e →
      (s.bringUp c).2 = { s with net := (s.bringUp c).2.net } ∧
      ((s.registry.state = .initialized ∧ ∃ id, e = .alreadyInitialized id) ∨
        (s.registry.state ≠ .initialized ∧
          ∃ fault, s.registry.config.validate = .error fault ∧ e = fault.toVmError) ∨
        (s.registry.state ≠ .initialized ∧ s.registry.config.validate = .ok () ∧
          ∃ text, e = .transportInit text))) ∧
    (∀ c global, (s.bringUp c).1 = .ok global →
      global.vm.id = s.nextVm ∧ (s.bringUp c).2.nextVm = s.nextVm + 1 ∧
      (∀ d ∈ a.dossiers, ∀ v ∈ d.built, v.id < global.vm.id) ∧
      ∀ b, Reachable g b → Relation.ReflTransGen (Step g) b a →
        b.process.nextVm ≤ global.vm.id) ∧
    (∀ c, (s.takeDown c).1.isOk ↔
      s.registry.state = .initialized ∧ s.registry.children = []) ∧
    (∀ c e, (s.takeDown c).1 = .error e → (s.takeDown c).2 = s) := by
  obtain ⟨k, hk, rfl⟩ := Option.map_eq_some_iff.1 known
  have hreach := h.chronicle hk
  obtain ⟨hglobal, htopology, howners⟩ := hreach.stage.fields
  have hdown : k.stage.site.registry.state ≠ .initialized ↔
      k.stage.site.registry.global = none := by
    rw [ne_eq, hglobal, Option.not_isSome_iff_eq_none]
  have hfresh := h.uninitialized_iff hk
  refine ⟨hglobal, htopology, howners, hfresh, ?_, ?_, ?_, ?_, ?_, ?_, ?_⟩
  · have hup : (∃ c v, Event.up k.stage.site.registry.id c v ∈ a.history) ↔
        k.stage.site.registry.state ≠ .uninitialized := by
      rw [ne_eq, hfresh]
      push Not
      rfl
    rw [hup]
    cases k.stage.site.registry.state <;> simp
  · intro c
    rw [hdown]
    exact Site.bringUp_isOk_iff
  · intro c
    refine ⟨k.stage.site.initCalls, k.stage.site.bringUp_recorded c [], ?_⟩
    rw [hdown]
    exact Site.initCalls_ne_nil_iff
  · intro c e herror
    rw [hdown, hglobal]
    exact Site.bringUp_refused herror
  · intro c global hok
    obtain ⟨hid, hnext⟩ := Site.id_of_bringUp hok
    have hprocess : k.stage.site.nextVm = a.process.nextVm := by
      rw [toProcess_of_chronicle? hk]
    rw [hid, hprocess]
    exact ⟨rfl, hprocess ▸ hnext, fun d hd v hv => h.id_lt hd hv, fun b hb run => hb.nextVm_le run⟩
  · intro c
    rw [Site.takeDown_isOk_iff, hglobal]
  · intro c e herror
    exact Site.takeDown_eq_error herror

/-- A registry that was brought up twice and has children cannot be brought up a third time, nor
taken down. -/
theorem lifecycle_handedOver : ∃ s, (handedOver (.limited 9) 0).site? 0 = some s ∧
    s.registry.generation = 2 ∧ s.registry.state = .initialized ∧
    s.registry.owners ≠ [] ∧
    (∀ c, ¬ (s.bringUp c).1.isOk) ∧
    (∀ c, ¬ (s.takeDown c).1.isOk) ∧
    ∀ c e, (s.takeDown c).1 = .error e → (s.takeDown c).2 = s := by
  obtain ⟨s, hs, hgeneration, hstate, hchildren⟩ : ∃ s, (handedOver (.limited 9) 0).site? 0 = some s ∧
      s.registry.generation = 2 ∧ s.registry.state = .initialized ∧ s.registry.children ≠ [] :=
    ⟨_, rfl, by decide, by decide, by decide⟩
  obtain ⟨_, _, howners, _, _, hup, _, _, _, hdown, hrefused⟩ :=
    Reachable.lifecycle reachable_handedOver hs
  refine ⟨s, hs, hgeneration, hstate, howners.1 hstate, fun c hok => ?_, fun c hok => ?_, hrefused⟩
  · exact ((hup c).1 hok).1 hstate
  · exact hchildren ((hdown c).1 hok).2

end Campus

end VirtualTopology
