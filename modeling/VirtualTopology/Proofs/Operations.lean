import VirtualTopology.Proofs.Custody

/-!
# Operations on a registry

Whoever uses a registry does one of four things: brings it up, takes it down, launches children, or
has a handle retire its next child. What is remembered of an operation is what came of it for
everybody: that the registry was brought up or taken down, and which children were launched.

## Main definitions

- `Operation`, `Chronicle.act`, `Chronicle.Allows`: the operations, and when they can be performed.
- `Event`, `Chronicle.news`: what is remembered of them.
- `Site.Leaves`: what no operation changes.
- `Chronicle.Deed`: what an operation can do, with what is remembered of it.

## Main statements

- `Chronicle.leaves_act`: an operation leaves the bindings for other registries alone.
- `Chronicle.deed`: an operation does one of five things.
-/

namespace VirtualTopology

/-- An operation on a registry. -/
inductive Operation where
  | bringUp (c : ExecutionContext)
  | takeDown (c : ExecutionContext)
  | startup (host : ThreadHost) (c : ExecutionContext) (plan : SpawnPlan)
  /-- The handle at a position, which is joined or dropped, retires its next child. -/
  | retire (position : Nat)

/-- What is remembered of a run. -/
inductive Event where
  /-- A registry was brought up from a context. -/
  | up (registry : Nat) (c : ExecutionContext) (global : VmHandle)
  /-- A registry was taken down. -/
  | down (registry : Nat)
  /-- Children were launched, and their PETs let into their entries. -/
  | launch (registry : Nat) (children : List LaunchedChild)
  /-- The thread of a context ended. -/
  | ended (c : ExecutionContext)

/-- The registry that an event is about. -/
def Event.registry? : Event → Option Nat
  | up registry .. | down registry | launch registry _ => some registry
  | ended _ => none

namespace Chronicle

variable {σ : Type}

/-- Performs an operation. -/
def act (op : Operation) (k : Chronicle σ) : Chronicle σ :=
  match op with
  | .bringUp c => k.bringUp c
  | .takeDown c => k.takeDown c
  | .startup host c plan => k.startup host c plan
  | .retire position =>
    match k.handles[position]? with
    | none => k
    | some handle =>
      match handle.left with
      | [] => k
      | child :: _ => k.retire child (k.handles.set position handle.next)

/-- What is to be remembered of an operation. -/
def news (op : Operation) (k : Chronicle σ) : List Event :=
  match op with
  | .bringUp c =>
    (k.stage.site.bringUp c).1.toOption.toList.map (.up k.stage.site.registry.id c)
  | .takeDown c =>
    (k.stage.site.takeDown c).1.toOption.toList.map fun () => .down k.stage.site.registry.id
  | .startup host c plan =>
    (k.stage.site.startup host c plan).1.toOption.toList.map fun spawned =>
      .launch k.stage.site.registry.id spawned.children
  | .retire _ => []

/-- The next child of the handle at a position. -/
def next? (position : Nat) (k : Chronicle σ) : Option LaunchedChild :=
  k.handles[position]?.bind fun handle => handle.left.head?

/-- Whether an operation can be performed: the thread that calls has begun, a plan was made for a
VM there is, and a handle has waited for the PETs of its next child. -/
def Allows (k : Chronicle σ) : Operation → Prop
  | .bringUp c => c.Begun k.stage.site.nextVm
  | .takeDown _ => True
  | .startup _ _ plan => k.stage.Plans plan
  | .retire position => ∀ child ∈ k.next? position, k.stage.Ended child

end Chronicle

/-! ### What an operation leaves alone -/

namespace Bindings

variable {b : Bindings} {c : ExecutionContext} {registry other : Nat}

theorem ofRegistry_append (b b' : Bindings) (r : Nat) :
    Bindings.ofRegistry (b ++ b') r = b.ofRegistry r ++ b'.ofRegistry r :=
  List.filter_append ..

theorem ofRegistry_eq_nil_iff : b.ofRegistry registry = [] ↔ ∀ x ∈ b, x.registry ≠ registry := by
  simp [ofRegistry, List.filter_eq_nil_iff]

theorem ofRegistry_bind_of_ne (hne : other ≠ registry) (generation : Nat) (h : VmHandle) :
    (b.bind c registry generation h).ofRegistry other = b.ofRegistry other := by
  simp [ofRegistry, bind, hne.symm]

theorem ofRegistry_unbind_of_ne (hne : other ≠ registry) :
    (b.unbind c registry).ofRegistry other = b.ofRegistry other := by
  rw [ofRegistry, unbind, List.filter_filter]
  apply List.filter_congr
  intro x _
  by_cases hx : x.registry = other <;> simp [hx, hne]

end Bindings

namespace Site

variable {σ : Type} {s s' : Site σ} {c : ExecutionContext} {plan : SpawnPlan}

/-- What no operation on a registry changes: what the registry is, ids that were given out, and the
bindings for other registries. -/
structure Leaves (s s' : Site σ) : Prop where
  id : s'.registry.id = s.registry.id
  transport : s'.registry.transport = s.registry.transport
  next : s.nextVm ≤ s'.nextVm
  others : ∀ r ≠ s.registry.id, s'.bindings.ofRegistry r = s.bindings.ofRegistry r

theorem Leaves.refl (s : Site σ) : s.Leaves s := ⟨rfl, rfl, Nat.le_refl _, fun _ _ => rfl⟩

theorem leaves_bringUp (s : Site σ) (c : ExecutionContext) : s.Leaves (s.bringUp c).2 := by
  rcases hup : s.bringUp c with ⟨e | global, s'⟩
  · rcases bringUp_eq_error hup with rfl | ⟨_, _, _, _, rfl⟩
    · exact .refl _
    · exact ⟨rfl, rfl, Nat.le_refl _, fun _ _ => rfl⟩
  · obtain ⟨_, _, _, _, _, _, _, rfl⟩ := bringUp_eq_ok hup
    exact ⟨rfl, rfl, Nat.le_succ _, fun _ hne => Bindings.ofRegistry_bind_of_ne hne ..⟩

theorem leaves_takeDown (s : Site σ) (c : ExecutionContext) : s.Leaves (s.takeDown c).2 := by
  unfold takeDown
  split
  · exact .refl _
  · split
    · exact ⟨rfl, rfl, Nat.le_refl _, fun _ hne => Bindings.ofRegistry_unbind_of_ne hne⟩
    · exact .refl _

theorem leaves_retire (s : Site σ) (vm : Vm) : s.Leaves (s.retire vm) := by
  obtain ⟨_, _, _, h⟩ := s.exists_tables_retire vm
  rw [h]
  exact ⟨rfl, rfl, Nat.le_refl _, fun _ _ => rfl⟩

theorem ofRegistry_bound_of_ne {r : Nat} (hne : r ≠ s.registry.id) (pets : List LaunchedPet) :
    (s.bound pets).ofRegistry r = [] := by
  rw [Bindings.ofRegistry_eq_nil_iff]
  intro x hx
  obtain ⟨pet, _, rfl⟩ := List.mem_map.1 (List.mem_reverse.1 hx)
  exact hne.symm

theorem leaves_startup (hs : s.Tidy) (hp : s.Admits c plan → plan.parent.vm.id < s.nextVm)
    (host : ThreadHost) : s.Leaves (s.startup host c plan).2 := by
  rcases hstartup : s.startup host c plan with ⟨e | spawned, s'⟩
  · obtain ⟨next, net, hle, rfl⟩ := exists_eq_of_startup_eq_error hs hp hstartup
    exact ⟨rfl, rfl, hle, fun _ _ => rfl⟩
  · obtain ⟨_, s₁, _, hlaunched, _, rfl⟩ := startup_eq_ok hs hp hstartup
    refine ⟨rfl, rfl, hlaunched.next, fun r hne => ?_⟩
    dsimp only
    rw [Bindings.ofRegistry_append, ofRegistry_bound_of_ne hne, List.nil_append]

end Site

namespace Chronicle

variable {σ : Type} {env : Surroundings σ} {k : Chronicle σ} {op : Operation} {position : Nat}

theorem act_retire_of_none (h : k.next? position = none) : k.act (.retire position) = k := by
  unfold next? at h
  rw [act]
  split
  · rfl
  · next handle hhandle =>
    rw [hhandle, Option.bind_some, List.head?_eq_none_iff] at h
    rw [h]

theorem act_retire_of_some {child : LaunchedChild} (h : k.next? position = some child) :
    ∃ before handle after rest, k.handles = before ++ handle :: after ∧
      handle.left = child :: rest ∧
      k.act (.retire position) = k.retire child (before ++ handle.next :: after) := by
  obtain ⟨handle, hhandle, hhead⟩ := Option.bind_eq_some_iff.1 h
  obtain ⟨rest, hleft⟩ := List.head?_eq_some_iff.1 hhead
  obtain ⟨hlt, hget⟩ := List.getElem?_eq_some_iff.1 hhandle
  refine ⟨k.handles.take position, handle, k.handles.drop (position + 1), rest, ?_, hleft, ?_⟩
  · rw [← hget, List.getElem_cons_drop, List.take_append_drop]
  · simp only [act, hhandle, hleft]
    rw [List.set_eq_take_append_cons_drop, if_pos hlt]

/-- The next child of a handle is held. -/
theorem Faithful.held_of_next (h : k.Faithful) {child : LaunchedChild}
    (hnext : k.next? position = some child) :
    ∃ before after, k.stage.held = before ++ child :: after := by
  obtain ⟨_, _, _, _, hsplit, hleft, _⟩ := act_retire_of_some hnext
  exact ⟨_, _, h.mem_held hsplit hleft⟩

theorem Faithful.mem_held_of_next (h : k.Faithful) {child : LaunchedChild}
    (hnext : k.next? position = some child) : child ∈ k.stage.held := by
  obtain ⟨before, after, hheld⟩ := h.held_of_next hnext
  rw [hheld]
  exact List.mem_append_right _ List.mem_cons_self

theorem Reachable.act (h : Reachable env k) (allowed : k.Allows op) : Reachable env (k.act op) := by
  cases op with
  | bringUp c => exact h.step (.bringUp c allowed)
  | takeDown c => exact h.step (.takeDown c)
  | startup host c plan => exact h.step (.startup host c allowed)
  | retire position =>
    cases hnext : k.next? position with
    | none => rwa [act_retire_of_none hnext]
    | some child =>
      obtain ⟨before, handle, after, rest, hsplit, hleft, hact⟩ := act_retire_of_some hnext
      rw [hact]
      exact h.step (.retire hsplit hleft (allowed child hnext))

/-- A step is an operation that can be performed, or the end of a thread, or something elsewhere. -/
theorem Step.exists_act {k' : Chronicle σ} (next : Step env k k') :
    (∃ op, k.Allows op ∧ k' = k.act op) ∨ (∃ c, k' = k.endThread c) ∨
      ∃ process : Process σ, k.stage.site.nextVm ≤ process.nextVm ∧
        process.bindings.ofRegistry k.stage.site.registry.id =
          k.stage.site.bindings.ofRegistry k.stage.site.registry.id ∧
        env.meanwhile k.stage.site.net process.net ∧ k' = k.within process := by
  cases next with
  | bringUp c begun => exact Or.inl ⟨.bringUp c, begun, rfl⟩
  | takeDown c => exact Or.inl ⟨.takeDown c, trivial, rfl⟩
  | startup host c known => exact Or.inl ⟨.startup host c _, known, rfl⟩
  | @retire before handle after child rest split left ended =>
    have hhandle : k.handles[before.length]? = some handle := by simp [split]
    refine Or.inl ⟨.retire before.length, ?_, ?_⟩
    · intro child' hchild'
      rw [next?, hhandle, Option.bind_some, left] at hchild'
      obtain rfl := Option.some.inj hchild'
      exact ended
    · simp only [act, hhandle, left]
      rw [split, List.set_append_right _ _ (Nat.le_refl _), Nat.sub_self, List.set_cons_zero]
  | endThread c => exact Or.inr (Or.inl ⟨c, rfl⟩)
  | meanwhile process ids own net => exact Or.inr (Or.inr ⟨process, ids, own, net, rfl⟩)

theorem leaves_act (sound : k.stage.Sound) (op : Operation) :
    k.stage.site.Leaves (k.act op).stage.site := by
  cases op with
  | bringUp c =>
    show k.stage.site.Leaves (k.stage.bringUp c).site
    rw [Stage.site_bringUp]
    exact k.stage.site.leaves_bringUp c
  | takeDown c => exact k.stage.site.leaves_takeDown c
  | startup host c plan =>
    show k.stage.site.Leaves (k.stage.startup host c plan).site
    rw [Stage.site_startup]
    exact Site.leaves_startup sound.tidy sound.parent_lt host
  | retire position =>
    cases hnext : k.next? position with
    | none =>
      rw [act_retire_of_none hnext]
      exact .refl _
    | some child =>
      obtain ⟨_, _, _, _, _, _, hact⟩ := act_retire_of_some hnext
      rw [hact]
      exact k.stage.site.leaves_retire child.vm

/-- What is remembered of an operation is about the registry it was performed on. -/
theorem registry?_news : ∀ e ∈ k.news op, e.registry? = some k.stage.site.registry.id := by
  cases op <;> simp [news, Event.registry?]

/-- The VMs that an operation makes have new ids. -/
theorem le_of_mem_built_act (sound : k.stage.Sound) {v : Vm} (hv : v ∈ (k.act op).built) :
    v ∈ k.built ∨ k.stage.site.nextVm ≤ v.id := by
  cases op with
  | bringUp c =>
    refine (List.mem_append.1 hv).imp_right fun hv => ?_
    rcases hup : k.stage.site.bringUp c with ⟨e | global, site⟩
    · simp [hup, Except.toOption] at hv
    · obtain ⟨_, t, world, _, _, _, rfl, _⟩ := Site.bringUp_eq_ok hup
      simp only [hup, Except.toOption, Option.toList_some, List.map_cons, List.map_nil,
        List.mem_singleton] at hv
      rw [hv]
      exact Nat.le_refl _
  | takeDown c => exact Or.inl hv
  | startup host c plan =>
    refine (List.mem_append.1 hv).imp_right fun hv => ?_
    obtain ⟨_, hids, _⟩ := Site.ids_of_built sound.tidy sound.parent_lt host
    exact (hids v hv).1
  | retire position =>
    cases hnext : k.next? position with
    | none =>
      rw [act_retire_of_none hnext] at hv
      exact Or.inl hv
    | some child =>
      obtain ⟨_, _, _, _, _, _, hact⟩ := act_retire_of_some hnext
      rw [hact] at hv
      exact Or.inl hv

/-- What an operation can do to a stage, with what is remembered of it. -/
inductive Deed (s : Stage σ) : Stage σ → List Event → Prop
  /-- It came to nothing but used-up ids and calls to the transport. -/
  | none (next : Nat) (net : σ) (hle : s.site.nextVm ≤ next) :
      Deed s { s with site := { s.site with nextVm := next, net } } []
  | up (c : ExecutionContext) {t : Topology} (world : Communicator) (net : σ)
      (begun : c.Begun s.site.nextVm) (free : s.site.registry.global = .none)
      (found : s.site.registry.config.discover s.site.registry.detected = .ok t) :
      Deed s (s.raised c t world net)
        [.up s.site.registry.id c ⟨.ofTopology s.site.nextVm t world, 0⟩]
  | down (c : ExecutionContext) (net : σ) {g : VmHandle} (global : s.site.registry.global = some g)
      (left : s.held = []) : Deed s (s.lowered c net) [.down s.site.registry.id]
  | launch {plan : SpawnPlan} {count : Nat} {children : List LaunchedChild} {after : Site σ}
      (entered : List ExecutionContext) (live : s.Live plan.parent.vm)
      (built : SpawnPlan.build plan.parent count plan.policy = .ok plan)
      (parts : children.map LaunchedChild.partition = plan.partitions)
      (launched : s.site.Launched plan.parent.vm plan.policy children after) :
      Deed s (s.launched plan.parent.vm children after entered)
        [.launch s.site.registry.id children]
  | retire {child : LaunchedChild} {r : ChildRecord} (net : σ) (held : child ∈ s.held)
      (record : r ∈ s.site.registry.children) (of : r.vm = child.vm.id) (ended : s.Ended child) :
      Deed s (s.retired r net) []

theorem bringUp_of_ok {c : ExecutionContext} {global : VmHandle} {site : Site σ}
    (h : k.stage.site.bringUp c = (.ok global, site)) :
    (k.bringUp c).stage = { k.stage with site, made := k.stage.made ++ [global.vm] } ∧
      k.news (.bringUp c) = [.up k.stage.site.registry.id c global] := by
  constructor
  · simp only [Chronicle.bringUp, Stage.bringUp, h]
  · simp [news, h, Except.toOption]

theorem bringUp_of_error {c : ExecutionContext} {e : VmError} {site : Site σ}
    (h : k.stage.site.bringUp c = (.error e, site)) :
    (k.bringUp c).stage = { k.stage with site } ∧ k.news (.bringUp c) = [] := by
  constructor
  · simp only [Chronicle.bringUp, Stage.bringUp, h]
  · simp [news, h, Except.toOption]

/-- A registry is taken down, or it is left as it was. -/
theorem takeDown_cases (k : Chronicle σ) (c : ExecutionContext) :
    (∃ g, k.stage.site.registry.global = some g ∧ k.stage.site.registry.children = [] ∧
      (k.takeDown c).stage = k.stage.lowered c
        (k.stage.site.registry.transport.finalize g.vm.communicator k.stage.site.net).2 ∧
      k.news (.takeDown c) = [.down k.stage.site.registry.id]) ∨
    ((k.takeDown c).stage = k.stage ∧ k.news (.takeDown c) = []) := by
  simp only [Chronicle.takeDown, Stage.takeDown, news, Site.takeDown]
  cases k.stage.site.registry.global with
  | none => exact Or.inr ⟨rfl, rfl⟩
  | some g =>
    dsimp only
    split
    · next hleft => exact Or.inl ⟨g, rfl, List.isEmpty_iff.1 hleft, rfl, rfl⟩
    · exact Or.inr ⟨rfl, rfl⟩

theorem startup_of_ok {host : ThreadHost} {c : ExecutionContext} {plan : SpawnPlan}
    {spawned : Spawned} {site : Site σ}
    (h : k.stage.site.startup host c plan = (.ok spawned, site)) :
    (k.startup host c plan).stage = ⟨site, k.stage.made ++ spawned.children.map LaunchedChild.vm,
        k.stage.held ++ spawned.children⟩ ∧
      k.news (.startup host c plan) = [.launch k.stage.site.registry.id spawned.children] := by
  constructor
  · simp only [Chronicle.startup, Stage.startup, h]
  · simp [news, h, Except.toOption]

theorem startup_of_error {host : ThreadHost} {c : ExecutionContext} {plan : SpawnPlan}
    {e : VmError} {site : Site σ} (h : k.stage.site.startup host c plan = (.error e, site)) :
    (k.startup host c plan).stage = { k.stage with site } ∧ k.news (.startup host c plan) = [] := by
  constructor
  · simp only [Chronicle.startup, Stage.startup, h]
  · simp [news, h, Except.toOption]

theorem deed_bringUp {c : ExecutionContext} (begun : c.Begun k.stage.site.nextVm) :
    Deed k.stage (k.bringUp c).stage (k.news (.bringUp c)) := by
  rcases hup : k.stage.site.bringUp c with ⟨e | global, site⟩
  · obtain ⟨hstage, hnews⟩ := bringUp_of_error hup
    rw [hstage, hnews]
    rcases Site.bringUp_eq_error hup with rfl | ⟨_, _, net, _, rfl⟩
    · exact .none _ _ (Nat.le_refl _)
    · exact .none _ net (Nat.le_refl _)
  · obtain ⟨hstage, hnews⟩ := bringUp_of_ok hup
    rw [hstage, hnews]
    obtain ⟨free, t, world, net, found, _, rfl, rfl⟩ := Site.bringUp_eq_ok hup
    exact .up c world net begun free found

theorem deed_takeDown (sound : k.stage.Sound) (c : ExecutionContext) :
    Deed k.stage (k.takeDown c).stage (k.news (.takeDown c)) := by
  rcases k.takeDown_cases c with ⟨g, hglobal, hleft, hstage, hnews⟩ | ⟨hstage, hnews⟩
  · rw [hstage, hnews]
    exact .down c _ hglobal (sound.children_eq_nil_iff.1 hleft)
  · rw [hstage, hnews]
    exact .none _ _ (Nat.le_refl _)

theorem deed_startup (sound : k.stage.Sound) {plan : SpawnPlan} (known : k.stage.Plans plan)
    (host : ThreadHost) (c : ExecutionContext) :
    Deed k.stage (k.startup host c plan).stage (k.news (.startup host c plan)) := by
  have hparent : k.stage.site.Admits c plan → plan.parent.vm.id < k.stage.site.nextVm :=
    sound.parent_lt
  rcases hstartup : k.stage.site.startup host c plan with ⟨e | spawned, site⟩
  · obtain ⟨hstage, hnews⟩ := startup_of_error hstartup
    rw [hstage, hnews]
    obtain ⟨next, net, hle, rfl⟩ := Site.exists_eq_of_startup_eq_error sound.tidy hparent hstartup
    exact .none next net hle
  · obtain ⟨hstage, hnews⟩ := startup_of_ok hstartup
    rw [hstage, hnews]
    obtain ⟨hadmits, s₁, hslots, hlaunched, _, rfl⟩ := Site.startup_eq_ok sound.tidy hparent hstartup
    obtain ⟨hlive, count, hbuilt⟩ := sound.live_of_admits known hadmits
    exact .launch _ hlive hbuilt (Site.partitions_of_launchSlots hslots) hlaunched

/-- An operation that can be performed does one of the five. -/
theorem deed (h : Reachable env k) (allowed : k.Allows op) :
    Deed k.stage (k.act op).stage (k.news op) := by
  have hsound := h.stage.sound
  cases op with
  | bringUp c => exact deed_bringUp allowed
  | takeDown c => exact deed_takeDown hsound c
  | startup host c plan => exact deed_startup hsound allowed host c
  | retire position =>
    cases hnext : k.next? position with
    | none =>
      rw [act_retire_of_none hnext]
      exact .none _ _ (Nat.le_refl _)
    | some child =>
      obtain ⟨_, _, _, _, _, _, hact⟩ := act_retire_of_some hnext
      have hheld := h.faithful.mem_held_of_next hnext
      obtain ⟨r, hr, hvm, _⟩ := hsound.exists_record hheld
      have hretire := Site.retire_of_child? (hvm ▸ hsound.child?_of_mem hr)
      rw [hact]
      show Deed k.stage (k.stage.retire child) []
      rw [Stage.retire, hretire, ← hvm]
      exact .retire _ hheld hr hvm (allowed child hnext)

end Chronicle

end VirtualTopology
