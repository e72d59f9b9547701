import VirtualTopology.Proofs.Lifecycle

/-!
# Dealings with the transport

Whatever a transport answers, a registry calls it in order. A world communicator is asked for while
none is up, and shut down once before the next is asked for. In between, communicators are derived
for children and each goes back once: with its child, or with the startup that could not have all
of its children.

The order is that of the calls written down, so runs are compared with the same runs over a
transport that is recorded.

## Main definitions

- `Standing.Step`, `Standing.Steps`: the calls that are in order, with where they lead.
- `Chronicle.recorded`, `Surroundings.recorded`: a run over a transport that is recorded.
- `Chronicle.Dealing`: the calls of one operation.

## Main statements

- `Standing.Steps.opened_eq`, `Standing.Steps.derived_perm`: what was given is what was taken back
  and what is still out.
- `Chronicle.act_recorded`: the calls of one operation are in order.
- `Chronicle.Reachable.dealings`: so are those of a run.
-/

namespace VirtualTopology

namespace Exchange

/-- The world that was brought up. -/
def opened? : Exchange → Option Communicator
  | init _ (.ok world) => some world
  | _ => none

/-- The world that was to be shut down. -/
def closed? : Exchange → Option Communicator
  | finalize world _ => some world
  | _ => none

end Exchange

open Exchange (Derived Returned opened? closed? derived? released?)

/-! ### Calls in order -/

/-- Where the dealings with a transport stand. -/
structure Standing where
  /-- The world that is up. -/
  world : Option Communicator := none
  /-- The communicators that were derived and are not given back, oldest first. -/
  out : List Communicator := []
deriving DecidableEq

namespace Standing

/-- The calls that are in order. What comes of asking for a communicator depends on the answer; a
communicator that was given back is gone whatever the answer. -/
inductive Step : Standing → Exchange → Standing → Prop
  | init (size : Nat) (answer : Except TransportError Communicator) :
      Step {} (.init size answer) ⟨answer.toOption, []⟩
  | derive {world parent : Communicator} {out : List Communicator} (size : Nat)
      (answer : Except TransportError Communicator) (live : parent ∈ world :: out) :
      Step ⟨some world, out⟩ (.derive parent size answer)
        ⟨some world, out ++ answer.toOption.toList⟩
  | release {world c : Communicator} {before after : List Communicator}
      (answer : Except TransportError Unit) :
      Step ⟨some world, before ++ c :: after⟩ (.release c answer) ⟨some world, before ++ after⟩
  | finalize {world : Communicator} (answer : Except TransportError Unit) :
      Step ⟨some world, []⟩ (.finalize world answer) {}

/-- Calls that are in order, one after the other. -/
inductive Steps : Standing → List Exchange → Standing → Prop
  | nil {p : Standing} : Steps p [] p
  | cons {p q r : Standing} {x : Exchange} {calls : List Exchange} (first : Step p x q)
      (rest : Steps q calls r) : Steps p (x :: calls) r

variable {p q r : Standing} {x : Exchange} {calls calls' : List Exchange}
  {world parent : Communicator} {out cs : List Communicator}

theorem Steps.single (h : Step p x q) : Steps p [x] q := .cons h .nil

theorem Steps.append (h : Steps p calls q) (h' : Steps q calls' r) : Steps p (calls ++ calls') r := by
  induction h with
  | nil => exact h'
  | cons first _ ih => exact .cons first (ih h')

/-- A parent keeps its communicator while it is asked for children. -/
theorem steps_of_derived (live : parent ∈ world :: out) (h : Derived parent calls cs) :
    Steps ⟨some world, out⟩ calls ⟨some world, out ++ cs⟩ := by
  obtain ⟨hbelow, rfl⟩ := h
  induction calls generalizing out with
  | nil =>
    rw [List.filterMap_nil, List.append_nil]
    exact .nil
  | cons x calls ih =>
    obtain ⟨size, answer, rfl⟩ := hbelow x List.mem_cons_self
    have hgiven : (Exchange.derive parent size answer :: calls).filterMap derived? =
        answer.toOption.toList ++ calls.filterMap derived? := by
      cases answer <;> rfl
    rw [hgiven, ← List.append_assoc]
    refine .cons (.derive size answer live) (ih ?_ fun x hx => hbelow x (List.mem_cons_of_mem _ hx))
    rw [← List.cons_append]
    exact List.mem_append_left _ live

theorem steps_of_returned (h : Returned calls cs) :
    Steps ⟨some world, out ++ cs⟩ calls ⟨some world, out⟩ := by
  induction h with
  | nil =>
    rw [List.append_nil]
    exact .nil
  | cons hx _ ih =>
    obtain ⟨answer, rfl⟩ := hx
    exact .cons (.release answer) ih

/-! ### Accounts -/

theorem Step.opened_eq (h : Step p x q) :
    p.world.toList ++ (opened? x).toList = (closed? x).toList ++ q.world.toList := by
  cases h with
  | init size answer => cases answer <;> rfl
  | derive | release | finalize => rfl

theorem Step.derived_perm (h : Step p x q) :
    (p.out ++ (derived? x).toList).Perm ((released? x).toList ++ q.out) := by
  cases h with
  | init => rfl
  | derive size answer _ => cases answer <;> rfl
  | release answer =>
    rw [show derived? (.release _ answer) = none from rfl, Option.toList_none, List.append_nil]
    exact List.perm_middle
  | finalize => rfl

theorem filterMap_cons_toList {α β : Type} (f : α → Option β) (x : α) (xs : List α) :
    (x :: xs).filterMap f = (f x).toList ++ xs.filterMap f := by
  cases h : f x <;> simp [h]

/-- Every world that was brought up is shut down, in turn, but for the one that is up. -/
theorem Steps.opened_eq (h : Steps p calls q) :
    p.world.toList ++ calls.filterMap opened? = calls.filterMap closed? ++ q.world.toList := by
  induction h with
  | nil => simp
  | cons first _ ih =>
    rw [filterMap_cons_toList, filterMap_cons_toList, ← List.append_assoc, first.opened_eq,
      List.append_assoc, ih, List.append_assoc]

/-- Every communicator that was derived is given back once, but for those that are out. -/
theorem Steps.derived_perm (h : Steps p calls q) :
    (p.out ++ calls.filterMap derived?).Perm (calls.filterMap released? ++ q.out) := by
  induction h with
  | nil => simp
  | @cons p q r x calls first _ ih =>
    have hfirst := first.derived_perm.append_right (calls.filterMap derived?)
    have hrest := ih.append_left (released? x).toList
    rw [← List.append_assoc] at hrest
    rw [filterMap_cons_toList, filterMap_cons_toList, ← List.append_assoc, List.append_assoc _ _ r.out]
    exact hfirst.trans hrest

/-- A transport that never gives the same communicator twice gets none back twice, and no world. -/
theorem Steps.nodup_released (h : Steps {} calls q)
    (distinct : (calls.filterMap opened? ++ calls.filterMap derived?).Nodup) :
    (calls.filterMap released?).Nodup ∧
      ∀ world ∈ calls.filterMap opened?, world ∉ calls.filterMap released? := by
  obtain ⟨_, hderived, happart⟩ := List.nodup_append.1 distinct
  have hperm : (calls.filterMap derived?).Perm (calls.filterMap released? ++ q.out) := h.derived_perm
  refine ⟨(hperm.nodup_iff.1 hderived).of_append_left, fun world hworld hreleased => ?_⟩
  exact happart world hworld world (hperm.mem_iff.2 (List.mem_append_left _ hreleased)) rfl

end Standing

/-! ### Recording whole runs -/

namespace Site

variable {σ : Type} {s s' : Site σ} {host : ThreadHost} {c : ExecutionContext} {plan : SpawnPlan}

theorem Tidy.recorded (h : s.Tidy) (log : List Exchange) : (s.recorded log).Tidy :=
  ⟨h.records, h.keys, h.contexts⟩

/-- A registry that does not come up made no call, or one that was refused. -/
theorem initCalls_of_error {e : VmError} (h : (s.bringUp c).1 = .error e) :
    s.initCalls = [] ∨ s.registry.global = none ∧ ∃ size refusal,
      s.initCalls = [.init size (.error refusal)] := by
  rcases s.bringUp_cases c with
    ⟨g, hup, _⟩ | ⟨hdown, fault, hfault, _⟩ | ⟨hdown, _, t, hfound, refusal, net, hinit, _⟩ |
    ⟨_, _, _, _, _, _, _, hok⟩
  · exact Or.inl (by simp [initCalls, hup])
  · exact Or.inl (by simp [initCalls, hdown, DiscoveryConfig.discover, hfault])
  · exact Or.inr ⟨hdown, _, refusal, by simp [initCalls, hdown, hfound, hinit]; rfl⟩
  · rw [hok] at h
    cases h

theorem builtSlots_recorded (parent : Vm) (policy : SpawnPolicy) (parts : List Partition)
    (s : Site σ) (log : List Exchange) :
    builtSlots parent policy parts (s.recorded log) = builtSlots parent policy parts s := by
  induction parts generalizing s log with
  | nil => rfl
  | cons part parts ih =>
    obtain ⟨log', hslot⟩ := launchSlot_recorded parent policy part s log
    rw [builtSlots, builtSlots, hslot]
    rcases launchSlot parent policy part s with ⟨fault | child, s₁⟩
    · rfl
    · exact congrArg (child.vm :: ·) (ih s₁ log')

theorem built_recorded (c : ExecutionContext) (plan : SpawnPlan) (s : Site σ)
    (log : List Exchange) : (s.recorded log).built c plan = s.built c plan := by
  have hcurrent : (s.recorded log).current c = s.current c := rfl
  unfold built
  rw [hcurrent]
  split
  · rfl
  · rw [builtSlots_recorded]

/-- A startup that succeeds asks below its parent for the communicators of its children. -/
theorem startup_recorded_of_ok {spawned : Spawned} (hs : s.Tidy)
    (hp : s.Admits c plan → plan.parent.vm.id < s.nextVm)
    (h : s.startup host c plan = (.ok spawned, s')) (log : List Exchange) :
    s.Admits c plan ∧ ∃ calls,
      (s.recorded log).startup host c plan = (.ok spawned, s'.recorded (log ++ calls)) ∧
      Derived plan.parent.vm.communicator calls
        (spawned.children.map LaunchedChild.communicator) := by
  obtain ⟨log', hrecorded⟩ := startup_recorded host c plan s log
  rw [h] at hrecorded
  obtain ⟨hadmits, s₁, hslots, _, _, hafter⟩ := startup_eq_ok (hs.recorded log) hp hrecorded
  obtain ⟨_, calls, hcalls, hlog⟩ := derived_of_launchSlots (t := s.registry.transport) rfl hslots
  obtain rfl : log' = log ++ calls := (congrArg (·.net.2) hafter).trans hlog
  exact ⟨hadmits, calls, hrecorded, hcalls⟩

theorem startup_recorded_of_error {e : VmError} (hs : s.Tidy)
    (hp : s.Admits c plan → plan.parent.vm.id < s.nextVm)
    (h : s.startup host c plan = (.error e, s')) (log : List Exchange) :
    (s.recorded log).startup host c plan = (.error e, s'.recorded log) ∨
    s.Admits c plan ∧ ∃ calls back cs,
      (s.recorded log).startup host c plan = (.error e, s'.recorded (log ++ (calls ++ back))) ∧
      Derived plan.parent.vm.communicator calls cs ∧ Returned back cs := by
  obtain ⟨log', hrecorded⟩ := startup_recorded host c plan s log
  rw [h] at hrecorded
  rcases calls_of_startup_eq_error (hs.recorded log) hp rfl hrecorded with
    hafter | ⟨hadmits, calls, back, cs, hcalls, hback, hlog⟩
  · obtain rfl : log' = log := congrArg (·.net.2) hafter
    exact Or.inl hrecorded
  · obtain rfl : log' = log ++ (calls ++ back) := hlog
    exact Or.inr ⟨hadmits, calls, back, cs, hrecorded, hcalls, hback⟩

end Site

/-- The same surroundings, with every exchange of one registry written down. -/
def Surroundings.recorded {σ : Type} (env : Surroundings σ) :
    Surroundings (σ × List Exchange) where
  transport := env.transport.recorded
  fresh net := env.fresh net.1 ∧ net.2 = []
  meanwhile net net' := env.meanwhile net.1 net'.1 ∧ net'.2 = net.2

namespace Stage

variable {σ : Type}

/-- A stage with the exchanges so far. -/
def recorded (log : List Exchange) (s : Stage σ) : Stage (σ × List Exchange) where
  site := s.site.recorded log
  made := s.made
  held := s.held

/-- Where the dealings of a registry stand: its Global VM has the world that is up, and the children
that are held have the communicators that are out. -/
def standing (s : Stage σ) : Standing where
  world := s.site.registry.global.map (·.vm.communicator)
  out := s.held.map LaunchedChild.communicator

end Stage

namespace Chronicle

variable {σ : Type} {env : Surroundings σ} {k k' : Chronicle σ} {log : List Exchange}

/-- A chronicle with the exchanges so far. -/
def recorded (log : List Exchange) (k : Chronicle σ) : Chronicle (σ × List Exchange) where
  stage := k.stage.recorded log
  built := k.built
  handles := k.handles

theorem bringUp_recorded (c : ExecutionContext) (k : Chronicle σ) (log : List Exchange) :
    (k.recorded log).bringUp c = (k.bringUp c).recorded (log ++ k.stage.site.initCalls) := by
  have hup : (k.recorded log).stage.site.bringUp c = _ := k.stage.site.bringUp_recorded c log
  unfold Chronicle.bringUp Stage.bringUp
  rw [hup]
  rcases k.stage.site.bringUp c with ⟨e | global, site⟩ <;> rfl

theorem takeDown_recorded (c : ExecutionContext) (k : Chronicle σ) (log : List Exchange) :
    (k.recorded log).takeDown c = (k.takeDown c).recorded (log ++ k.stage.site.finalizeCalls) := by
  have hdown : (k.recorded log).stage.site.takeDown c = _ := k.stage.site.takeDown_recorded c log
  unfold Chronicle.takeDown Stage.takeDown
  rw [hdown]
  rfl

theorem retire_recorded (child : LaunchedChild) (handles : List Handle) (k : Chronicle σ)
    (log : List Exchange) : (k.recorded log).retire child handles =
      (k.retire child handles).recorded (log ++ k.stage.site.releaseCalls child.vm) := by
  have hretire : (k.recorded log).stage.site.retire child.vm = _ :=
    k.stage.site.retire_recorded child.vm log
  unfold Chronicle.retire Stage.retire
  rw [hretire]
  rfl

/-- A chronicle has of a startup what it answers and leaves. -/
theorem startup_recorded {host : ThreadHost} {c : ExecutionContext} {plan : SpawnPlan}
    {answer : Except VmError Spawned} {site : Site σ} {log' : List Exchange}
    (h : k.stage.site.startup host c plan = (answer, site))
    (hrecorded : (k.stage.site.recorded log).startup host c plan = (answer, site.recorded log')) :
    (k.recorded log).startup host c plan = (k.startup host c plan).recorded log' := by
  have hstartup : (k.recorded log).stage.site.startup host c plan = _ := hrecorded
  have hbuilt : (k.recorded log).stage.site.built c plan = _ :=
    Site.built_recorded c plan k.stage.site log
  unfold Chronicle.startup Stage.startup
  rw [hstartup, hbuilt, h]
  cases answer <;> rfl

theorem exists_act_retire {position : Nat} {child : LaunchedChild}
    (h : k.next? position = some child) (log : List Exchange) : ∃ handles,
      k.act (.retire position) = k.retire child handles ∧
      (k.recorded log).act (.retire position) = (k.recorded log).retire child handles := by
  obtain ⟨handle, hhandle, hhead⟩ := Option.bind_eq_some_iff.1 h
  obtain ⟨rest, hleft⟩ := List.head?_eq_some_iff.1 hhead
  have hrecorded : (k.recorded log).handles[position]? = some handle := hhandle
  refine ⟨k.handles.set position handle.next, ?_, ?_⟩
  · simp only [act, hhandle, hleft]
  · simp only [act, hrecorded, hleft]
    rfl

/-! ### The calls of an operation -/

/-- The calls of an operation. It need not come to any. -/
inductive Dealing (k : Chronicle σ) : Operation → List Exchange → Prop
  | none (op : Operation) : Dealing k op []
  | init (c : ExecutionContext) (size : Nat) (answer : Except TransportError Communicator)
      (down : k.stage.site.registry.global = .none) : Dealing k (.bringUp c) [.init size answer]
  | finalize (c : ExecutionContext) {g : VmHandle} (answer : Except TransportError Unit)
      (up : k.stage.site.registry.global = some g) (left : k.stage.held = []) :
      Dealing k (.takeDown c) [.finalize g.vm.communicator answer]
  /-- The children of a startup keep what it is given. -/
  | launch {host : ThreadHost} {c : ExecutionContext} {plan : SpawnPlan} {spawned : Spawned}
      {calls : List Exchange} (launched : (k.stage.site.startup host c plan).1 = .ok spawned)
      (live : k.stage.Live plan.parent.vm)
      (derived : Derived plan.parent.vm.communicator calls
        (spawned.children.map LaunchedChild.communicator)) :
      Dealing k (.startup host c plan) calls
  /-- A startup that fails gives back what it is given. -/
  | abort {host : ThreadHost} {c : ExecutionContext} {plan : SpawnPlan} {e : VmError}
      {calls back : List Exchange} {cs : List Communicator}
      (failed : (k.stage.site.startup host c plan).1 = .error e)
      (live : k.stage.Live plan.parent.vm)
      (derived : Derived plan.parent.vm.communicator calls cs) (returned : Returned back cs) :
      Dealing k (.startup host c plan) (calls ++ back)
  | release {position : Nat} {child : LaunchedChild} (answer : Except TransportError Unit)
      (next : k.next? position = some child) (ended : k.stage.Ended child) :
      Dealing k (.retire position) [.release child.communicator answer]

theorem dealing_bringUp (sound : k.stage.Sound) (c : ExecutionContext) :
    Dealing k (.bringUp c) k.stage.site.initCalls ∧
      k.stage.standing.Steps k.stage.site.initCalls (k.bringUp c).stage.standing := by
  have hstanding : k.stage.site.registry.global = .none → k.stage.standing = {} := by
    intro hdown
    simp [Stage.standing, hdown, sound.held_eq_nil hdown]
  rcases hup : k.stage.site.bringUp c with ⟨e | global, site⟩
  · have hsame : (k.bringUp c).stage.standing = k.stage.standing := by
      rw [(bringUp_of_error hup).1]
      rcases Site.bringUp_eq_error hup with rfl | ⟨_, _, _, _, rfl⟩ <;> rfl
    rw [hsame]
    rcases Site.initCalls_of_error (congrArg Prod.fst hup) with
      hcalls | ⟨hdown, size, refusal, hcalls⟩
    · rw [hcalls]
      exact ⟨.none _, .nil⟩
    · rw [hcalls, hstanding hdown]
      exact ⟨.init c _ _ hdown, .single (.init _ _)⟩
  · rw [(bringUp_of_ok hup).1]
    obtain ⟨hdown, t, world, net, hfound, hinit, rfl, rfl⟩ := Site.bringUp_eq_ok hup
    have hcalls : k.stage.site.initCalls = [.init t.peCount (.ok world)] := by
      simp [Site.initCalls, hdown, hfound, hinit]
    rw [hcalls, hstanding hdown]
    refine ⟨.init c _ _ hdown, ?_⟩
    simp only [Stage.standing, sound.held_eq_nil hdown]
    exact .single (.init _ (.ok world))

theorem dealing_takeDown (sound : k.stage.Sound) (c : ExecutionContext) :
    Dealing k (.takeDown c) k.stage.site.finalizeCalls ∧
      k.stage.standing.Steps k.stage.site.finalizeCalls (k.takeDown c).stage.standing := by
  cases hglobal : k.stage.site.registry.global with
  | none =>
    have hcalls : k.stage.site.finalizeCalls = [] := by simp [Site.finalizeCalls, hglobal]
    have hsame : (k.takeDown c).stage = k.stage := by
      simp [Chronicle.takeDown, Stage.takeDown, Site.takeDown, hglobal]
    rw [hcalls, hsame]
    exact ⟨.none _, .nil⟩
  | some g =>
    cases hchildren : k.stage.site.registry.children with
    | nil =>
      have hheld := sound.children_eq_nil_iff.1 hchildren
      have hcalls : k.stage.site.finalizeCalls = [.finalize g.vm.communicator
          (k.stage.site.registry.transport.finalize g.vm.communicator k.stage.site.net).1] := by
        simp [Site.finalizeCalls, hglobal, hchildren]
      have hstanding : k.stage.standing = ⟨some g.vm.communicator, []⟩ := by
        simp [Stage.standing, hglobal, hheld]
      have hafter : (k.takeDown c).stage.standing = {} := by
        simp [Chronicle.takeDown, Stage.takeDown, Site.takeDown, Stage.standing, hglobal, hchildren,
          hheld]
      rw [hcalls, hstanding, hafter]
      exact ⟨.finalize c _ hglobal hheld, .single (.finalize _)⟩
    | cons r rs =>
      have hcalls : k.stage.site.finalizeCalls = [] := by
        simp [Site.finalizeCalls, hglobal, hchildren]
      have hsame : (k.takeDown c).stage = k.stage := by
        simp [Chronicle.takeDown, Stage.takeDown, Site.takeDown, hglobal, hchildren]
      rw [hcalls, hsame]
      exact ⟨.none _, .nil⟩

/-- A VM that is live has its communicator from the world that is up, or one that is out. -/
theorem standing_of_live (sound : k.stage.Sound) {v : Vm} (live : k.stage.Live v) :
    ∃ world, k.stage.standing = ⟨some world, k.stage.held.map LaunchedChild.communicator⟩ ∧
      v.communicator ∈ world :: k.stage.held.map LaunchedChild.communicator := by
  obtain ⟨g, hglobal⟩ := sound.global_of_live live
  refine ⟨g.vm.communicator, by simp [Stage.standing, hglobal], ?_⟩
  rcases live with ⟨g', hg, rfl⟩ | ⟨child, hchild, rfl⟩
  · rw [hglobal] at hg
    obtain rfl := Option.some.inj hg
    exact List.mem_cons_self
  · exact List.mem_cons_of_mem _ (List.mem_map_of_mem hchild)

theorem dealing_startup (sound : k.stage.Sound) {plan : SpawnPlan} (known : k.stage.Plans plan)
    (host : ThreadHost) (c : ExecutionContext) (log : List Exchange) : ∃ calls,
    (k.recorded log).startup host c plan = (k.startup host c plan).recorded (log ++ calls) ∧
      Dealing k (.startup host c plan) calls ∧
      k.stage.standing.Steps calls (k.startup host c plan).stage.standing := by
  have hparent : k.stage.site.Admits c plan → plan.parent.vm.id < k.stage.site.nextVm :=
    sound.parent_lt
  rcases hstartup : k.stage.site.startup host c plan with ⟨e | spawned, site⟩
  · have hsame : (k.startup host c plan).stage.standing = k.stage.standing := by
      obtain ⟨_, _, _, rfl⟩ := Site.exists_eq_of_startup_eq_error sound.tidy hparent hstartup
      rw [(startup_of_error hstartup).1]
      rfl
    rw [hsame]
    rcases Site.startup_recorded_of_error sound.tidy hparent hstartup log with
      hrecorded | ⟨hadmits, calls, back, cs, hrecorded, hcalls, hback⟩
    · refine ⟨[], ?_, .none _, .nil⟩
      rw [List.append_nil]
      exact startup_recorded hstartup hrecorded
    · obtain ⟨hlive, _⟩ := sound.live_of_admits known hadmits
      obtain ⟨world, hstanding, hmem⟩ := standing_of_live sound hlive
      refine ⟨calls ++ back, startup_recorded hstartup hrecorded,
        .abort (congrArg Prod.fst hstartup) hlive hcalls hback, ?_⟩
      rw [hstanding]
      exact (Standing.steps_of_derived hmem hcalls).append (Standing.steps_of_returned hback)
  · obtain ⟨hadmits, calls, hrecorded, hcalls⟩ :=
      Site.startup_recorded_of_ok sound.tidy hparent hstartup log
    obtain ⟨hlive, _⟩ := sound.live_of_admits known hadmits
    obtain ⟨world, hstanding, hmem⟩ := standing_of_live sound hlive
    have hafter : (k.startup host c plan).stage.standing = ⟨some world,
        k.stage.held.map LaunchedChild.communicator ++
          spawned.children.map LaunchedChild.communicator⟩ := by
      obtain ⟨_, _, _, _, _, rfl⟩ := Site.startup_eq_ok sound.tidy hparent hstartup
      rw [(startup_of_ok hstartup).1, ← List.map_append]
      exact congrArg (Standing.mk · _) (congrArg Standing.world hstanding)
    refine ⟨calls, startup_recorded hstartup hrecorded,
      .launch (congrArg Prod.fst hstartup) hlive hcalls, ?_⟩
    rw [hstanding, hafter]
    exact Standing.steps_of_derived hmem hcalls

theorem dealing_retire (sound : k.stage.Sound) (faithful : k.Faithful) {position : Nat}
    (ended : ∀ child ∈ k.next? position, k.stage.Ended child) (log : List Exchange) : ∃ calls,
    (k.recorded log).act (.retire position) =
      (k.act (.retire position)).recorded (log ++ calls) ∧
      Dealing k (.retire position) calls ∧
      k.stage.standing.Steps calls (k.act (.retire position)).stage.standing := by
  cases hnext : k.next? position with
  | none =>
    have hrecorded : (k.recorded log).next? position = .none := hnext
    refine ⟨[], ?_, .none _, ?_⟩
    · rw [act_retire_of_none hnext, act_retire_of_none hrecorded, List.append_nil]
    · rw [act_retire_of_none hnext]
      exact .nil
  | some child =>
    obtain ⟨handles, hact, hrecorded⟩ := exists_act_retire hnext log
    obtain ⟨before, after, hheld⟩ := faithful.held_of_next hnext
    have hmem := faithful.mem_held_of_next hnext
    obtain ⟨r, hr, hvm, _⟩ := sound.exists_record hmem
    have hchild := hvm ▸ sound.child?_of_mem hr
    have hcalls : k.stage.site.releaseCalls child.vm = [.release child.communicator
        (k.stage.site.registry.transport.release child.communicator k.stage.site.net).1] := by
      simp only [Site.releaseCalls, hchild]
      rfl
    obtain ⟨world, hstanding, _⟩ := standing_of_live sound (Or.inr ⟨child, hmem, rfl⟩)
    rw [hrecorded, hact, retire_recorded, hcalls]
    refine ⟨_, rfl, .release _ hnext (ended child hnext), ?_⟩
    have hafter : (k.retire child handles).stage.standing =
        ⟨some world, (before ++ after).map LaunchedChild.communicator⟩ := by
      have hapart := sound.apart
      have hworld := congrArg Standing.world hstanding
      rw [hheld] at hapart
      rw [Chronicle.retire, Stage.retire, Site.retire_of_child? hchild, hheld,
        filter_key_ne_of_split hapart]
      exact congrArg (Standing.mk · _) hworld
    rw [hstanding, hafter, hheld, List.map_append, List.map_append, List.map_cons]
    exact .single (.release _)

/-- The calls of an operation are in order, whatever is written down already. -/
theorem act_recorded (sound : k.stage.Sound) (faithful : k.Faithful) {op : Operation}
    (allowed : k.Allows op) (log : List Exchange) : ∃ calls,
    (k.recorded log).act op = (k.act op).recorded (log ++ calls) ∧ Dealing k op calls ∧
      k.stage.standing.Steps calls (k.act op).stage.standing := by
  cases op with
  | bringUp c => exact ⟨_, k.bringUp_recorded c log, dealing_bringUp sound c⟩
  | takeDown c => exact ⟨_, k.takeDown_recorded c log, dealing_takeDown sound c⟩
  | startup host c plan => exact dealing_startup sound allowed host c log
  | retire position => exact dealing_retire sound faithful allowed log

/-! ### The calls of a run -/

/-- What is done over a transport can be done over the transport recorded. -/
theorem Reachable.exists_recorded (h : Reachable env k) :
    ∃ log, Reachable env.recorded (k.recorded log) := by
  induction h with
  | start id config detected process unbound fresh =>
    have hfresh : env.recorded.fresh (process.net, []) := ⟨fresh, rfl⟩
    exact ⟨[], .start id config detected { process with net := (process.net, []) } unbound hfresh⟩
  | step h next ih =>
    obtain ⟨log, hlog⟩ := ih
    rcases next.exists_act with
      ⟨op, hallowed, rfl⟩ | ⟨c, rfl⟩ | ⟨process, hids, hown, hnet, rfl⟩
    · obtain ⟨calls, hact, _⟩ := act_recorded h.stage.sound h.faithful hallowed log
      exact ⟨log ++ calls, hact ▸ hlog.act hallowed⟩
    · exact ⟨log, hlog.step (.endThread c)⟩
    · have hmeanwhile : env.recorded.meanwhile (_, log) (process.net, log) := ⟨hnet, rfl⟩
      exact ⟨log, hlog.step (.meanwhile { process with net := (process.net, log) } hids hown
        hmeanwhile)⟩

/-- What is done over a transport that is recorded is done over the transport, and the calls are in
order from the first to the last. -/
theorem Reachable.of_recorded {k' : Chronicle (σ × List Exchange)}
    (h : Reachable env.recorded k') : ∃ k log, k' = k.recorded log ∧ Reachable env k ∧
      Standing.Steps {} log k.stage.standing := by
  induction h with
  | start id config detected process unbound fresh =>
    obtain ⟨hfresh, hlog⟩ := fresh
    obtain ⟨_, _, _, net, _⟩ := process
    obtain rfl := hlog
    exact ⟨_, [], rfl, .start id config detected ⟨_, _, _, net⟩ unbound hfresh, .nil⟩
  | step _ next ih =>
    obtain ⟨k, log, rfl, hk, hsteps⟩ := ih
    rcases next.exists_act with
      ⟨op, hallowed, rfl⟩ | ⟨c, rfl⟩ | ⟨process, hids, hown, ⟨hnet, hlog⟩, rfl⟩
    · obtain ⟨calls, hact, _, hcalls⟩ := act_recorded hk.stage.sound hk.faithful hallowed log
      exact ⟨_, _, hact, hk.act hallowed, hsteps.append hcalls⟩
    · exact ⟨_, log, rfl, hk.step (.endThread c), hsteps⟩
    · obtain ⟨_, _, _, net, _⟩ := process
      obtain rfl := hlog
      exact ⟨_, _, rfl, hk.step (.meanwhile ⟨_, _, _, net⟩ hids hown hnet), hsteps⟩

/-- Whatever a transport answers, the calls of a run are in order: they lead from nothing to the
world of the Global VM and the communicators of the children that are held. Every world but this was
shut down once, in turn, and every communicator that was derived but for these was given back once.
What is still called is for the operation at hand: to derive is for a startup, below a VM that is
live, and to give back is for a startup that fails or for a child whose PETs have ended. -/
theorem Reachable.dealings (h : Reachable env k) :
    (∃ log, Reachable env.recorded (k.recorded log)) ∧
    ∀ log, Reachable env.recorded (k.recorded log) →
      Standing.Steps {} log k.stage.standing ∧
      log.filterMap opened? =
        log.filterMap closed? ++ (k.stage.site.registry.global.map (·.vm.communicator)).toList ∧
      (log.filterMap derived?).Perm
        (log.filterMap released? ++ k.stage.held.map LaunchedChild.communicator) ∧
      ((log.filterMap opened? ++ log.filterMap derived?).Nodup →
        (log.filterMap released?).Nodup ∧
        ∀ world ∈ log.filterMap opened?, world ∉ log.filterMap released?) ∧
      ∀ op, k.Allows op → ∃ calls, (k.recorded log).act op = (k.act op).recorded (log ++ calls) ∧
        Dealing k op calls ∧ k.stage.standing.Steps calls (k.act op).stage.standing := by
  refine ⟨h.exists_recorded, fun log hlog => ?_⟩
  have hsteps : Standing.Steps {} log k.stage.standing := by
    obtain ⟨k', log', heq, _, hsteps⟩ := hlog.of_recorded
    obtain rfl : log = log' := congrArg (·.stage.site.net.2) heq
    have hstanding : k.stage.standing = k'.stage.standing := congrArg (·.stage.standing) heq
    rwa [hstanding]
  exact ⟨hsteps, hsteps.opened_eq, hsteps.derived_perm, hsteps.nodup_released,
    fun op hallowed => act_recorded h.stage.sound h.faithful hallowed log⟩

/-- The first of two children is retired and the Global VM asks for both again. -/
def repeated (t : Transport σ) (net : σ) : Chronicle σ :=
  (halved t net).retireHalf.spawn .main 2 .maxThreads

/-- What the first of them is given goes back when the processing elements of the second are not to
be had. -/
def repeatedCalls : List Exchange :=
  [.init 4 (.ok ⟨0, 4, 0⟩),
    .derive ⟨0, 4, 0⟩ 2 (.ok ⟨1, 2, 1⟩), .derive ⟨0, 4, 0⟩ 2 (.ok ⟨2, 2, 2⟩),
    .release ⟨1, 2, 1⟩ (.ok ()),
    .derive ⟨0, 4, 0⟩ 2 (.ok ⟨3, 2, 3⟩), .release ⟨3, 2, 3⟩ (.ok ())]

theorem reachable_repeated (env : Surroundings σ) {net : σ} (fresh : env.fresh net)
    (ended : ∀ child ∈ ((halved env.transport net).handles.flatMap Handle.left).head?,
      (((halved env.transport net).stage.endThread (.pet 2 0)).endThread (.pet 2 1)).Ended child) :
    Reachable env (repeated env.transport net) :=
  reachable_spawn (reachable_retireHalf (reachable_halved fresh) ended) _ _ _

theorem dealings_repeated :
    Reachable (Surroundings.limited 9).recorded
      ((repeated (.limited 9) 0).recorded repeatedCalls) ∧
    Standing.Steps {} repeatedCalls ⟨some ⟨0, 4, 0⟩, [⟨2, 2, 2⟩]⟩ ∧
    (repeatedCalls.filterMap released?).Nodup ∧
    ∀ op, (repeated (.limited 9) 0).Allows op → ∃ calls,
      Dealing (repeated (.limited 9) 0) op calls ∧
      Standing.Steps ⟨some ⟨0, 4, 0⟩, [⟨2, 2, 2⟩]⟩ calls
        ((repeated (.limited 9) 0).act op).stage.standing := by
  have hreachable : Reachable (.limited 9) (repeated (Transport.limited 9) 0) :=
    reachable_repeated (.limited 9) rfl (by decide)
  have hruns : (repeated (Transport.limited 9) 0).recorded repeatedCalls =
      repeated (Transport.limited 9).recorded (0, []) := by rfl
  have hrecorded : Reachable (Surroundings.limited 9).recorded
      ((repeated (Transport.limited 9) 0).recorded repeatedCalls) := by
    rw [hruns]
    exact reachable_repeated (Surroundings.limited 9).recorded ⟨rfl, rfl⟩ (by decide)
  have hstanding : (repeated (Transport.limited 9) 0).stage.standing =
      ⟨some ⟨0, 4, 0⟩, [⟨2, 2, 2⟩]⟩ := by decide
  obtain ⟨_, hall⟩ := Reachable.dealings hreachable
  obtain ⟨hsteps, _, _, hdistinct, hop⟩ := hall repeatedCalls hrecorded
  rw [hstanding] at hsteps
  obtain ⟨hreleased, _⟩ := hdistinct (by decide)
  refine ⟨hrecorded, hsteps, hreleased, fun op hallowed => ?_⟩
  obtain ⟨calls, _, hdealing, hcalls⟩ := hop op hallowed
  rw [hstanding] at hcalls
  exact ⟨calls, hdealing, hcalls⟩

end Chronicle

end VirtualTopology
