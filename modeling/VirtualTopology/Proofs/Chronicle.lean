import VirtualTopology.Proofs.Rollback

/-!
# Runs with a chronicle

A stage knows the children that are held, but not by whom, and not the VMs of startups that
failed. A chronicle is a stage together with both: the handles that startups returned, with the
number of children that were retired of each, and every VM that was ever made, whether or not it
came to run. Handles belong to nobody in particular: whoever has one may join or drop it, and its
children are then retired in slot order, with anything else going on in between.

## Main definitions

- `Site.built`: the VMs a startup makes, also if it fails.
- `Chronicle`: a stage with the handles and the VMs of the run.
- `Chronicle.Step`, `Chronicle.Reachable`: one step, and the chronicles of runs.

## Main statements

- `Chronicle.Reachable.stage`: a chronicle is of a run of the registry.
- `Chronicle.Reachable.faithful`: what the handles and the VMs have to do with the stage.
-/

namespace VirtualTopology

/-! ### The VMs a startup makes -/

namespace Site

variable {σ : Type} {s s' s₁ : Site σ} {parent : Vm} {policy : SpawnPolicy} {part : Partition}
  {parts before after : List Partition} {done children : List LaunchedChild} {host : ThreadHost}
  {c : ExecutionContext} {plan : SpawnPlan}

/-- The VMs made for the slots up to the first that is not launched. -/
def builtSlots (parent : Vm) (policy : SpawnPolicy) : List Partition → Site σ → List Vm
  | [], _ => []
  | part :: parts, s =>
    match launchSlot parent policy part s with
    | (.error _, _) => []
    | (.ok child, s) => child.vm :: builtSlots parent policy parts s

/-- The VMs that a startup makes: none if the caller may not launch the plan. -/
def built (c : ExecutionContext) (plan : SpawnPlan) (s : Site σ) : List Vm :=
  match s.current c with
  | .error _ => []
  | .ok caller =>
    if caller.sameVm plan.parent ∧ plan.parent.vm.depth < Limits.maxSpawnDepth then
      builtSlots plan.parent.vm plan.policy plan.partitions s
    else []

theorem builtSlots_of_ok (h : launchSlots parent policy done parts s = (.ok children, s')) :
    children.map LaunchedChild.vm =
      done.map LaunchedChild.vm ++ builtSlots parent policy parts s := by
  induction parts generalizing done s with
  | nil =>
    obtain ⟨hdone, _⟩ := Prod.mk.inj h
    simp [builtSlots, Except.ok.inj hdone]
  | cons part parts ih =>
    rw [launchSlots] at h
    rw [builtSlots]
    rcases hslot : launchSlot parent policy part s with ⟨fault | child, s₁⟩
    · rw [hslot] at h
      cases (Prod.mk.inj h).1
    · rw [hslot] at h
      simpa using ih h

theorem builtSlots_of_error {fault : LaunchFault} {s₂ : Site σ}
    (h : launchSlots parent policy done before s = (.ok children, s₁))
    (hfault : launchSlot parent policy part s₁ = (.error fault, s₂)) :
    children.map LaunchedChild.vm =
      done.map LaunchedChild.vm ++ builtSlots parent policy (before ++ part :: after) s := by
  induction before generalizing done s with
  | nil =>
    obtain ⟨hdone, rfl⟩ := Prod.mk.inj h
    simp [builtSlots, hfault, Except.ok.inj hdone]
  | cons first before ih =>
    rw [launchSlots] at h
    rw [List.cons_append, builtSlots]
    rcases hslot : launchSlot parent policy first s with ⟨refused | child, s'⟩
    · rw [hslot] at h
      cases (Prod.mk.inj h).1
    · rw [hslot] at h
      simpa using ih h

theorem built_of_admits (h : s.Admits c plan) :
    s.built c plan = builtSlots plan.parent.vm plan.policy plan.partitions s := by
  obtain ⟨caller, hcurrent, hsame, hdepth⟩ := h
  rw [built, hcurrent]
  exact if_pos ⟨hsame, hdepth⟩

theorem built_of_not_admits (h : ¬ s.Admits c plan) : s.built c plan = [] := by
  unfold built
  split
  · rfl
  · next caller hcurrent => exact if_neg fun hadmits => h ⟨caller, hcurrent, hadmits⟩

theorem built_of_startup_eq_ok {spawned : Spawned} (hs : s.Tidy)
    (hp : s.Admits c plan → plan.parent.vm.id < s.nextVm)
    (h : s.startup host c plan = (.ok spawned, s')) :
    s.built c plan = spawned.children.map LaunchedChild.vm := by
  obtain ⟨hadmits, s₁, hslots, _⟩ := startup_eq_ok hs hp h
  rw [built_of_admits hadmits]
  exact (builtSlots_of_ok hslots).symm

/-- The VMs a startup makes are those of slots that were launched, whatever came after. -/
theorem built_of_startup (hs : s.Tidy) (hp : s.Admits c plan → plan.parent.vm.id < s.nextVm)
    (host : ThreadHost) :
    s.built c plan = [] ∨ s.Admits c plan ∧ ∃ before after launched s₁,
      plan.partitions = before ++ after ∧
      launchSlots plan.parent.vm plan.policy [] before s = (.ok launched, s₁) ∧
      s.built c plan = launched.map LaunchedChild.vm ∧
      s₁.nextVm ≤ (s.startup host c plan).2.nextVm := by
  -- A startup is not begun, stops at a slot, stops at a thread, or goes through.
  rcases hstartup : s.startup host c plan with ⟨e | spawned, s'⟩
  · rcases startup_eq_error hs hp hstartup with
      ⟨hadmits, rfl⟩ |
      ⟨hadmits, before, part, after, launched, s₁, fault, net, hparts, hbefore, hslot, _, rfl⟩ |
      ⟨hadmits, children, s₁, pet, reason, hslots, _, _, rfl⟩
    · exact Or.inl (built_of_not_admits hadmits)
    · refine Or.inr ⟨hadmits, before, part :: after, launched, s₁, hparts, hbefore, ?_, ?_⟩
      · rw [built_of_admits hadmits, hparts]
        exact (builtSlots_of_error hbefore hslot).symm
      · rw [(vmIds_of_launchSlots hbefore).2]
        exact Nat.le_succ _
    · refine Or.inr ⟨hadmits, plan.partitions, [], children, s₁, by simp, hslots, ?_, ?_⟩
      · rw [built_of_admits hadmits]
        exact (builtSlots_of_ok hslots).symm
      · exact Nat.le_of_eq ((vmIds_of_launchSlots hslots).2)
  · obtain ⟨hadmits, s₁, hslots, _, _, rfl⟩ := startup_eq_ok hs hp hstartup
    refine Or.inr ⟨hadmits, plan.partitions, [], spawned.children, s₁, by simp, hslots,
      built_of_startup_eq_ok hs hp hstartup, Nat.le_refl _⟩

/-- The VMs a startup makes have ids of their own, none of which was given out before. -/
theorem ids_of_built (hs : s.Tidy) (hp : s.Admits c plan → plan.parent.vm.id < s.nextVm)
    (host : ThreadHost) :
    s.nextVm ≤ (s.startup host c plan).2.nextVm ∧
    (∀ v ∈ s.built c plan, s.nextVm ≤ v.id ∧ v.id < (s.startup host c plan).2.nextVm) ∧
    ((s.built c plan).map Vm.id).Nodup := by
  have hle : s.nextVm ≤ (s.startup host c plan).2.nextVm := by
    rcases hstartup : s.startup host c plan with ⟨e | spawned, s'⟩
    · obtain ⟨next, net, hle, rfl⟩ := exists_eq_of_startup_eq_error hs hp hstartup
      exact hle
    · obtain ⟨_, s₁, _, hlaunched, _, rfl⟩ := startup_eq_ok hs hp hstartup
      exact hlaunched.next
  rcases built_of_startup hs hp host with
    hnone | ⟨hadmits, before, after, launched, s₁, _, hslots, hbuilt, hnext⟩
  · exact ⟨hle, by simp [hnone], by simp [hnone]⟩
  · have hlaunched := Launched.of_launchSlots (hp hadmits) hslots
    refine ⟨hle, ?_, ?_⟩
    · intro v hv
      rw [hbuilt] at hv
      obtain ⟨child, hchild, rfl⟩ := List.mem_map.1 hv
      obtain ⟨hlow, hhigh⟩ := hlaunched.fresh child hchild
      exact ⟨hlow, Nat.lt_of_lt_of_le hhigh hnext⟩
    · rw [hbuilt, List.map_map]
      exact hlaunched.distinct

end Site

/-! ### Chronicles -/

/-- A handle that a startup returned. Joining or dropping it retires the children one by one. -/
structure Handle where
  spawned : Spawned
  /-- The number of children that were retired, in slot order. -/
  retired : Nat := 0

namespace Handle

/-- The children that are yet to be retired. -/
def left (h : Handle) : List LaunchedChild := h.spawned.children.drop h.retired

/-- One more child is retired. -/
def next (h : Handle) : Handle := { h with retired := h.retired + 1 }

theorem left_next {h : Handle} {child : LaunchedChild} {rest : List LaunchedChild}
    (hleft : h.left = child :: rest) : h.next.left = rest := by
  rw [left] at hleft
  rw [left, next, ← List.drop_drop, hleft]
  rfl

end Handle

/-- A registry in its process with all that came of its operations. -/
structure Chronicle (σ : Type) where
  stage : Stage σ
  /-- Every VM that was made, oldest first, also those of startups that failed. -/
  built : List Vm := []
  /-- Every handle that a startup returned, oldest first. -/
  handles : List Handle := []

namespace Chronicle

variable {σ : Type}

def bringUp (c : ExecutionContext) (k : Chronicle σ) : Chronicle σ :=
  { k with
    stage := k.stage.bringUp c
    built := k.built ++ (k.stage.site.bringUp c).1.toOption.toList.map VmHandle.vm }

def takeDown (c : ExecutionContext) (k : Chronicle σ) : Chronicle σ :=
  { k with stage := k.stage.takeDown c }

/-- The children of a plan are launched. -/
def startup (host : ThreadHost) (c : ExecutionContext) (plan : SpawnPlan) (k : Chronicle σ) :
    Chronicle σ where
  stage := k.stage.startup host c plan
  built := k.built ++ k.stage.site.built c plan
  handles := k.handles ++
    (k.stage.site.startup host c plan).1.toOption.toList.map fun spawned => ⟨spawned, 0⟩

/-- A child is retired, and the handles are the given ones from then on. -/
def retire (child : LaunchedChild) (handles : List Handle) (k : Chronicle σ) : Chronicle σ :=
  { k with stage := k.stage.retire child, handles }

def endThread (c : ExecutionContext) (k : Chronicle σ) : Chronicle σ :=
  { k with stage := k.stage.endThread c }

/-- The process changes around the registry. -/
def within (process : Process σ) (k : Chronicle σ) : Chronicle σ :=
  { k with stage := k.stage.within process }

/-- What may happen next. Children are retired by their handles only. -/
inductive Step (env : Surroundings σ) : Chronicle σ → Chronicle σ → Prop
  | bringUp {k} (c : ExecutionContext) (begun : c.Begun k.stage.site.nextVm) :
      Step env k (k.bringUp c)
  | takeDown {k} (c : ExecutionContext) : Step env k (k.takeDown c)
  | startup {k} (host : ThreadHost) (c : ExecutionContext) {plan} (known : k.stage.Plans plan) :
      Step env k (k.startup host c plan)
  /-- A handle that is joined or dropped has waited for the PETs of its next child. -/
  | retire {k before handle after child rest} (split : k.handles = before ++ handle :: after)
      (left : handle.left = child :: rest) (ended : k.stage.Ended child) :
      Step env k (k.retire child (before ++ handle.next :: after))
  | endThread {k} (c : ExecutionContext) : Step env k (k.endThread c)
  /-- Something happens elsewhere in the process. -/
  | meanwhile {k} (process : Process σ) (ids : k.stage.site.nextVm ≤ process.nextVm)
      (own : process.bindings.ofRegistry k.stage.site.registry.id =
        k.stage.site.bindings.ofRegistry k.stage.site.registry.id)
      (net : env.meanwhile k.stage.site.net process.net) : Step env k (k.within process)

/-- The chronicles of runs. -/
inductive Reachable (env : Surroundings σ) : Chronicle σ → Prop
  | start (id : Nat) (config : DiscoveryConfig) (detected : Nat) (process : Process σ)
      (unbound : process.bindings.ofRegistry id = []) (fresh : env.fresh process.net) :
      Reachable env { stage := .start env.transport id config detected process }
  | step {k k'} (h : Reachable env k) (next : Step env k k') : Reachable env k'

variable {env : Surroundings σ} {k k' : Chronicle σ}

/-! ### Handles and VMs -/

/-- The children that are held are those that the handles have left. The VMs are told apart by
their ids, and a handle has the children of all slots of its plan. -/
structure Faithful (k : Chronicle σ) : Prop where
  held : k.stage.held = k.handles.flatMap Handle.left
  made : List.Sublist ((k.handles.flatMap (·.spawned.children)).map LaunchedChild.vm) k.stage.made
  built : List.Sublist k.stage.made k.built
  ids : ∀ v ∈ k.built, v.id < k.stage.site.nextVm
  distinct : (k.built.map Vm.id).Nodup
  registry : ∀ h ∈ k.handles, h.spawned.registry = k.stage.site.registry.id
  slots : ∀ h ∈ k.handles,
    h.spawned.children.map (·.partition.slot) = List.range h.spawned.children.length
  nonempty : ∀ h ∈ k.handles, h.spawned.children ≠ []

namespace Faithful

variable {c : ExecutionContext} {plan : SpawnPlan}

/-- No child is in two handles, nor twice in one. -/
theorem children_distinct (h : k.Faithful) :
    ((k.handles.flatMap (·.spawned.children)).map (·.vm.id)).Nodup := by
  have hids := h.distinct.sublist ((h.made.trans h.built).map Vm.id)
  rwa [List.map_map] at hids

theorem mem_held (h : k.Faithful) {before after : List Handle} {handle : Handle}
    {child : LaunchedChild} {rest : List LaunchedChild}
    (split : k.handles = before ++ handle :: after) (left : handle.left = child :: rest) :
    k.stage.held = before.flatMap Handle.left ++ child :: (rest ++ after.flatMap Handle.left) := by
  rw [h.held, split, List.flatMap_append, List.flatMap_cons, left, List.cons_append]

/-- Where no VM is made and no child retired, all stays as it was. -/
theorem still (h : k.Faithful) (held : k'.stage.held = k.stage.held)
    (made : k'.stage.made = k.stage.made) (built : k'.built = k.built)
    (handles : k'.handles = k.handles)
    (registry : k'.stage.site.registry.id = k.stage.site.registry.id)
    (next : k.stage.site.nextVm ≤ k'.stage.site.nextVm) : k'.Faithful where
  held := by rw [held, handles, h.held]
  made := by rw [made, handles]; exact h.made
  built := by rw [made, built]; exact h.built
  ids v hv := Nat.lt_of_lt_of_le (h.ids v (built ▸ hv)) next
  distinct := built ▸ h.distinct
  registry := by rw [handles, registry]; exact h.registry
  slots := handles ▸ h.slots
  nonempty := handles ▸ h.nonempty

theorem bringUp (h : k.Faithful) (c : ExecutionContext) : (k.bringUp c).Faithful := by
  rcases hup : k.stage.site.bringUp c with ⟨e | global, site⟩
  · have hstage : k.stage.bringUp c = { k.stage with site } := by
      simp only [Stage.bringUp, hup]
    have hsite : site.registry = k.stage.site.registry ∧ site.nextVm = k.stage.site.nextVm := by
      rcases Site.bringUp_eq_error hup with rfl | ⟨_, _, _, _, rfl⟩ <;> exact ⟨rfl, rfl⟩
    refine h.still ?_ ?_ ?_ rfl ?_ ?_ <;>
      simp [Chronicle.bringUp, hstage, hup, hsite, Except.toOption]
  · have hstage : k.stage.bringUp c = { k.stage with site, made := k.stage.made ++ [global.vm] } := by
      simp only [Stage.bringUp, hup]
    have hbuilt : (k.bringUp c).built = k.built ++ [global.vm] := by
      simp [Chronicle.bringUp, hup, Except.toOption]
    obtain ⟨_, t, world, net, _, _, rfl, rfl⟩ := Site.bringUp_eq_ok hup
    refine
      { held := ?_, made := ?_, built := ?_, ids := ?_, distinct := ?_
        registry := ?_, slots := h.slots, nonempty := h.nonempty }
    · rw [Chronicle.bringUp, hstage]
      exact h.held
    · rw [Chronicle.bringUp, hstage]
      exact h.made.trans (List.sublist_append_left _ _)
    · rw [hbuilt, Chronicle.bringUp, hstage]
      exact h.built.append (List.Sublist.refl _)
    · intro v hv
      rw [Chronicle.bringUp, hstage]
      rw [hbuilt, List.mem_append, List.mem_singleton] at hv
      rcases hv with hv | rfl
      · exact Nat.lt_succ_of_lt (h.ids v hv)
      · exact Nat.lt_succ_self _
    · rw [hbuilt]
      exact nodup_map_concat h.distinct fun v hv => Nat.ne_of_lt (h.ids v hv)
    · rw [Chronicle.bringUp, hstage]
      exact h.registry

/-- Whether or not a startup fails, the VMs it made are new. -/
theorem ids_startup (h : k.Faithful) (sound : k.stage.Sound) (host : ThreadHost)
    (c : ExecutionContext) (plan : SpawnPlan) :
    (∀ v ∈ (k.startup host c plan).built, v.id < (k.startup host c plan).stage.site.nextVm) ∧
      ((k.startup host c plan).built.map Vm.id).Nodup := by
  have hp : k.stage.site.Admits c plan → plan.parent.vm.id < k.stage.site.nextVm :=
    sound.parent_lt
  obtain ⟨hle, hids, hdistinct⟩ := Site.ids_of_built sound.tidy hp host
  constructor
  · intro v hv
    show v.id < (k.stage.startup host c plan).site.nextVm
    rw [k.stage.site_startup]
    cases List.mem_append.1 hv with
    | inl hv => exact Nat.lt_of_lt_of_le (h.ids v hv) hle
    | inr hv => exact (hids v hv).2
  · apply nodup_map_append h.distinct hdistinct
    intro v hv w hw
    exact Nat.ne_of_lt (Nat.lt_of_lt_of_le (h.ids v hv) (hids w hw).1)

theorem startup_error (h : k.Faithful) (sound : k.stage.Sound) {host : ThreadHost} {e : VmError}
    {site : Site σ} (hstartup : k.stage.site.startup host c plan = (.error e, site)) :
    (k.startup host c plan).Faithful := by
  obtain ⟨hids, hdistinct⟩ := h.ids_startup sound host c plan
  have hstage : k.stage.startup host c plan = { k.stage with site } := by
    simp only [Stage.startup, hstartup]
  have hhandles : (k.startup host c plan).handles = k.handles := by
    simp [Chronicle.startup, hstartup, Except.toOption]
  obtain ⟨next, net, _, rfl⟩ :=
    Site.exists_eq_of_startup_eq_error sound.tidy sound.parent_lt hstartup
  refine
    { held := ?_, made := ?_, built := ?_, ids := hids, distinct := hdistinct
      registry := ?_, slots := hhandles ▸ h.slots, nonempty := hhandles ▸ h.nonempty }
  · rw [hhandles, Chronicle.startup, hstage]
    exact h.held
  · rw [hhandles, Chronicle.startup, hstage]
    exact h.made
  · rw [Chronicle.startup, hstage]
    exact h.built.trans (List.sublist_append_left _ _)
  · rw [hhandles, Chronicle.startup, hstage]
    exact h.registry

theorem startup_ok (h : k.Faithful) (sound : k.stage.Sound) {host : ThreadHost}
    {spawned : Spawned} {site : Site σ} (known : k.stage.Plans plan)
    (hstartup : k.stage.site.startup host c plan = (.ok spawned, site)) :
    (k.startup host c plan).Faithful := by
  obtain ⟨hids, hdistinct⟩ := h.ids_startup sound host c plan
  have hstage : k.stage.startup host c plan = ⟨site,
      k.stage.made ++ spawned.children.map LaunchedChild.vm, k.stage.held ++ spawned.children⟩ := by
    simp only [Stage.startup, hstartup]
  have hhandles : (k.startup host c plan).handles = k.handles ++ [⟨spawned, 0⟩] := by
    simp [Chronicle.startup, hstartup, Except.toOption]
  have hmem : ∀ handle ∈ (k.startup host c plan).handles, handle ∈ k.handles ∨
      handle = ⟨spawned, 0⟩ := by
    simp [hhandles]
  have hbuilt := Site.built_of_startup_eq_ok sound.tidy sound.parent_lt hstartup
  obtain ⟨_, s₁, hslots, _, hregistry, rfl⟩ :=
    Site.startup_eq_ok sound.tidy sound.parent_lt hstartup
  have hparts := Site.partitions_of_launchSlots hslots
  rw [List.map_nil, List.nil_append] at hparts
  obtain ⟨parent, count, policy, hplan, _⟩ := known
  obtain ⟨_, _, hcount, hnumbers, _⟩ := SpawnPlan.build_eq_ok hplan
  refine
    { held := ?_, made := ?_, built := ?_, ids := hids, distinct := hdistinct
      registry := ?_, slots := ?_, nonempty := ?_ }
  · rw [hhandles, Chronicle.startup, hstage, List.flatMap_append, ← h.held]
    simp [Handle.left]
  · have hmade := h.made.append (List.Sublist.refl (spawned.children.map LaunchedChild.vm))
    rw [hhandles, Chronicle.startup, hstage, List.flatMap_append, List.map_append]
    simpa using hmade
  · rw [Chronicle.startup, hstage]
    exact h.built.append (hbuilt ▸ List.Sublist.refl _)
  · rw [Chronicle.startup, hstage]
    intro handle hhandle
    rcases hmem handle hhandle with hold | rfl
    · exact h.registry handle hold
    · exact hregistry
  · intro handle hhandle
    rcases hmem handle hhandle with hold | rfl
    · exact h.slots handle hold
    · have hlength : spawned.children.length = count := by
        rw [← hcount, ← hparts, List.length_map]
      rw [hlength, ← hnumbers, ← hparts, List.map_map]
      rfl
  · intro handle hhandle
    rcases hmem handle hhandle with hold | rfl
    · exact h.nonempty handle hold
    · intro hnil
      rw [show spawned.children = [] from hnil] at hparts
      exact SpawnPlan.partitions_ne_nil hplan hparts.symm

theorem retire (h : k.Faithful) (sound : k.stage.Sound) {before after : List Handle}
    {handle : Handle} {child : LaunchedChild} {rest : List LaunchedChild}
    (split : k.handles = before ++ handle :: after) (left : handle.left = child :: rest) :
    (k.retire child (before ++ handle.next :: after)).Faithful := by
  have hheld := h.mem_held split left
  have hsite : (k.stage.site.retire child.vm).registry.id = k.stage.site.registry.id ∧
      (k.stage.site.retire child.vm).nextVm = k.stage.site.nextVm := by
    unfold Site.retire
    split <;> exact ⟨rfl, rfl⟩
  have hmem : ∀ handle' ∈ before ++ handle.next :: after, ∃ old ∈ k.handles,
      handle'.spawned = old.spawned := by
    intro handle' hhandle'
    rw [split]
    simp only [List.mem_append, List.mem_cons] at hhandle'
    rcases hhandle' with hold | rfl | hold
    · exact ⟨handle', by simp [hold], rfl⟩
    · exact ⟨handle, by simp, rfl⟩
    · exact ⟨handle', by simp [hold], rfl⟩
  refine
    { held := ?_, made := ?_, built := h.built, ids := ?_, distinct := h.distinct
      registry := ?_, slots := ?_, nonempty := ?_ }
  -- No other child has the id, so the one at the head of its handle is all that goes.
  · show k.stage.held.filter (·.vm.id != child.vm.id) = _
    have hapart := sound.apart
    rw [hheld] at hapart ⊢
    rw [filter_key_ne_of_split hapart]
    show _ = (before ++ handle.next :: after).flatMap Handle.left
    rw [List.flatMap_append, List.flatMap_cons, Handle.left_next left]
  · have hmade := h.made
    rw [split] at hmade
    simpa [Chronicle.retire, Stage.retire, Handle.next] using hmade
  · intro v hv
    exact Nat.lt_of_lt_of_le (h.ids v hv) (Nat.le_of_eq hsite.2.symm)
  · intro handle' hhandle'
    obtain ⟨old, hold, heq⟩ := hmem handle' hhandle'
    rw [heq]
    exact (h.registry old hold).trans hsite.1.symm
  · intro handle' hhandle'
    obtain ⟨old, hold, heq⟩ := hmem handle' hhandle'
    rw [heq]
    exact h.slots old hold
  · intro handle' hhandle'
    obtain ⟨old, hold, heq⟩ := hmem handle' hhandle'
    rw [heq]
    exact h.nonempty old hold

theorem step (h : k.Faithful) (sound : k.stage.Sound) (next : Step env k k') : k'.Faithful := by
  cases next with
  | bringUp c _ => exact h.bringUp c
  | takeDown c =>
    have hsite : (k.stage.site.takeDown c).2.registry.id = k.stage.site.registry.id ∧
        (k.stage.site.takeDown c).2.nextVm = k.stage.site.nextVm := by
      unfold Site.takeDown
      split
      · exact ⟨rfl, rfl⟩
      · split <;> exact ⟨rfl, rfl⟩
    exact h.still rfl rfl rfl rfl hsite.1 (Nat.le_of_eq hsite.2.symm)
  | @startup host c plan known =>
    rcases hstartup : k.stage.site.startup host c plan with ⟨e | spawned, site⟩
    · exact h.startup_error sound hstartup
    · exact h.startup_ok sound known hstartup
  | retire split left _ => exact h.retire sound split left
  | endThread c => exact h.still rfl rfl rfl rfl rfl (Nat.le_refl _)
  | meanwhile process ids _ _ => exact h.still rfl rfl rfl rfl rfl ids

end Faithful

theorem Step.stage (next : Step env k k') (faithful : k.Faithful) :
    Stage.Step env k.stage k'.stage := by
  cases next with
  | bringUp c begun => exact .bringUp c begun
  | takeDown c => exact .takeDown c
  | startup host c known => exact .startup host c known
  | retire split left ended =>
    -- The stage asks that the child is held, the chronicle that a handle has it left.
    refine .retire ?_ ended
    rw [faithful.mem_held split left]
    exact List.mem_append_right _ List.mem_cons_self
  | endThread c => exact .endThread c
  | meanwhile process ids own net => exact .meanwhile process ids own net

theorem Reachable.stage_and_faithful (h : Reachable env k) :
    Stage.Reachable env k.stage ∧ k.Faithful := by
  induction h with
  | start id config detected process unbound fresh =>
    refine ⟨.start id config detected process unbound fresh, ?_⟩
    constructor <;> simp [Stage.start]
  | step _ next ih =>
    obtain ⟨hstage, hfaithful⟩ := ih
    exact ⟨hstage.step (next.stage hfaithful), hfaithful.step hstage.sound next⟩

theorem Step.of_mem_built (next : Step env k k') {v : Vm} (hv : v ∈ k'.built) :
    v ∈ k.built ∨
    (∃ c global site, k.stage.site.bringUp c = (.ok global, site) ∧ v = global.vm) ∨
    ∃ c plan, k.stage.Plans plan ∧ v ∈ k.stage.site.built c plan := by
  cases next with
  | bringUp c _ =>
    refine (List.mem_append.1 hv).imp_right fun hv => Or.inl ⟨c, ?_⟩
    rcases hup : k.stage.site.bringUp c with ⟨e | global, site⟩
    · simp [hup, Except.toOption] at hv
    · simp only [hup, Except.toOption, Option.toList_some, List.map_cons, List.map_nil,
        List.mem_singleton] at hv
      exact ⟨global, site, rfl, hv⟩
  | startup host c known =>
    exact (List.mem_append.1 hv).imp_right fun hv => Or.inr ⟨c, _, known, hv⟩
  | takeDown | retire | endThread | meanwhile => exact Or.inl hv

/-- A VM that is made is a Global VM for the host, or a child that was launched for a part of a plan
for a VM there was, whether or not the startup went on. -/
theorem Step.origin (next : Step env k k') (sound : k.stage.Sound) (faithful : k.Faithful) {v : Vm}
    (hv : v ∈ k'.built) :
    v ∈ k.built ∨
    (∃ t world net, k.stage.site.registry.config.discover k.stage.site.registry.detected = .ok t ∧
      k.stage.site.registry.transport.init t.peCount k.stage.site.net = (.ok world, net) ∧
      v = .ofTopology k.stage.site.nextVm t world) ∨
    ∃ plan count before launched site child, plan.parent.vm ∈ k.built ∧
      SpawnPlan.build plan.parent count plan.policy = .ok plan ∧
      Site.launchSlots plan.parent.vm plan.policy [] before k.stage.site = (.ok launched, site) ∧
      child ∈ launched ∧ child.partition ∈ plan.partitions ∧ v = child.vm ∧
      v = .ofGroups v.id (some plan.parent.vm.id) (plan.parent.vm.depth + 1)
        (plan.policy.petGroups child.partition.pes) plan.policy.threadCompat v.communicator := by
  rcases next.of_mem_built hv with hold | ⟨c, global, site, hup, rfl⟩ | ⟨c, plan, known, hbuilt⟩
  · exact Or.inl hold
  · obtain ⟨_, t, world, net, hfound, hinit, rfl, _⟩ := Site.bringUp_eq_ok hup
    exact Or.inr (Or.inl ⟨t, world, net, hfound, hinit, rfl⟩)
  · have hp : k.stage.site.Admits c plan → plan.parent.vm.id < k.stage.site.nextVm :=
      sound.parent_lt
    rcases Site.built_of_startup sound.tidy hp .ample with
      hnone | ⟨hadmits, before, after, launched, s₁, hparts, hslots, hvms, _⟩
    · rw [hnone] at hbuilt
      cases hbuilt
    · rw [hvms] at hbuilt
      obtain ⟨child, hchild, rfl⟩ := List.mem_map.1 hbuilt
      obtain ⟨live, count, hplan⟩ := sound.live_of_admits known hadmits
      have hlaunched := Site.Launched.of_launchSlots (hp hadmits) hslots
      have hmem : child.partition ∈ plan.partitions := by
        have hbefore := Site.partitions_of_launchSlots hslots
        rw [List.map_nil, List.nil_append] at hbefore
        rw [hparts, ← hbefore]
        exact List.mem_append_left _ (List.mem_map_of_mem hchild)
      exact Or.inr (Or.inr ⟨plan, count, before, launched, s₁, child,
        faithful.built.subset (sound.mem_made_of_live live), hplan, hslots, hchild, hmem, rfl,
        hlaunched.built child hchild⟩)

theorem Step.built_prefix (next : Step env k k') : k.built <+: k'.built := by
  cases next with
  | bringUp => exact List.prefix_append ..
  | startup => exact List.prefix_append ..
  | takeDown | retire | endThread | meanwhile => exact List.prefix_refl _

theorem Reachable.stage (h : Reachable env k) : Stage.Reachable env k.stage :=
  h.stage_and_faithful.1

theorem Reachable.faithful (h : Reachable env k) : k.Faithful := h.stage_and_faithful.2

/-- What holds of every Global VM for the host, and of a child if it holds of the VM its plan is for,
holds of every VM that was ever made. -/
theorem Reachable.built_induction (h : Reachable env k) {P : Vm → Prop}
    (root : ∀ id t world,
      k.stage.site.registry.config.discover k.stage.site.registry.detected = .ok t →
      P (.ofTopology id t world))
    (child : ∀ (parent : VmHandle) count (plan : SpawnPlan) part id communicator, P parent.vm →
      SpawnPlan.build parent count plan.policy = .ok plan → part ∈ plan.partitions →
      P (.ofGroups id (some parent.vm.id) (parent.vm.depth + 1) (plan.policy.petGroups part.pes)
        plan.policy.threadCompat communicator)) :
    ∀ v ∈ k.built, P v := by
  induction h with
  | start => simp
  | @step k k' h next ih =>
    obtain ⟨_, hconfig, hdetected⟩ := ((next.stage h.faithful).change h.stage.sound).settings
    rw [hconfig, hdetected] at root
    intro v hv
    rcases next.origin h.stage.sound h.faithful hv with
      hold | ⟨t, world, net, hfound, _, rfl⟩ |
      ⟨plan, count, _, _, _, c, hparent, hplan, _, _, hpart, _, hform⟩
    · exact ih root v hold
    · exact root _ t world hfound
    · rw [hform]
      exact child plan.parent count plan c.partition _ _ (ih root _ hparent) hplan hpart

/-! ### A run -/

/-- A context launches children by a plan for the VM it runs in. -/
def spawn (c : ExecutionContext) (count : Nat) (policy : SpawnPolicy) (k : Chronicle σ) :
    Chronicle σ :=
  match k.stage.site.current c with
  | .ok h =>
    match SpawnPlan.build h count policy with
    | .ok plan => k.startup .ample c plan
    | .error _ => k
  | .error _ => k

/-- The oldest handle retires its next child. -/
def retireFirst (k : Chronicle σ) : Chronicle σ :=
  match k.handles with
  | [] => k
  | handle :: after =>
    match handle.left with
    | [] => k
    | child :: _ => k.retire child (handle.next :: after)

/-- A host of four cores with two children. -/
def halved (t : Transport σ) (net : σ) : Chronicle σ :=
  (bringUp .main { stage := .start t 1 {} 4 { net } }).spawn .main 2 .maxThreads

/-- The two PETs of the first child end, and it is retired. -/
def retireHalf (k : Chronicle σ) : Chronicle σ :=
  ((k.endThread (.pet 2 0)).endThread (.pet 2 1)).retireFirst

theorem reachable_spawn (h : Reachable env k) (c : ExecutionContext) (count : Nat)
    (policy : SpawnPolicy) : Reachable env (k.spawn c count policy) := by
  unfold spawn
  split
  · next handle hcurrent =>
    split
    · next plan hbuild =>
      have hmade := h.stage.sound.mem_made_of_live (h.stage.sound.live_of_current hcurrent)
      exact h.step (.startup _ c ⟨handle, count, policy, hbuild, Or.inl hmade⟩)
    · exact h
  · exact h

theorem reachable_retireFirst (h : Reachable env k)
    (ended : ∀ child ∈ (k.handles.flatMap Handle.left).head?, k.stage.Ended child) :
    Reachable env k.retireFirst := by
  unfold retireFirst
  split
  · exact h
  · next handle after hsplit =>
    split
    · exact h
    · next child rest hleft =>
      have hfirst : k.handles = [] ++ handle :: after := hsplit
      refine h.step (.retire hfirst hleft (ended child ?_))
      simp [hsplit, hleft]

theorem reachable_halved {net : σ} (fresh : env.fresh net) :
    Reachable env (halved env.transport net) := by
  have hstart := Reachable.start 1 {} 4 { net } rfl fresh
  exact reachable_spawn (hstart.step (.bringUp .main trivial)) _ _ _

theorem reachable_retireHalf (h : Reachable env k)
    (ended : ∀ child ∈ (k.handles.flatMap Handle.left).head?,
      ((k.stage.endThread (.pet 2 0)).endThread (.pet 2 1)).Ended child) :
    Reachable env k.retireHalf :=
  reachable_retireFirst ((h.step (.endThread (.pet 2 0))).step (.endThread (.pet 2 1))) ended

end Chronicle

end VirtualTopology
