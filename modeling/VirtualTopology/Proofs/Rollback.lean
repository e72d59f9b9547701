import VirtualTopology.Proofs.Soundness

/-!
# Startups that fail

A startup that fails leaves nothing behind but the ids it used up, one for each slot it tried, and
what its calls did to the transport. Every communicator that it was given goes back, once.

To speak of the calls, a transport is replaced by the same transport with every exchange written
down. A registry does not notice: it does the same over both.

## Main definitions

- `Exchange`, `Transport.recorded`, `Site.recorded`: calls with their answers, written down.
- `Exchange.Derived`, `Exchange.Returned`, `Exchange.Tally`: what was given and taken back.
- `Site.tried`: the number of slots a startup tries.

## Main statements

- `Site.startup_recorded`: a registry does the same over a transport that is recorded.
- `Stage.Reachable.startup_undone`: what is left of a startup that fails.
-/

namespace VirtualTopology

/-- A call to a transport with its answer. -/
inductive Exchange where
  | init (size : Nat) (answer : Except TransportError Communicator)
  | derive (parent : Communicator) (size : Nat) (answer : Except TransportError Communicator)
  | release (c : Communicator) (answer : Except TransportError Unit)
  | finalize (world : Communicator) (answer : Except TransportError Unit)

namespace Exchange

/-- The communicator that was derived. -/
def derived? : Exchange → Option Communicator
  | derive _ _ (.ok c) => some c
  | _ => none

/-- The communicator that was to be taken back. -/
def released? : Exchange → Option Communicator
  | release c _ => some c
  | _ => none

/-- Whether an exchange is about the communicator of a child. -/
def isOfChild : Exchange → Bool
  | derive .. | release .. => true
  | _ => false

/-- The calls are about communicators of children: these are derived, and those are taken back. -/
structure Tally (calls : List Exchange) (derived released : List Communicator) : Prop where
  ofChildren : ∀ x ∈ calls, x.isOfChild
  derived : calls.filterMap derived? = derived
  released : calls.filterMap released? = released

theorem Tally.nil : Tally [] [] [] := ⟨by simp, rfl, rfl⟩

theorem Tally.append {calls calls' : List Exchange} {d d' r r' : List Communicator}
    (h : Tally calls d r) (h' : Tally calls' d' r') :
    Tally (calls ++ calls') (d ++ d') (r ++ r') where
  ofChildren x hx := (List.mem_append.1 hx).elim (h.ofChildren x) (h'.ofChildren x)
  derived := by rw [List.filterMap_append, h.derived, h'.derived]
  released := by rw [List.filterMap_append, h.released, h'.released]

/-- Communicators were asked for below a parent, and these were given. -/
structure Derived (parent : Communicator) (calls : List Exchange) (given : List Communicator) :
    Prop where
  below : ∀ x ∈ calls, ∃ size answer, x = .derive parent size answer
  given : calls.filterMap derived? = given

/-- These communicators were to be taken back, in turn. -/
def Returned (calls : List Exchange) (cs : List Communicator) : Prop :=
  List.Forall₂ (fun x c => ∃ answer, x = .release c answer) calls cs

variable {parent : Communicator} {calls calls' : List Exchange} {cs cs' : List Communicator}

theorem Derived.nil : Derived parent [] [] := ⟨by simp, rfl⟩

theorem Derived.append (h : Derived parent calls cs) (h' : Derived parent calls' cs') :
    Derived parent (calls ++ calls') (cs ++ cs') where
  below x hx := (List.mem_append.1 hx).elim (h.below x) (h'.below x)
  given := by rw [List.filterMap_append, h.given, h'.given]

theorem Derived.tally (h : Derived parent calls cs) : Tally calls cs [] where
  ofChildren x hx := by
    obtain ⟨_, _, rfl⟩ := h.below x hx
    rfl
  derived := h.given
  released := by
    rw [List.filterMap_eq_nil_iff]
    intro x hx
    obtain ⟨_, _, rfl⟩ := h.below x hx
    rfl

theorem Returned.tally (h : Returned calls cs) : Tally calls [] cs := by
  induction h with
  | nil => exact .nil
  | @cons x c calls cs hx _ ih =>
    obtain ⟨answer, rfl⟩ := hx
    have hc : Tally [.release c answer] [] [c] := ⟨by simp [isOfChild], rfl, rfl⟩
    exact hc.append ih

end Exchange

/-- The same transport, with every exchange written down, the latest last. -/
def Transport.recorded {σ : Type} (t : Transport σ) : Transport (σ × List Exchange) where
  name := t.name
  init size s :=
    let (answer, net) := t.init size s.1
    (answer, net, s.2 ++ [.init size answer])
  derive parent size s :=
    let (answer, net) := t.derive parent size s.1
    (answer, net, s.2 ++ [.derive parent size answer])
  release c s :=
    let (answer, net) := t.release c s.1
    (answer, net, s.2 ++ [.release c answer])
  finalize world s :=
    let (answer, net) := t.finalize world s.1
    (answer, net, s.2 ++ [.finalize world answer])

open Exchange (Derived Returned Tally)

/-- What is taken back one by one is written down one by one. -/
theorem Transport.releaseAll_recorded {σ : Type} (t : Transport σ) (cs : List Communicator)
    (net : σ) (log : List Exchange) : ∃ calls, Returned calls cs ∧
      t.recorded.releaseAll cs (net, log) = (t.releaseAll cs net, log ++ calls) := by
  induction cs generalizing net log with
  | nil => exact ⟨[], .nil, by simp [releaseAll]⟩
  | cons c cs ih =>
    obtain ⟨calls, hcalls, hall⟩ :=
      ih (t.release c net).2 (log ++ [.release c (t.release c net).1])
    refine ⟨.release c (t.release c net).1 :: calls, .cons ⟨_, rfl⟩ hcalls, ?_⟩
    rw [List.append_assoc] at hall
    exact hall

namespace Site

variable {σ : Type} {s s' : Site σ} {parent : Vm} {policy : SpawnPolicy} {part : Partition}
  {parts before after : List Partition} {done children : List LaunchedChild}

/-- A registry in its process, over its transport recorded. -/
def recorded (log : List Exchange) (s : Site σ) : Site (σ × List Exchange) where
  nextVm := s.nextVm
  bindings := s.bindings
  entered := s.entered
  net := (s.net, log)
  registry := { s.registry with transport := s.registry.transport.recorded }

/-! ### Recording makes no difference -/

/-- The call that retiring a child makes: none if the child is not known. -/
def releaseCalls (vm : Vm) (s : Site σ) : List Exchange :=
  match s.registry.child? vm.id with
  | none => []
  | some _ => [.release vm.communicator (s.registry.transport.release vm.communicator s.net).1]

theorem retire_recorded (s : Site σ) (vm : Vm) (log : List Exchange) :
    (s.recorded log).retire vm = (s.retire vm).recorded (log ++ s.releaseCalls vm) := by
  have hchild : (s.recorded log).registry.child? vm.id = s.registry.child? vm.id := rfl
  unfold retire releaseCalls
  rw [hchild]
  cases s.registry.child? vm.id with
  | none => simp
  | some r => rfl

theorem retireAll_recorded (s : Site σ) (children : List LaunchedChild) (log : List Exchange) :
    ∃ log', (s.recorded log).retireAll children = (s.retireAll children).recorded log' := by
  induction children generalizing s log with
  | nil => exact ⟨log, rfl⟩
  | cons child children ih =>
    obtain ⟨log', hall⟩ := ih (s.retire child.vm) (log ++ s.releaseCalls child.vm)
    refine ⟨log', ?_⟩
    rw [← s.retire_recorded] at hall
    exact hall

theorem launchSlot_recorded (parent : Vm) (policy : SpawnPolicy) (part : Partition) (s : Site σ)
    (log : List Exchange) : ∃ log', launchSlot parent policy part (s.recorded log) =
      ((launchSlot parent policy part s).1, (launchSlot parent policy part s).2.recorded log') := by
  have howners : (s.recorded log).registry.owners.claim parent.id (s.recorded log).nextVm part.pes =
      s.registry.owners.claim parent.id s.nextVm part.pes := rfl
  have hderive : ∀ size, (s.recorded log).registry.transport.derive parent.communicator size
      (s.recorded log).net =
      ((s.registry.transport.derive parent.communicator size s.net).1,
        (s.registry.transport.derive parent.communicator size s.net).2,
        log ++ [.derive parent.communicator size
          (s.registry.transport.derive parent.communicator size s.net).1]) := fun _ => rfl
  unfold launchSlot
  dsimp only
  rw [howners, hderive]
  rcases s.registry.owners.claim parent.id s.nextVm part.pes with ⟨refusal | _, owners⟩
  · exact ⟨log, rfl⟩
  · rcases s.registry.transport.derive parent.communicator
      (policy.petGroups part.pes).length s.net with ⟨e | communicator, net⟩
    · exact ⟨_, rfl⟩
    · exact ⟨_, rfl⟩

theorem launchSlots_recorded (parent : Vm) (policy : SpawnPolicy) (done : List LaunchedChild)
    (parts : List Partition) (s : Site σ) (log : List Exchange) :
    ∃ log', launchSlots parent policy done parts (s.recorded log) =
      ((launchSlots parent policy done parts s).1,
        (launchSlots parent policy done parts s).2.recorded log') := by
  induction parts generalizing done s log with
  | nil => exact ⟨log, rfl⟩
  | cons part parts ih =>
    obtain ⟨log', hslot⟩ := launchSlot_recorded parent policy part s log
    rw [launchSlots, launchSlots, hslot]
    rcases launchSlot parent policy part s with ⟨fault | child, s₁⟩
    · obtain ⟨log'', hall⟩ := s₁.retireAll_recorded done log'
      exact ⟨log'', by rw [← hall]⟩
    · exact ih (done ++ [child]) s₁ log'

theorem startThreads_recorded (host : ThreadHost) (pets : List LaunchedPet) (s : Site σ)
    (log : List Exchange) : startThreads host pets (s.recorded log) =
      ((startThreads host pets s).1, (startThreads host pets s).2.recorded log) := by
  induction pets generalizing s with
  | nil => rfl
  | cons pet pets ih =>
    rw [startThreads, startThreads]
    cases host pet.handle.context with
    | some reason => rfl
    | none =>
      exact ih { s with
        bindings :=
          s.bindings.bind pet.handle.context s.registry.id s.registry.generation pet.handle }

/-- A registry does the same over its transport recorded. -/
theorem startup_recorded (host : ThreadHost) (c : ExecutionContext) (plan : SpawnPlan)
    (s : Site σ) (log : List Exchange) : ∃ log', startup host c plan (s.recorded log) =
      ((startup host c plan s).1, (startup host c plan s).2.recorded log') := by
  have hcurrent : (s.recorded log).current c = s.current c := rfl
  -- Nothing that decides where a startup goes is in the log, so both take the same branches.
  unfold startup
  rw [hcurrent]
  cases s.current c with
  | error e => exact ⟨log, rfl⟩
  | ok caller =>
    dsimp only
    split
    · split
      · exact ⟨log, rfl⟩
      · obtain ⟨log', hslots⟩ :=
          launchSlots_recorded plan.parent.vm plan.policy [] plan.partitions s log
        rw [hslots]
        rcases launchSlots plan.parent.vm plan.policy [] plan.partitions s with ⟨e | children, s₁⟩
        · exact ⟨log', rfl⟩
        · dsimp only
          rw [startThreads_recorded]
          rcases startThreads host (children.flatMap LaunchedChild.pets) s₁ with ⟨e | _, s₂⟩
          · obtain ⟨log'', hall⟩ :=
              (s₂.shutGate (children.flatMap LaunchedChild.pets)).retireAll_recorded children log'
            exact ⟨log'', by rw [← hall]; rfl⟩
          · exact ⟨log', rfl⟩
    · exact ⟨log, rfl⟩

/-! ### What is written down -/

/-- A slot that is launched is one communicator more. -/
theorem derived_of_launchSlots {t : Transport σ} {s s' : Site (σ × List Exchange)}
    (ht : s.registry.transport = t.recorded)
    (h : launchSlots parent policy [] parts s = (.ok children, s')) :
    s'.registry.transport = t.recorded ∧ ∃ calls,
      Derived parent.communicator calls (children.map LaunchedChild.communicator) ∧
      s'.net.2 = s.net.2 ++ calls := by
  refine launchSlots_induction
    (P := fun done s₁ => s₁.registry.transport = t.recorded ∧ ∃ calls,
      Derived parent.communicator calls (done.map LaunchedChild.communicator) ∧
      s₁.net.2 = s.net.2 ++ calls) ?_ h ⟨ht, [], .nil, by simp⟩
  rintro done s₁ part child s₂ _ ⟨ht₁, calls, hcalls, hlog⟩ hslot
  obtain ⟨owners, communicator, net, _, hderive, rfl, rfl⟩ := launchSlot_eq_ok hslot
  rw [ht₁] at hderive
  obtain ⟨hanswer, hnet⟩ := Prod.mk.inj hderive
  have hcall : net.2 = s₁.net.2 ++
      [.derive parent.communicator (policy.petGroups part.pes).length (.ok communicator)] := by
    rw [← hnet, ← hanswer]
  refine ⟨ht₁, calls ++
    [.derive parent.communicator (policy.petGroups part.pes).length (.ok communicator)], ?_, ?_⟩
  · rw [List.map_append]
    exact hcalls.append ⟨by simp, rfl⟩
  · rw [hcall, hlog, List.append_assoc]

/-- A slot that is not launched is no communicator more. -/
theorem derived_of_launchSlot_eq_error {t : Transport σ} {s s' : Site (σ × List Exchange)}
    {fault : LaunchFault} (ht : s.registry.transport = t.recorded)
    (h : launchSlot parent policy part s = (.error fault, s')) :
    ∃ calls, Derived parent.communicator calls [] ∧ s'.net.2 = s.net.2 ++ calls := by
  rcases launchSlot_eq_error h with
    ⟨refusal, owners, _, _, rfl⟩ | ⟨owners, e, net, _, hderive, _, rfl⟩
  · exact ⟨[], .nil, by simp⟩
  · rw [ht] at hderive
    obtain ⟨hanswer, rfl⟩ := Prod.mk.inj hderive
    refine ⟨_, ⟨?_, by rw [hanswer]; rfl⟩, rfl⟩
    intro x hx
    exact ⟨_, _, List.mem_singleton.1 hx⟩

/-! ### The slots that are tried -/

/-- The number of slots up to the first that is not launched. -/
def triedSlots (parent : Vm) (policy : SpawnPolicy) : List Partition → Site σ → Nat
  | [], _ => 0
  | part :: parts, s =>
    match launchSlot parent policy part s with
    | (.error _, _) => 1
    | (.ok _, s) => triedSlots parent policy parts s + 1

/-- The number of slots that a startup tries: none if the caller may not launch the plan. -/
def tried (c : ExecutionContext) (plan : SpawnPlan) (s : Site σ) : Nat :=
  match s.current c with
  | .error _ => 0
  | .ok caller =>
    if caller.sameVm plan.parent ∧ plan.parent.vm.depth < Limits.maxSpawnDepth then
      triedSlots plan.parent.vm plan.policy plan.partitions s
    else 0

theorem triedSlots_of_ok (h : launchSlots parent policy done parts s = (.ok children, s')) :
    triedSlots parent policy parts s = parts.length := by
  induction parts generalizing done s with
  | nil => rfl
  | cons part parts ih =>
    rw [launchSlots] at h
    rw [triedSlots]
    rcases hslot : launchSlot parent policy part s with ⟨fault | child, s₁⟩
    · rw [hslot] at h
      cases (Prod.mk.inj h).1
    · rw [hslot] at h
      exact congrArg (· + 1) (ih h)

theorem triedSlots_of_error {fault : LaunchFault} {s₁ s₂ : Site σ}
    (h : launchSlots parent policy done before s = (.ok children, s₁))
    (hfault : launchSlot parent policy part s₁ = (.error fault, s₂)) :
    triedSlots parent policy (before ++ part :: after) s = before.length + 1 := by
  induction before generalizing done s with
  | nil =>
    obtain ⟨_, rfl⟩ := Prod.mk.inj h
    rw [List.nil_append, triedSlots, hfault]
    rfl
  | cons first before ih =>
    rw [launchSlots] at h
    rw [List.cons_append, triedSlots]
    rcases hslot : launchSlot parent policy first s with ⟨refused | child, s'⟩
    · rw [hslot] at h
      cases (Prod.mk.inj h).1
    · rw [hslot] at h
      exact congrArg (· + 1) (ih h)

theorem tried_of_admits {c : ExecutionContext} {plan : SpawnPlan} (h : s.Admits c plan) :
    s.tried c plan = triedSlots plan.parent.vm plan.policy plan.partitions s := by
  obtain ⟨caller, hcurrent, hsame, hdepth⟩ := h
  rw [tried, hcurrent]
  exact if_pos ⟨hsame, hdepth⟩

theorem tried_of_not_admits {c : ExecutionContext} {plan : SpawnPlan} (h : ¬ s.Admits c plan) :
    s.tried c plan = 0 := by
  unfold tried
  split
  · rfl
  · next caller hcurrent => exact if_neg fun hadmits => h ⟨caller, hcurrent, hadmits⟩

/-! ### A startup that fails -/

/-- A startup that fails uses up ids for the slots it tried. -/
theorem eq_of_startup_eq_error {host : ThreadHost} {c : ExecutionContext} {plan : SpawnPlan}
    {e : VmError} (hs : s.Tidy) (hp : s.Admits c plan → plan.parent.vm.id < s.nextVm)
    (h : s.startup host c plan = (.error e, s')) :
    s' = { s with nextVm := s.nextVm + s.tried c plan, net := s'.net } := by
  rcases startup_eq_error hs hp h with
    ⟨hadmits, rfl⟩ |
    ⟨hadmits, before, part, after, launched, s₁, fault, net, hparts, hbefore, hslot, _, rfl⟩ |
    ⟨hadmits, children, s₁, pet, reason, hslots, _, _, rfl⟩
  · rw [tried_of_not_admits hadmits]
    rfl
  · rw [tried_of_admits hadmits, hparts, triedSlots_of_error hbefore hslot]
    rfl
  · rw [tried_of_admits hadmits, triedSlots_of_ok hslots]

/-- A startup that fails asks below its parent, unless it does not come that far, and gives back
what it was given, in order. -/
theorem calls_of_startup_eq_error {t : Transport σ} {s s' : Site (σ × List Exchange)}
    {host : ThreadHost} {c : ExecutionContext} {plan : SpawnPlan} {e : VmError} (hs : s.Tidy)
    (hp : s.Admits c plan → plan.parent.vm.id < s.nextVm) (ht : s.registry.transport = t.recorded)
    (h : s.startup host c plan = (.error e, s')) :
    s' = s ∨ s.Admits c plan ∧ ∃ calls back cs, Derived plan.parent.vm.communicator calls cs ∧
      Returned back cs ∧ s'.net.2 = s.net.2 ++ (calls ++ back) := by
  rcases startup_eq_error hs hp h with
    ⟨_, rfl⟩ |
    ⟨hadmits, before, part, after, launched, s₁, fault, net, _, hbefore, hslot, _, rfl⟩ |
    ⟨hadmits, children, s₁, pet, reason, hslots, _, _, rfl⟩
  · exact Or.inl rfl
  -- The slots before the failing one were given communicators; rollback returns them in order.
  · obtain ⟨ht₁, calls, hcalls, hlog⟩ := derived_of_launchSlots ht hbefore
    obtain ⟨calls', hcalls', hlog'⟩ := derived_of_launchSlot_eq_error ht₁ hslot
    obtain ⟨back, hback, hall⟩ :=
      t.releaseAll_recorded (launched.map LaunchedChild.communicator) net.1 net.2
    have hnone := hcalls.append hcalls'
    rw [List.append_nil] at hnone
    refine Or.inr ⟨hadmits, calls ++ calls', back, _, hnone, hback, ?_⟩
    rw [ht]
    have hnet : net.2 = s.net.2 ++ (calls ++ calls') := by
      rw [← List.append_assoc, ← hlog]
      exact hlog'
    show (t.recorded.releaseAll _ (net.1, net.2)).2 = _
    rw [hall, hnet, List.append_assoc _ _ back]
  · obtain ⟨_, calls, hcalls, hlog⟩ := derived_of_launchSlots ht hslots
    obtain ⟨back, hback, hall⟩ :=
      t.releaseAll_recorded (children.map LaunchedChild.communicator) s₁.net.1 s₁.net.2
    refine Or.inr ⟨hadmits, calls, back, _, hcalls, hback, ?_⟩
    rw [ht]
    show (t.recorded.releaseAll _ (s₁.net.1, s₁.net.2)).2 = _
    rw [hall, hlog, List.append_assoc]

/-- What a startup that fails was given, it gave back. -/
theorem tally_of_startup_eq_error {t : Transport σ} {s s' : Site (σ × List Exchange)}
    {host : ThreadHost} {c : ExecutionContext} {plan : SpawnPlan} {e : VmError} (hs : s.Tidy)
    (hp : s.Admits c plan → plan.parent.vm.id < s.nextVm) (ht : s.registry.transport = t.recorded)
    (h : s.startup host c plan = (.error e, s')) :
    ∃ calls cs, Tally calls cs cs ∧ s'.net.2 = s.net.2 ++ calls := by
  rcases calls_of_startup_eq_error hs hp ht h with
    rfl | ⟨_, calls, back, cs, hcalls, hback, hlog⟩
  · exact ⟨[], [], .nil, by simp⟩
  · exact ⟨calls ++ back, cs, by simpa using hcalls.tally.append hback.tally, hlog⟩

end Site

namespace Stage

variable {σ : Type} {env : Surroundings σ} {s : Stage σ} {host : ThreadHost}
  {c : ExecutionContext} {plan : SpawnPlan} {e : VmError}

/-- A startup that fails leaves the registry, all bindings and the PETs that were let into their
entries as they were. It uses up one id for each slot it tried, and it makes no calls but to derive
communicators and to give back, once each, those it was given. -/
theorem Reachable.startup_undone (h : Reachable env s)
    (failed : (s.site.startup host c plan).1 = .error e) :
    (s.site.startup host c plan).2 =
      { s.site with
        nextVm := s.site.nextVm + s.site.tried c plan
        net := (s.site.startup host c plan).2.net } ∧
    ∃ calls cs, Tally calls cs cs ∧ (s.site.recorded []).startup host c plan =
      (.error e, (s.site.startup host c plan).2.recorded calls) := by
  have hp : s.site.Admits c plan → plan.parent.vm.id < s.site.nextVm := h.sound.parent_lt
  have hstartup : s.site.startup host c plan = (.error e, (s.site.startup host c plan).2) :=
    Prod.ext failed rfl
  refine ⟨Site.eq_of_startup_eq_error h.sound.tidy hp hstartup, ?_⟩
  obtain ⟨log, hrecorded⟩ := Site.startup_recorded host c plan s.site []
  rw [failed] at hrecorded
  have htidy : (s.site.recorded []).Tidy :=
    ⟨h.sound.tidy.records, h.sound.tidy.keys, h.sound.tidy.contexts⟩
  obtain ⟨calls, cs, htally, hlog⟩ := Site.tally_of_startup_eq_error htidy hp rfl hrecorded
  obtain rfl : log = calls := hlog
  exact ⟨log, cs, htally, hrecorded⟩

/-- The Global VM is up over a transport that has one more communicator to give. -/
def scarce : Stage Nat := (start (.limited 2) 1 {} 4 { net := 0 }).bringUp .main

/-- The transport refuses the second child; what the first was given goes back. -/
theorem startup_undone_halves :
    (scarce.site.startup .ample .main (halves ⟨0, 4, 0⟩)).1 =
      .error (.launch 1 "transport: Transport unavailable: none left") ∧
    (scarce.site.startup .ample .main (halves ⟨0, 4, 0⟩)).2 =
      { scarce.site with
        nextVm := 4
        net := (scarce.site.startup .ample .main (halves ⟨0, 4, 0⟩)).2.net } ∧
    ∃ calls cs, Tally calls cs cs ∧
      (scarce.site.recorded []).startup .ample .main (halves ⟨0, 4, 0⟩) =
      (.error (.launch 1 "transport: Transport unavailable: none left"),
        (scarce.site.startup .ample .main (halves ⟨0, 4, 0⟩)).2.recorded calls) := by
  have hreachable : Reachable (.limited 2) scarce :=
    (Reachable.start 1 {} 4 { net := 0 } rfl rfl).step (.bringUp .main trivial)
  have hfailed : (scarce.site.startup .ample .main (halves ⟨0, 4, 0⟩)).1 =
      .error (.launch 1 "transport: Transport unavailable: none left") := by rfl
  exact ⟨hfailed, Reachable.startup_undone hreachable hfailed⟩

end Stage

end VirtualTopology
