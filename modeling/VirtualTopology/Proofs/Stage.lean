import VirtualTopology.Proofs.Starting
import VirtualTopology.Registry.Lifecycle

/-!
# Runs of a registry

A run takes a registry from stage to stage. What the threads of the process do to the registry is
done one operation after the other, in any order: it is brought up and taken down, children are
launched from any of its VMs, and the children of a handle that is joined or dropped are retired
one by one once their PETs have ended. In between, threads end, other registries of the process
make VMs and bind threads, and others may use the transport.

## Main definitions

- `Surroundings`: a transport, and what others may do to it.
- `Stage`: a registry in its process, the VMs it made, and the children that are held by someone.
- `Stage.Step`, `Stage.Reachable`: one step, and the stages that runs come to.

A VM is looked up by its id among those that were made (`Stage.made`), whether or not it is live.
-/

namespace VirtualTopology

/-- The VM whose PET runs in a context. -/
def ExecutionContext.child? : ExecutionContext → Option Nat
  | pet vm _ => some vm
  | _ => none

/-- The bindings for one registry. -/
def Bindings.ofRegistry (b : Bindings) (registry : Nat) : Bindings :=
  b.filter (·.registry = registry)

/-- A transport with the states it may be found in at first and the ways others may use it. -/
structure Surroundings (σ : Type) where
  transport : Transport σ
  fresh : σ → Prop
  meanwhile : σ → σ → Prop

/-- A registry in its process, with what came of its operations so far. -/
structure Stage (σ : Type) where
  site : Site σ
  /-- The VMs that were made, oldest first. -/
  made : List Vm := []
  /-- The children of handles that were neither joined nor dropped, oldest first. -/
  held : List LaunchedChild := []

namespace Stage

variable {σ : Type}

/-- A registry before its first operation. -/
def start (t : Transport σ) (id : Nat) (config : DiscoveryConfig) (detected : Nat)
    (process : Process σ) : Stage σ where
  site := { process with registry := { id, transport := t, config, detected } }

/-- The registry is brought up. -/
def bringUp (c : ExecutionContext) (s : Stage σ) : Stage σ :=
  match s.site.bringUp c with
  | (.ok global, site) => { s with site, made := s.made ++ [global.vm] }
  | (.error _, site) => { s with site }

/-- The registry is taken down. -/
def takeDown (c : ExecutionContext) (s : Stage σ) : Stage σ :=
  { s with site := (s.site.takeDown c).2 }

/-- The children of a plan are launched, and held by the one who launched them. -/
def startup (host : ThreadHost) (c : ExecutionContext) (plan : SpawnPlan) (s : Stage σ) :
    Stage σ :=
  match s.site.startup host c plan with
  | (.ok spawned, site) =>
    { site
      made := s.made ++ spawned.children.map LaunchedChild.vm
      held := s.held ++ spawned.children }
  | (.error _, site) => { s with site }

theorem site_bringUp (c : ExecutionContext) (s : Stage σ) :
    (s.bringUp c).site = (s.site.bringUp c).2 := by
  unfold bringUp
  split <;> next hup => simp [hup]

theorem site_startup (host : ThreadHost) (c : ExecutionContext) (plan : SpawnPlan) (s : Stage σ) :
    (s.startup host c plan).site = (s.site.startup host c plan).2 := by
  unfold startup
  split <;> next hstartup => simp [hstartup]

/-- A child is retired. -/
def retire (child : LaunchedChild) (s : Stage σ) : Stage σ :=
  { s with
    site := s.site.retire child.vm
    held := s.held.filter (·.vm.id != child.vm.id) }

/-- A thread ends, and its bindings with it. -/
def endThread (c : ExecutionContext) (s : Stage σ) : Stage σ :=
  { s with site := { s.site with bindings := s.site.bindings.forget c } }

/-- The process changes around the registry. -/
def within (process : Process σ) (s : Stage σ) : Stage σ :=
  { s with site := { process with registry := s.site.registry } }

/-- A plan for a VM of the process: one that was made here, or one that was made elsewhere and
has an id that no VM has here. -/
def Plans (s : Stage σ) (plan : SpawnPlan) : Prop :=
  ∃ h count policy, SpawnPlan.build h count policy = .ok plan ∧
    (h.vm ∈ s.made ∨ ∀ v ∈ s.made, v.id ≠ h.vm.id)

/-- No PET of a child is left in its context. -/
def Ended (s : Stage σ) (child : LaunchedChild) : Prop :=
  ∀ b ∈ s.site.bindings, b.registry = s.site.registry.id → b.context.child? ≠ some child.vm.id

instance (s : Stage σ) (child : LaunchedChild) : Decidable (s.Ended child) :=
  inferInstanceAs (Decidable (∀ b ∈ s.site.bindings, _ → _))

/-- A VM of the process as it is now: the Global VM or a child that is held. -/
def Live (s : Stage σ) (vm : Vm) : Prop :=
  (∃ g, s.site.registry.global = some g ∧ g.vm = vm) ∨ ∃ c ∈ s.held, c.vm = vm

/-- What may happen next. -/
inductive Step (env : Surroundings σ) : Stage σ → Stage σ → Prop
  | bringUp {s} (c : ExecutionContext) (begun : c.Begun s.site.nextVm) : Step env s (s.bringUp c)
  | takeDown {s} (c : ExecutionContext) : Step env s (s.takeDown c)
  | startup {s} (host : ThreadHost) (c : ExecutionContext) {plan} (known : s.Plans plan) :
      Step env s (s.startup host c plan)
  | retire {s child} (held : child ∈ s.held) (ended : s.Ended child) : Step env s (s.retire child)
  | endThread {s} (c : ExecutionContext) : Step env s (s.endThread c)
  /-- Something happens elsewhere in the process. -/
  | meanwhile {s} (process : Process σ) (ids : s.site.nextVm ≤ process.nextVm)
      (own : process.bindings.ofRegistry s.site.registry.id =
        s.site.bindings.ofRegistry s.site.registry.id)
      (net : env.meanwhile s.site.net process.net) : Step env s (s.within process)

/-- The stages that runs come to. -/
inductive Reachable (env : Surroundings σ) : Stage σ → Prop
  | start (id : Nat) (config : DiscoveryConfig) (detected : Nat) (process : Process σ)
      (unbound : process.bindings.ofRegistry id = []) (fresh : env.fresh process.net) :
      Reachable env (.start env.transport id config detected process)
  | step {s s'} (h : Reachable env s) (next : Step env s s') : Reachable env s'

/-- A handle that is joined or dropped has its children retired in slot order: so many steps. -/
theorem Reachable.retireAll {env : Surroundings σ} {children : List LaunchedChild} {s : Stage σ}
    (h : Reachable env s) (held : ∀ c ∈ children, c ∈ s.held)
    (ended : ∀ c ∈ children, s.Ended c) (distinct : (children.map (·.vm.id)).Nodup) :
    ∃ s', Reachable env s' ∧ s'.site = s.site.retireAll children ∧ s'.made = s.made ∧
      s'.held = s.held.filter (·.vm.id ∉ children.map (·.vm.id)) := by
  induction children generalizing s with
  | nil =>
    exact ⟨s, h, rfl, rfl, (List.filter_eq_self.2 fun c _ => by simp).symm⟩
  | cons child children ih =>
    obtain ⟨hchild, hdistinct⟩ := List.nodup_cons.1 distinct
    have hnext : Reachable env (s.retire child) :=
      h.step (.retire (held child List.mem_cons_self) (ended child List.mem_cons_self))
    have hheld : ∀ c ∈ children, c ∈ (s.retire child).held := by
      intro c hc
      have hne : c.vm.id ≠ child.vm.id := fun heq => hchild (List.mem_map.2 ⟨c, hc, heq⟩)
      exact List.mem_filter.2 ⟨held c (List.mem_cons_of_mem _ hc), by simpa using hne⟩
    have hended : ∀ c ∈ children, (s.retire child).Ended c := by
      intro c hc
      have hc := ended c (List.mem_cons_of_mem _ hc)
      have hsite : (s.site.retire child.vm).bindings = s.site.bindings ∧
          (s.site.retire child.vm).registry.id = s.site.registry.id := by
        unfold Site.retire
        split <;> exact ⟨rfl, rfl⟩
      simpa only [Ended, retire, hsite.1, hsite.2] using hc
    obtain ⟨s', hs', hsite, hmade, hrest⟩ := ih hnext hheld hended hdistinct
    refine ⟨s', hs', hsite, hmade, ?_⟩
    rw [hrest, retire, List.filter_filter]
    apply List.filter_congr
    intro c _
    rw [Bool.eq_iff_iff]
    simp [and_comm]

end Stage

end VirtualTopology
