import VirtualTopology.Proofs.Lifecycle

/-!
# The current VM over whole runs

Which VM a context runs in is told in two ways. The process keeps bindings, which are hidden, left
behind and taken away as registries come and go; what is remembered of the run says who brought a
registry up last and which PETs were let into their entries since. At every campus the two agree.

## Main definitions

- `ExecutionContext.Called`: what a thread is called.
- `Event.opener?`: the context that the present bring-up was made from.
- `Event.running`: the PETs of the present bring-up that have not ended.
- `Stage.Remembered`: the bindings are as these say.

## Main statements

- `Stage.Remembered.deed`: an operation keeps it so.
- `Campus.Reachable.current_iff`: the current VM of every context.
-/

namespace VirtualTopology

/-! ### What threads are called -/

/-- What a thread is called: the main thread and those that were started with a name by their names, a
PET's by its VM and its number, and any other by its own number. -/
inductive ExecutionContext.Called : ExecutionContext → String → Prop
  | main : Called .main "main"
  | pet (vm number : Nat) :
      Called (.pet vm number) ("petvm-" ++ toString vm ++ "-pet" ++ toString number)
  | named (number : Nat) (name : String) : Called (.thread number (some name)) name
  | unnamed (number : Nat) :
      Called (.thread number none) ("ThreadId(" ++ toString number ++ ")")

theorem ExecutionContext.called_label : ∀ c : ExecutionContext, c.Called c.label
  | .main => .main
  | .pet vm number => .pet vm number
  | .thread number (some name) => .named number name
  | .thread number none => .unnamed number

/-! ### What the run says -/

namespace Event

/-- The context that the present bring-up of a registry was made from, with the Global VM; none if
its thread has ended. -/
def opener? (registry : Nat) : List Event → Option (ExecutionContext × VmHandle)
  | [] => none
  | .up r c v :: earlier => if r = registry then some (c, v) else opener? registry earlier
  | .down r :: earlier => if r = registry then none else opener? registry earlier
  | .launch _ _ :: earlier => opener? registry earlier
  | .ended c :: earlier => (opener? registry earlier).filter (·.1 ≠ c)

/-- The PETs of the present bring-up of a registry whose threads have not ended. -/
def running (registry : Nat) : List Event → List VmHandle
  | [] => []
  | .up r _ _ :: earlier => if r = registry then [] else running registry earlier
  | .down r :: earlier => if r = registry then [] else running registry earlier
  | .launch r children :: earlier =>
    if r = registry then
      running registry earlier ++ (children.flatMap LaunchedChild.pets).map LaunchedPet.handle
    else running registry earlier
  | .ended c :: earlier => (running registry earlier).filter (·.context ≠ c)

variable {registry : Nat} {news history : List Event}

/-- What passes over one event on another registry passes over any number of them. -/
theorem append_of_skips {α : Type} (read : List Event → α)
    (skips : ∀ e earlier, ∀ r ≠ registry, e.registry? = some r → read (e :: earlier) = read earlier)
    (h : ∀ e ∈ news, ∃ r ≠ registry, e.registry? = some r) :
    read (news ++ history) = read history := by
  induction news with
  | nil => rfl
  | cons e news ih =>
    obtain ⟨r, hne, hr⟩ := h e List.mem_cons_self
    rw [List.cons_append, skips e _ r hne hr]
    exact ih fun e he => h e (List.mem_cons_of_mem _ he)

/-- What happens on other registries is nothing to a registry. -/
theorem opener?_append (h : ∀ e ∈ news, ∃ r ≠ registry, e.registry? = some r) :
    opener? registry (news ++ history) = opener? registry history := by
  refine append_of_skips (opener? registry) (fun e earlier r hne hr => ?_) h
  cases e with
  | ended c => cases hr
  | up | down =>
    obtain rfl := Option.some.inj hr
    rw [opener?, if_neg hne]
  | launch => rfl

theorem running_append (h : ∀ e ∈ news, ∃ r ≠ registry, e.registry? = some r) :
    running registry (news ++ history) = running registry history := by
  refine append_of_skips (running registry) (fun e earlier r hne hr => ?_) h
  cases e with
  | ended c => cases hr
  | up | down | launch =>
    obtain rfl := Option.some.inj hr
    rw [running, if_neg hne]

end Event

/-! ### What the bindings say -/

namespace Bindings

variable {b b' : Bindings} {c c' : ExecutionContext} {registry generation : Nat} {v : VmHandle}

/-- Bindings for other contexts and registries do not matter. -/
theorem current?_filter {p : Binding → Bool}
    (h : ∀ x : Binding, x.context = c → x.registry = registry → p x) :
    Bindings.current? (b.filter p) c registry generation = b.current? c registry generation := by
  have hfind : Bindings.find (b.filter p) c registry = b.find c registry := by
    rw [find, find, List.find?_filter]
    congr 1
    funext x
    by_cases hcontext : x.context = c
    · by_cases hregistry : x.registry = registry
      · simp [h x hcontext hregistry]
      · simp [hregistry]
    · simp [hcontext]
  rw [current?, current?, hfind]

theorem current?_ofRegistry : (b.ofRegistry registry).current? c registry generation =
    b.current? c registry generation :=
  current?_filter fun _ _ hregistry => decide_eq_true hregistry

theorem current?_forget_of_ne (hne : c' ≠ c) :
    (b.forget c).current? c' registry generation = b.current? c' registry generation :=
  current?_filter fun _ hcontext _ => by simp [hcontext, hne]

/-- What was bound later decides, if it binds the context. -/
theorem current?_append : Bindings.current? (b ++ b') c registry generation =
    if (b.find c registry).isSome then b.current? c registry generation
    else b'.current? c registry generation := by
  have hfind : Bindings.find (b ++ b') c registry = (b.find c registry).or (b'.find c registry) :=
    List.find?_append
  rw [current?, current?, current?, hfind]
  cases b.find c registry <;> rfl

end Bindings

namespace Site

variable {σ : Type} {s : Site σ} {c : ExecutionContext} {v : VmHandle}

theorem current_of_down (h : ¬ s.registry.global.isSome) :
    s.current c = .error .notInitialized := by
  have hdown : ¬ s.registry.isUp := h
  rw [current, if_neg hdown]

theorem current_eq_ok_iff (h : s.registry.global.isSome) : s.current c = .ok v ↔
    s.bindings.current? c s.registry.id s.registry.generation = some v := by
  have hup : s.registry.isUp := h
  rw [current, if_pos hup]
  cases s.bindings.current? c s.registry.id s.registry.generation <;> simp

theorem current_eq_noContext_iff (h : s.registry.global.isSome) :
    s.current c = .error (.noContext c.label) ↔ ∀ v, s.current c ≠ .ok v := by
  have hup : s.registry.isUp := h
  rw [current, if_pos hup]
  cases s.bindings.current? c s.registry.id s.registry.generation <;> simp

end Site

namespace Site.Launched

variable {σ : Type} {base after : Site σ} {parent : Vm} {policy : SpawnPolicy}
  {children : List LaunchedChild} {c : ExecutionContext} {v : VmHandle}

/-- The handles of the PETs of a launch, each in a context of its own. -/
theorem exists_of_mem_handles
    (hv : v ∈ (children.flatMap LaunchedChild.pets).map LaunchedPet.handle) :
    ∃ child ∈ children, child.vm = v.vm ∧ v.localPet < child.vm.petCount := by
  obtain ⟨pet, hpet, rfl⟩ := List.mem_map.1 hv
  obtain ⟨child, hchild, hpet⟩ := List.mem_flatMap.1 hpet
  obtain ⟨n, hn, rfl⟩ := List.mem_map.1 hpet
  exact ⟨child, hchild, rfl, List.mem_range.1 hn⟩

theorem eq_of_context (h : Launched parent policy base children after) {w : VmHandle}
    (hv : v ∈ (children.flatMap LaunchedChild.pets).map LaunchedPet.handle)
    (hw : w ∈ (children.flatMap LaunchedChild.pets).map LaunchedPet.handle)
    (heq : v.context = w.context) : v = w := by
  obtain ⟨child, hchild, hvm, _⟩ := exists_of_mem_handles hv
  obtain ⟨child', hchild', hvm', _⟩ := exists_of_mem_handles hw
  obtain ⟨hid, hpet⟩ := ExecutionContext.pet.inj heq
  have hsame : child = child' := by
    apply List.inj_on_of_nodup_map h.distinct hchild hchild'
    rw [hvm, hvm', hid]
  cases v
  cases w
  simp only at hvm hvm' hpet
  rw [← hvm, ← hvm', hsame, hpet]

/-- The PETs of a launch run in their own contexts. -/
theorem current?_bound_of_mem (h : Launched parent policy base children after) (b : Bindings)
    (hv : v ∈ (children.flatMap LaunchedChild.pets).map LaunchedPet.handle) :
    Bindings.current? (base.bound (children.flatMap LaunchedChild.pets) ++ b) v.context
      base.registry.id base.registry.generation = some v := by
  obtain ⟨pet, hpet, hpv⟩ := List.mem_map.1 hv
  have hsome : (Bindings.find (base.bound (children.flatMap LaunchedChild.pets)) v.context
      base.registry.id).isSome := by
    rw [Bindings.find, List.find?_isSome]
    refine ⟨_, List.mem_reverse.2 (List.mem_map_of_mem hpet), ?_⟩
    simp [LaunchedPet.binding, hpv]
  obtain ⟨x, hx⟩ := Option.isSome_iff_exists.1 hsome
  -- Whichever binding is found, it is of the same context, and so of the same PET.
  obtain ⟨hmem, hcontext, _⟩ := Bindings.mem_of_find hx
  obtain ⟨pet', hpet', rfl⟩ := List.mem_map.1 (List.mem_reverse.1 hmem)
  have hsame : pet'.handle = v := h.eq_of_context (List.mem_map_of_mem hpet') hv hcontext
  rw [Bindings.current?_append, if_pos hsome, Bindings.current?, hx, ← hsame]
  simp [LaunchedPet.binding, Option.filter]

/-- The launch is nothing to other contexts. -/
theorem current?_bound_of_ne (b : Bindings)
    (hc : ∀ v ∈ (children.flatMap LaunchedChild.pets).map LaunchedPet.handle, v.context ≠ c) :
    Bindings.current? (base.bound (children.flatMap LaunchedChild.pets) ++ b) c
      base.registry.id base.registry.generation =
      b.current? c base.registry.id base.registry.generation := by
  rw [Bindings.current?_append, if_neg]
  intro hsome
  obtain ⟨x, hx⟩ := Option.isSome_iff_exists.1 hsome
  obtain ⟨hmem, hcontext, _⟩ := Bindings.mem_of_find hx
  obtain ⟨pet, hpet, rfl⟩ := List.mem_map.1 (List.mem_reverse.1 hmem)
  exact hc _ (List.mem_map_of_mem hpet) hcontext

theorem context_ne_of_begun (h : Launched parent policy base children after)
    (hc : c.Begun base.nextVm) :
    ∀ v ∈ (children.flatMap LaunchedChild.pets).map LaunchedPet.handle, v.context ≠ c := by
  rintro v hv rfl
  obtain ⟨pet, hpet, rfl⟩ := List.mem_map.1 hv
  obtain ⟨_, _, _, _, _, hbegun⟩ := h.pet_context hpet
  exact hbegun hc

end Site.Launched

/-! ### Both say the same -/

namespace Stage

variable {σ : Type} {s s' : Stage σ} {history news : List Event} {g : VmHandle}

/-- While the Global VM `g` is up, the contexts that are bound are the one that the bring-up was
made from and those of the PETs that run. -/
structure Remembered (history : List Event) (g : VmHandle) (s : Stage σ) : Prop where
  opener : ∀ c v, Event.opener? s.site.registry.id history = some (c, v) → v = g ∧
    s.site.bindings.current? c s.site.registry.id s.site.registry.generation = some v
  running : ∀ v ∈ Event.running s.site.registry.id history,
    s.site.bindings.current? v.context s.site.registry.id s.site.registry.generation = some v ∧
      ∃ child ∈ s.held, child.vm = v.vm ∧ v.localPet < child.vm.petCount
  current : ∀ c v,
    s.site.bindings.current? c s.site.registry.id s.site.registry.generation = some v →
      Event.opener? s.site.registry.id history = some (c, v) ∨
        v ∈ Event.running s.site.registry.id history ∧ v.context = c
  first : g.localPet = 0

namespace Remembered

theorem begun_of_current? (sound : s.Sound) {c : ExecutionContext} {v : VmHandle}
    (h : s.site.bindings.current? c s.site.registry.id s.site.registry.generation = some v) :
    c.Begun s.site.nextVm := by
  obtain ⟨x, hx, rfl, hregistry, _⟩ := Bindings.exists_of_current? h
  exact sound.tidy.contexts x hx hregistry

/-- A bring-up makes all bindings stale but its own. -/
theorem raised (sound : s.Sound) (history : List Event) (c : ExecutionContext) (t : Topology)
    (world : Communicator) (net : σ) :
    (s.raised c t world net).Remembered
      (.up s.site.registry.id c ⟨.ofTopology s.site.nextVm t world, 0⟩ :: history)
      ⟨.ofTopology s.site.nextVm t world, 0⟩ where
  opener c' v h := by
    simp only [Stage.raised, Event.opener?, if_true, Option.some.injEq, Prod.mk.injEq] at h
    obtain ⟨rfl, rfl⟩ := h
    refine ⟨rfl, ?_⟩
    show (s.site.bindings.bind c s.site.registry.id (s.site.registry.generation + 1) _).current?
      c s.site.registry.id (s.site.registry.generation + 1) = _
    rw [Bindings.current?_bind]
    simp
  running v hv := by
    simp [Stage.raised, Event.running] at hv
  current c' v h := by
    change (s.site.bindings.bind c s.site.registry.id (s.site.registry.generation + 1) _).current?
      c' s.site.registry.id (s.site.registry.generation + 1) = some v at h
    rw [Bindings.current?_bind] at h
    by_cases hc : c = c'
    · simp only [hc, and_self, if_true, Option.some.injEq] at h
      simp [Stage.raised, Event.opener?, hc, h]
    · rw [if_neg fun hkey => hc hkey.1] at h
      obtain ⟨x, hx, _, hregistry, hgeneration, _⟩ := Bindings.exists_of_current? h
      have hle := (sound.bound x hx hregistry).1
      omega
  first := rfl

/-- PETs that are let into their entries are bound, and nothing changes for the others. -/
theorem launched (h : s.Remembered history g) (sound : s.Sound) {parent : Vm}
    {policy : SpawnPolicy} {children : List LaunchedChild} {after : Site σ}
    (hlaunched : s.site.Launched parent policy children after)
    (entered : List ExecutionContext) :
    (s.launched parent children after entered).Remembered
      (.launch s.site.registry.id children :: history) g := by
  have hold : ∀ c v,
      s.site.bindings.current? c s.site.registry.id s.site.registry.generation = some v →
      Bindings.current? (s.site.bound (children.flatMap LaunchedChild.pets) ++ s.site.bindings) c
        s.site.registry.id s.site.registry.generation = some v := by
    intro c v hv
    have hbegun := hlaunched.context_ne_of_begun (begun_of_current? sound hv)
    exact (Site.Launched.current?_bound_of_ne _ hbegun).trans hv
  refine { opener := ?_, running := ?_, current := ?_, first := h.first }
  · intro c v hv
    obtain ⟨rfl, hcurrent⟩ := h.opener c v hv
    exact ⟨rfl, hold c v hcurrent⟩
  · intro v hv
    simp only [Stage.launched, Event.running, if_true, List.mem_append] at hv
    rcases hv with hv | hv
    · obtain ⟨hcurrent, child, hchild, hrest⟩ := h.running v hv
      exact ⟨hold _ v hcurrent, child, List.mem_append_left _ hchild, hrest⟩
    · obtain ⟨child, hchild, hrest⟩ := Site.Launched.exists_of_mem_handles hv
      exact ⟨hlaunched.current?_bound_of_mem _ hv, child, List.mem_append_right _ hchild, hrest⟩
  · intro c v hv
    simp only [Stage.launched, Event.opener?, Event.running, if_true, List.mem_append]
    by_cases hnew : ∃ w ∈ (children.flatMap LaunchedChild.pets).map LaunchedPet.handle,
        w.context = c
    · obtain ⟨w, hw, rfl⟩ := hnew
      obtain rfl := Option.some.inj ((hlaunched.current?_bound_of_mem _ hw).symm.trans hv)
      exact Or.inr ⟨Or.inr hw, rfl⟩
    · have hne : ∀ w ∈ (children.flatMap LaunchedChild.pets).map LaunchedPet.handle,
          w.context ≠ c := fun w hw hc => hnew ⟨w, hw, hc⟩
      rcases h.current c v ((Site.Launched.current?_bound_of_ne _ hne).symm.trans hv) with
        hopener | ⟨hrunning, hc⟩
      · exact Or.inl hopener
      · exact Or.inr ⟨Or.inl hrunning, hc⟩

/-- A child that is retired has no PET left that runs. -/
theorem retired (h : s.Remembered history g) {child : LaunchedChild} {r : ChildRecord} (net : σ)
    (of : r.vm = child.vm.id) (ended : s.Ended child) : (s.retired r net).Remembered history g where
  opener := h.opener
  running v hv := by
    obtain ⟨hcurrent, child', hchild', hvm, hpet⟩ := h.running v hv
    refine ⟨hcurrent, child', List.mem_filter.2 ⟨hchild', ?_⟩, hvm, hpet⟩
    obtain ⟨x, hx, hcontext, hregistry, _⟩ := Bindings.exists_of_current? hcurrent
    have hne : child'.vm.id ≠ r.vm := by
      rw [hvm, of]
      intro heq
      apply ended x hx hregistry
      rw [hcontext, ← heq]
      rfl
    simpa using hne
  current := h.current
  first := h.first

/-- A thread that ends is nothing to the others. -/
theorem endThread (h : s.Remembered history g) (c : ExecutionContext) :
    (s.endThread c).Remembered (.ended c :: history) g where
  opener c' v hv := by
    obtain ⟨hopener, hne⟩ := Option.filter_eq_some_iff.1 hv
    obtain ⟨hglobal, hcurrent⟩ := h.opener c' v hopener
    refine ⟨hglobal, ?_⟩
    exact (Bindings.current?_forget_of_ne (of_decide_eq_true hne)).trans hcurrent
  running v hv := by
    obtain ⟨hrunning, hne⟩ := List.mem_filter.1 hv
    obtain ⟨hcurrent, hchild⟩ := h.running v hrunning
    refine ⟨?_, hchild⟩
    exact (Bindings.current?_forget_of_ne (of_decide_eq_true hne)).trans hcurrent
  current c' v hv := by
    change (s.site.bindings.forget c).current? c' _ _ = some v at hv
    have hne : c' ≠ c := by
      rintro rfl
      rw [Bindings.current?_forget_self] at hv
      cases hv
    rw [Bindings.current?_forget_of_ne hne] at hv
    rcases h.current c' v hv with hopener | ⟨hrunning, rfl⟩
    · exact Or.inl (Option.filter_eq_some_iff.2 ⟨hopener, decide_eq_true hne⟩)
    · exact Or.inr ⟨List.mem_filter.2 ⟨hrunning, decide_eq_true hne⟩, rfl⟩
  first := h.first

/-- Where the bindings of the registry and its children are the same, so is what is said. -/
theorem elsewhere (h : s.Remembered history g) (process : Process σ)
    (own : process.bindings.ofRegistry s.site.registry.id =
      s.site.bindings.ofRegistry s.site.registry.id)
    (hnews : ∀ e ∈ news, ∃ r ≠ s.site.registry.id, e.registry? = some r) :
    (s.within process).Remembered (news ++ history) g := by
  have hcurrent : ∀ c,
      process.bindings.current? c s.site.registry.id s.site.registry.generation =
        s.site.bindings.current? c s.site.registry.id s.site.registry.generation := by
    intro c
    rw [← Bindings.current?_ofRegistry, own, Bindings.current?_ofRegistry]
  refine { opener := ?_, running := ?_, current := ?_, first := h.first } <;>
    simp only [Stage.within, hcurrent, Event.opener?_append hnews, Event.running_append hnews]
  · exact h.opener
  · exact h.running
  · exact h.current

/-- An operation keeps it so. -/
theorem deed (h : ∀ g, s.site.registry.global = some g → s.Remembered history g) (sound : s.Sound)
    (hdeed : Chronicle.Deed s s' news) :
    ∀ g, s'.site.registry.global = some g → s'.Remembered (news ++ history) g := by
  intro g hg
  cases hdeed with
  | none next net _ =>
    have hold := h g hg
    exact ⟨hold.opener, hold.running, hold.current, hold.first⟩
  | up c world net _ _ _ =>
    obtain rfl := Option.some.inj hg
    exact raised sound history c _ world net
  | down => cases hg
  | launch entered _ _ _ launched => exact (h g hg).launched sound launched entered
  | retire net _ _ of ended => exact (h g hg).retired net of ended

end Remembered

end Stage

namespace Campus

variable {σ : Type} {g : Grounds σ} {a : Campus σ} {i : Nat} {k : Chronicle σ} {s : Site σ}

theorem Reachable.remembered (h : Reachable g a) (hk : a.chronicle? i = some k) :
    ∀ v, k.stage.site.registry.global = some v → k.stage.Remembered a.history v := by
  refine h.induction
    (P := fun history s => ∀ v, s.site.registry.global = some v → s.Remembered history v)
    hk ?_ ?_ ?_ ?_
  · intro t id config detected process history _ _ v hv
    cases hv
  · exact fun history s s' news sound ih hdeed => Stage.Remembered.deed ih sound hdeed
  · exact fun history s c sound ih v hv => (ih v hv).endThread c
  · exact fun history s process news sound ih own hnews v hv => (ih v hv).elsewhere process own hnews

/-- No context runs in a VM of a registry that is not initialized. In a registry that is, the one
that made the present bring-up runs in the Global VM, as its first PET; the PETs of the children
that were launched since and are live run in their VMs; all others run in no VM, whatever they were
bound to before, and are told so by name. No VM is of two registries. -/
theorem Reachable.current_iff (h : Reachable g a) (known : a.site? i = some s)
    (c : ExecutionContext) :
    (s.registry.state ≠ .initialized → s.current c = .error .notInitialized) ∧
    (s.registry.state = .initialized →
      (∀ v, s.current c = .ok v ↔
        Event.opener? s.registry.id a.history = some (c, v) ∨
          v ∈ Event.running s.registry.id a.history ∧ v.context = c) ∧
      (s.current c = .error (.noContext c.label) ↔ ∀ v, s.current c ≠ .ok v) ∧
      c.Called c.label ∧
      (∀ v, Event.opener? s.registry.id a.history = some (c, v) →
        s.registry.global = some v ∧ v.localPet = 0) ∧
      ∀ v ∈ Event.running s.registry.id a.history,
        (s.registry.child? v.vm.id).isSome ∧ v.localPet < v.vm.petCount ∧
          ∃ d, a.dossiers[i]? = some d ∧ ∃ child ∈ d.held, child.vm = v.vm) ∧
    ∀ v, s.current c = .ok v → ∀ j d, a.dossiers[j]? = some d → j ≠ i →
      ∀ w ∈ d.built, w.id ≠ v.vm.id := by
  obtain ⟨k, hk, rfl⟩ := Option.map_eq_some_iff.1 known
  have hreach := h.chronicle hk
  obtain ⟨hglobal, _, _⟩ := hreach.stage.fields
  refine ⟨fun hdown => Site.current_of_down (hglobal.not.1 hdown), fun hup => ?_, ?_⟩
  · obtain ⟨v₀, hv₀⟩ := hreach.stage.sound.exists_global hup
    have hremembered := h.remembered hk v₀ hv₀
    refine ⟨fun v => ?_, Site.current_eq_noContext_iff (hglobal.1 hup), c.called_label,
      fun v hv => ?_, fun v hv => ?_⟩
    · rw [Site.current_eq_ok_iff (hglobal.1 hup)]
      constructor
      · exact hremembered.current c v
      · rintro (hopener | ⟨hrunning, rfl⟩)
        · exact (hremembered.opener c v hopener).2
        · exact (hremembered.running v hrunning).1
    · obtain ⟨rfl, _⟩ := hremembered.opener c v hv
      exact ⟨hv₀, hremembered.first⟩
    · obtain ⟨_, child, hchild, hvm, hpet⟩ := hremembered.running v hv
      refine ⟨?_, hvm ▸ hpet, k.dossier, ?_, child, hchild, hvm⟩
      · rw [hreach.stage.sound.isSome_child?_iff, ← hvm]
        exact List.mem_map_of_mem hchild
      · obtain ⟨d, hd, rfl⟩ := Option.map_eq_some_iff.1 hk
        exact hd
  · intro v hv j d hd hne w hw
    have hmade := hreach.stage.sound.mem_made_of_live (hreach.stage.sound.live_of_current hv)
    have hk' : a.chronicle? j = some (d.within a.process) := Option.map_eq_some_iff.2 ⟨d, hd, rfl⟩
    exact h.apart hk' hk hne hw (hreach.faithful.built.subset hmade)

/-- The main thread was left bound when the registry was taken down from another, and runs in no VM
of the next bring-up; nor does a thread that has never run in any. -/
theorem current_iff_handedOver : ∃ s, (handedOver (.limited 9) 0).site? 0 = some s ∧
    (∃ b ∈ s.bindings, b.context = .main ∧ b.registry = s.registry.id) ∧
    s.current .main = .error (.noContext "main") ∧
    s.current (.thread 7 none) = .error (.noContext "ThreadId(7)") ∧
    (∃ v, s.current (.thread 1 none) = .ok v ∧ s.registry.global = some v ∧ v.localPet = 0) ∧
    ∃ v, s.current (.pet 4 1) = .ok v ∧ v.vm.id = 4 ∧ v.localPet = 1 := by
  obtain ⟨s, hs, hstate, hstale, ⟨v, hopener⟩, hpets, w, hw, hcontext⟩ :
      ∃ s, (handedOver (.limited 9) 0).site? 0 = some s ∧ s.registry.state = .initialized ∧
        (∃ b ∈ s.bindings, b.context = .main ∧ b.registry = s.registry.id) ∧
        (∃ v, Event.opener? s.registry.id (handedOver (.limited 9) 0).history =
          some (.thread 1 none, v)) ∧
        (∀ v ∈ Event.running s.registry.id (handedOver (.limited 9) 0).history,
          v.context ≠ .main ∧ v.context ≠ .thread 7 none) ∧
        ∃ v ∈ Event.running s.registry.id (handedOver (.limited 9) 0).history,
          v.context = .pet 4 1 :=
    ⟨_, rfl, by decide, by decide, ⟨_, rfl⟩, by decide, by decide⟩
  have hcurrent := fun c => (Reachable.current_iff reachable_handedOver hs c).2.1 hstate
  have hnone : ∀ c, c ≠ .thread 1 none →
      (∀ v ∈ Event.running s.registry.id (handedOver (.limited 9) 0).history, v.context ≠ c) →
      s.current c = .error (.noContext c.label) := by
    refine fun c hne hc => (hcurrent c).2.1.2 fun v' hv' => ?_
    rcases ((hcurrent c).1 v').1 hv' with hopened | ⟨hrunning, heq⟩
    · rw [hopener] at hopened
      exact hne (Prod.mk.inj (Option.some.inj hopened)).1.symm
    · exact hc v' hrunning heq
  refine ⟨s, hs, hstale, hnone .main (by decide) fun v hv => (hpets v hv).1,
    hnone (.thread 7 none) (by decide) fun v hv => (hpets v hv).2, ⟨v, ?_, ?_⟩, w, ?_, ?_⟩
  · exact ((hcurrent (.thread 1 none)).1 v).2 (Or.inl hopener)
  · exact (hcurrent (.thread 1 none)).2.2.2.1 v hopener
  · exact ((hcurrent (.pet 4 1)).1 w).2 (Or.inr ⟨hw, hcontext⟩)
  · exact ExecutionContext.pet.inj hcontext

end Campus

end VirtualTopology
