import VirtualTopology.Proofs.Operations

/-!
# The registries of a process

A process may have any number of registries, on one transport or on several. A campus is all of
them together: the process, what the run has come to for each registry, and what is remembered of
the run. Any thread may perform an operation on any registry, threads end, and the state that the
transports live in may change by itself.

Seen from one registry, what happens on the others is something that happens elsewhere in the
process. So all that holds of the runs of one registry holds of every registry of a campus.

## Main definitions

- `Dossier`: what a run has come to for one registry.
- `Campus`: all registries of a process, with what is remembered.
- `Campus.Step`, `Campus.Reachable`: one step, and the campuses that runs come to.

## Main statements

- `Campus.Reachable.chronicle`: every registry of a campus has a run of its own.
- `Campus.Reachable.apart`: no id is given out twice, whichever registries ask for it.
- `Campus.Reachable.induction`: what the steps of a campus are to one registry.
-/

namespace VirtualTopology

/-- A transport with others about of whom nothing is known. -/
def Surroundings.ofTransport {σ : Type} (t : Transport σ) : Surroundings σ :=
  ⟨t, fun _ => True, fun _ _ => True⟩
/-- What a run has come to for one registry, apart from the process it is in. -/
structure Dossier (σ : Type) where
  registry : Registry σ
  made : List Vm := []
  held : List LaunchedChild := []
  built : List Vm := []
  handles : List Handle := []

/-- The dossier of a registry as a chronicle in its process. -/
def Dossier.within {σ : Type} (process : Process σ) (d : Dossier σ) : Chronicle σ where
  stage := { site := { process with registry := d.registry }, made := d.made, held := d.held }
  built := d.built
  handles := d.handles

/-- A chronicle without the process. -/
def Chronicle.dossier {σ : Type} (k : Chronicle σ) : Dossier σ :=
  ⟨k.stage.site.registry, k.stage.made, k.stage.held, k.built, k.handles⟩

/-- The registries of a process, in the order they were founded in, with what is remembered of the
run, the latest first. -/
structure Campus (σ : Type) where
  process : Process σ
  dossiers : List (Dossier σ) := []
  history : List Event := []

/-- The transports that registries may have, the states these may be found in at first, and what
may happen to them besides. -/
structure Grounds (σ : Type) where
  transports : Transport σ → Prop
  fresh : σ → Prop
  meanwhile : σ → σ → Prop

namespace Campus

variable {σ : Type}

/-- A registry in its process, by its position. -/
def chronicle? (a : Campus σ) (i : Nat) : Option (Chronicle σ) :=
  a.dossiers[i]?.map (·.within a.process)

/-- A registry is founded. Registries are numbered from one. -/
def found (t : Transport σ) (config : DiscoveryConfig) (detected : Nat) (a : Campus σ) :
    Campus σ :=
  { a with
    dossiers := a.dossiers ++
      [{ registry := { id := a.dossiers.length + 1, transport := t, config, detected } }] }

/-- The registry at a position and the process have come to this chronicle. -/
def enter (i : Nat) (k : Chronicle σ) (news : List Event) (a : Campus σ) : Campus σ where
  process := k.stage.site.toProcess
  dossiers := a.dossiers.set i k.dossier
  history := news ++ a.history

/-- A thread ends, and its bindings with it. -/
def endThread (c : ExecutionContext) (a : Campus σ) : Campus σ :=
  { a with
    process := { a.process with bindings := a.process.bindings.forget c }
    history := .ended c :: a.history }

/-- What the transports live in changes. -/
def within (net : σ) (a : Campus σ) : Campus σ := { a with process := { a.process with net } }

/-- A plan for a VM that was made by one of the registries. -/
def Plans (a : Campus σ) (plan : SpawnPlan) : Prop :=
  ∃ h count policy, SpawnPlan.build h count policy = .ok plan ∧ ∃ d ∈ a.dossiers, h.vm ∈ d.made

/-- Whether an operation can be performed on a registry of the campus. -/
def Allows (a : Campus σ) (k : Chronicle σ) : Operation → Prop
  | .startup _ _ plan => a.Plans plan
  | op => k.Allows op

/-- What may happen next. -/
inductive Step (g : Grounds σ) : Campus σ → Campus σ → Prop
  | found {a} {t : Transport σ} (ht : g.transports t) (config : DiscoveryConfig) (detected : Nat) :
      Step g a (a.found t config detected)
  | act {a i k} (hk : a.chronicle? i = some k) {op : Operation} (allowed : a.Allows k op) :
      Step g a (a.enter i (k.act op) (k.news op))
  | endThread {a} (c : ExecutionContext) : Step g a (a.endThread c)
  | meanwhile {a} {net : σ} (hnet : g.meanwhile a.process.net net) : Step g a (a.within net)

/-- The campuses that runs come to. At first there is no registry. -/
inductive Reachable (g : Grounds σ) : Campus σ → Prop
  | start (process : Process σ) (unbound : process.bindings = []) (fresh : g.fresh process.net) :
      Reachable g { process }
  | step {a a'} (h : Reachable g a) (next : Step g a a') : Reachable g a'

variable {g : Grounds σ} {a : Campus σ} {i j : Nat} {k k' : Chronicle σ}

/-! ### One registry of a campus -/

theorem toProcess_of_chronicle? (hk : a.chronicle? i = some k) :
    k.stage.site.toProcess = a.process := by
  obtain ⟨d, _, rfl⟩ := Option.map_eq_some_iff.1 hk
  rfl

theorem lt_of_chronicle? (hk : a.chronicle? i = some k) : i < a.dossiers.length := by
  obtain ⟨d, hd, _⟩ := Option.map_eq_some_iff.1 hk
  exact (List.getElem?_eq_some_iff.1 hd).1

theorem exists_chronicle? {d : Dossier σ} (hd : d ∈ a.dossiers) :
    ∃ i k, a.chronicle? i = some k ∧ k.dossier = d := by
  obtain ⟨i, hi, rfl⟩ := List.getElem_of_mem hd
  exact ⟨i, _, Option.map_eq_some_iff.2 ⟨_, List.getElem?_eq_getElem hi, rfl⟩, rfl⟩

theorem chronicle?_found {t : Transport σ} {config : DiscoveryConfig} {detected : Nat}
    (hk : (a.found t config detected).chronicle? i = some k) :
    a.chronicle? i = some k ∨ i = a.dossiers.length ∧
      k = { stage := .start t (a.dossiers.length + 1) config detected a.process } := by
  obtain ⟨d, hd, rfl⟩ := Option.map_eq_some_iff.1 hk
  rcases Nat.lt_or_ge i a.dossiers.length with hlt | hge
  · rw [found, List.getElem?_append_left hlt] at hd
    exact Or.inl (Option.map_eq_some_iff.2 ⟨d, hd, rfl⟩)
  · rw [found, List.getElem?_append_right hge, List.getElem?_singleton] at hd
    split at hd
    · obtain rfl := Option.some.inj hd
      exact Or.inr ⟨by omega, rfl⟩
    · cases hd

theorem chronicle?_found_of_some {t : Transport σ} {config : DiscoveryConfig} {detected : Nat}
    (hk : a.chronicle? i = some k) : (a.found t config detected).chronicle? i = some k := by
  rw [chronicle?, found, List.getElem?_append_left (lt_of_chronicle? hk)]
  exact hk

theorem chronicle?_enter_self (hk : a.chronicle? i = some k) (k' : Chronicle σ)
    (news : List Event) : (a.enter i k' news).chronicle? i = some k' := by
  have hlt := lt_of_chronicle? hk
  simp [chronicle?, enter, hlt]
  rfl

/-- To the other registries, an operation is something that happens elsewhere in the process. -/
theorem chronicle?_enter_of_ne (hne : i ≠ j) (k : Chronicle σ) (news : List Event) :
    (a.enter i k news).chronicle? j =
      (a.chronicle? j).map (Chronicle.within k.stage.site.toProcess) := by
  rw [chronicle?, chronicle?, enter, Option.map_map]
  dsimp only
  rw [List.getElem?_set_ne hne]
  rfl

theorem chronicle?_enter (hk : a.chronicle? i = some k) {k₁ : Chronicle σ} {news : List Event}
    (hk' : (a.enter i k₁ news).chronicle? j = some k') :
    i = j ∧ k' = k₁ ∨
    i ≠ j ∧ ∃ k₀, a.chronicle? j = some k₀ ∧ k' = k₀.within k₁.stage.site.toProcess := by
  by_cases hij : i = j
  · subst hij
    rw [chronicle?_enter_self hk] at hk'
    exact Or.inl ⟨rfl, (Option.some.inj hk').symm⟩
  · rw [chronicle?_enter_of_ne hij] at hk'
    obtain ⟨k₀, hk₀, rfl⟩ := Option.map_eq_some_iff.1 hk'
    exact Or.inr ⟨hij, k₀, hk₀, rfl⟩

theorem chronicle?_endThread (c : ExecutionContext) :
    (a.endThread c).chronicle? i = (a.chronicle? i).map (Chronicle.endThread c) := by
  rw [chronicle?, chronicle?, Option.map_map]
  rfl

theorem chronicle?_within (net : σ) : (a.within net).chronicle? i =
    (a.chronicle? i).map (Chronicle.within { a.process with net }) := by
  rw [chronicle?, chronicle?, Option.map_map]
  rfl

/-! ### Every registry has a run of its own -/

/-- Every registry has a run of its own, and nothing is bound for a registry, and nothing remembered
of it, that is yet to be founded. -/
structure Coherent (a : Campus σ) : Prop where
  runs : ∀ i k, a.chronicle? i = some k →
    Chronicle.Reachable (.ofTransport k.stage.site.registry.transport) k
  ids : ∀ i k, a.chronicle? i = some k → k.stage.site.registry.id = i + 1
  founded : ∀ b ∈ a.process.bindings, b.registry ≤ a.dossiers.length
  known : ∀ e ∈ a.history, ∀ r ∈ e.registry?, r ≤ a.dossiers.length
  apart : ∀ i j k k', a.chronicle? i = some k → a.chronicle? j = some k' → i ≠ j →
    ∀ v ∈ k.built, ∀ w ∈ k'.built, v.id ≠ w.id

namespace Coherent

theorem plans (h : a.Coherent) (hk : a.chronicle? i = some k) {plan : SpawnPlan}
    (known : a.Plans plan) : k.stage.Plans plan := by
  obtain ⟨handle, count, policy, hbuild, d, hd, hmade⟩ := known
  obtain ⟨j, k', hk', rfl⟩ := exists_chronicle? hd
  refine ⟨handle, count, policy, hbuild, ?_⟩
  by_cases hij : i = j
  · subst hij
    obtain rfl := Option.some.inj (hk.symm.trans hk')
    exact Or.inl hmade
  · refine Or.inr fun v hv => ?_
    exact h.apart i j k k' hk hk' hij v ((h.runs i k hk).faithful.built.subset hv) _
      ((h.runs j k' hk').faithful.built.subset hmade)

theorem allows (h : a.Coherent) (hk : a.chronicle? i = some k) {op : Operation}
    (allowed : a.Allows k op) : k.Allows op := by
  cases op with
  | startup host c plan => exact h.plans hk allowed
  | bringUp | takeDown | retire => exact allowed

theorem found (h : a.Coherent) (t : Transport σ) (config : DiscoveryConfig) (detected : Nat) :
    (a.found t config detected).Coherent where
  runs i k hk := by
    rcases chronicle?_found hk with hold | ⟨_, rfl⟩
    · exact h.runs i k hold
    -- Nothing is bound for a number that no registry has yet.
    · refine .start _ config detected a.process (Bindings.ofRegistry_eq_nil_iff.2 ?_) trivial
      exact fun b hb => Nat.ne_of_lt (Nat.lt_succ_of_le (h.founded b hb))
  ids i k hk := by
    rcases chronicle?_found hk with hold | ⟨rfl, rfl⟩
    · exact h.ids i k hold
    · rfl
  founded b hb := by
    rw [Campus.found, List.length_append]
    exact Nat.le_succ_of_le (h.founded b hb)
  known e he r hr := by
    rw [Campus.found, List.length_append]
    exact Nat.le_succ_of_le (h.known e he r hr)
  apart i j k k' hk hk' hne v hv w hw := by
    rcases chronicle?_found hk with hold | ⟨_, rfl⟩
    · rcases chronicle?_found hk' with hold' | ⟨_, rfl⟩
      · exact h.apart i j k k' hold hold' hne v hv w hw
      · cases hw
    · cases hv

/-- Where the process changes and nothing else, all registries go on with their runs. -/
theorem elsewhere (h : a.Coherent) {a' : Campus σ} (f : Chronicle σ → Chronicle σ)
    (views : ∀ i, a'.chronicle? i = (a.chronicle? i).map f)
    (runs : ∀ i k, a.chronicle? i = some k →
      Chronicle.Reachable (.ofTransport k.stage.site.registry.transport) (f k) ∧
      (f k).stage.site.registry = k.stage.site.registry ∧ (f k).built = k.built)
    (founded : ∀ b ∈ a'.process.bindings, b.registry ≤ a'.dossiers.length)
    (known : ∀ e ∈ a'.history, ∀ r ∈ e.registry?, r ≤ a'.dossiers.length) : a'.Coherent where
  runs i k hk := by
    rw [views] at hk
    obtain ⟨k₀, hk₀, rfl⟩ := Option.map_eq_some_iff.1 hk
    obtain ⟨hrun, hregistry, _⟩ := runs i k₀ hk₀
    rwa [hregistry]
  ids i k hk := by
    rw [views] at hk
    obtain ⟨k₀, hk₀, rfl⟩ := Option.map_eq_some_iff.1 hk
    obtain ⟨_, hregistry, _⟩ := runs i k₀ hk₀
    rw [hregistry]
    exact h.ids i k₀ hk₀
  founded := founded
  known := known
  apart i j k k' hk hk' hne := by
    rw [views] at hk hk'
    obtain ⟨k₀, hk₀, rfl⟩ := Option.map_eq_some_iff.1 hk
    obtain ⟨k₁, hk₁, rfl⟩ := Option.map_eq_some_iff.1 hk'
    obtain ⟨_, _, hbuilt⟩ := runs i k₀ hk₀
    obtain ⟨_, _, hbuilt'⟩ := runs j k₁ hk₁
    rw [hbuilt, hbuilt']
    exact h.apart i j k₀ k₁ hk₀ hk₁ hne

theorem endThread (h : a.Coherent) (c : ExecutionContext) : (a.endThread c).Coherent := by
  refine h.elsewhere (Chronicle.endThread c) (fun _ => chronicle?_endThread c) ?_ ?_ ?_
  · exact fun i k hk => ⟨(h.runs i k hk).step (.endThread c), rfl, rfl⟩
  · exact fun b hb => h.founded b (List.mem_filter.1 hb).1
  · intro e he r hr
    cases he with
    | head => cases hr
    | tail _ he => exact h.known e he r hr

theorem within (h : a.Coherent) (net : σ) : (a.within net).Coherent := by
  refine h.elsewhere (Chronicle.within { a.process with net }) (fun _ => chronicle?_within net)
    (fun i k hk => ⟨?_, rfl, rfl⟩) h.founded h.known
  have hprocess := toProcess_of_chronicle? hk
  refine (h.runs i k hk).step (.meanwhile _ ?_ ?_ trivial)
  · exact Nat.le_of_eq (by rw [hprocess])
  · rw [hprocess]

/-- What an operation on one registry leaves to another. -/
theorem leaves_other (h : a.Coherent) (hk : a.chronicle? i = some k)
    (hk' : a.chronicle? j = some k') (hne : i ≠ j) (op : Operation) :
    k.stage.site.registry.id ≠ k'.stage.site.registry.id ∧
    k'.stage.site.nextVm ≤ (k.act op).stage.site.nextVm ∧
    (k.act op).stage.site.bindings.ofRegistry k'.stage.site.registry.id =
      k'.stage.site.bindings.ofRegistry k'.stage.site.registry.id := by
  have hleaves := Chronicle.leaves_act (h.runs i k hk).stage.sound op
  have hid : k.stage.site.registry.id ≠ k'.stage.site.registry.id := by
    rw [h.ids i k hk, h.ids j k' hk']
    omega
  have hsame : k'.stage.site.toProcess = k.stage.site.toProcess :=
    (toProcess_of_chronicle? hk').trans (toProcess_of_chronicle? hk).symm
  rw [hsame]
  exact ⟨hid, hleaves.next, hleaves.others _ hid.symm⟩

/-- An operation on one registry is a step of its run, and something elsewhere to the others. -/
theorem run_enter (h : a.Coherent) (hk : a.chronicle? i = some k) {op : Operation}
    (allowed : a.Allows k op) (hk' : (a.enter i (k.act op) (k.news op)).chronicle? j = some k') :
    Chronicle.Reachable (.ofTransport k'.stage.site.registry.transport) k' ∧
      k'.stage.site.registry.id = j + 1 := by
  rcases chronicle?_enter hk hk' with ⟨rfl, rfl⟩ | ⟨hij, k₀, hk₀, rfl⟩
  · have hleaves := Chronicle.leaves_act (h.runs i k hk).stage.sound op
    rw [hleaves.transport, hleaves.id]
    exact ⟨(h.runs i k hk).act (h.allows hk allowed), h.ids i k hk⟩
  · obtain ⟨_, hnext, hown⟩ := h.leaves_other hk hk₀ hij op
    exact ⟨(h.runs j k₀ hk₀).step (.meanwhile _ hnext hown trivial), h.ids j k₀ hk₀⟩

theorem enter (h : a.Coherent) (hk : a.chronicle? i = some k) {op : Operation}
    (allowed : a.Allows k op) : (a.enter i (k.act op) (k.news op)).Coherent := by
  have hsound := (h.runs i k hk).stage.sound
  have hprocess := toProcess_of_chronicle? hk
  have hlength : (a.enter i (k.act op) (k.news op)).dossiers.length = a.dossiers.length :=
    List.length_set ..
  -- A new VM has an id that no VM of the other registries has.
  have hnew : ∀ j k₀, a.chronicle? j = some k₀ → i ≠ j →
      ∀ v ∈ (k.act op).built, ∀ w ∈ k₀.built, v.id ≠ w.id := by
    intro j k₀ hk₀ hij v hv w hw
    rcases Chronicle.le_of_mem_built_act hsound hv with hold | hfresh
    · exact h.apart i j k k₀ hk hk₀ hij v hold w hw
    · have hid := (h.runs j k₀ hk₀).faithful.ids w hw
      rw [toProcess_of_chronicle? hk₀, ← hprocess] at hid
      omega
  refine
    { runs := fun j k' hk' => (h.run_enter hk allowed hk').1
      ids := fun j k' hk' => (h.run_enter hk allowed hk').2
      founded := ?_, known := ?_, apart := ?_ }
  · intro b hb
    rw [hlength]
    by_cases hid : b.registry = k.stage.site.registry.id
    · rw [hid, h.ids i k hk]
      exact lt_of_chronicle? hk
    · have hmem : b ∈ (k.act op).stage.site.bindings.ofRegistry b.registry :=
        List.mem_filter.2 ⟨hb, by simp⟩
      rw [(Chronicle.leaves_act hsound op).others _ hid] at hmem
      exact h.founded b (hprocess ▸ (List.mem_filter.1 hmem).1)
  · intro e he r hr
    rw [hlength]
    cases List.mem_append.1 he with
    | inl he =>
      rw [Chronicle.registry?_news e he, h.ids i k hk] at hr
      exact Option.some.inj hr ▸ lt_of_chronicle? hk
    | inr he => exact h.known e he r hr
  · intro j j' k₁ k₂ hk₁ hk₂ hne v hv w hw
    rcases chronicle?_enter hk hk₁ with ⟨rfl, rfl⟩ | ⟨hij, k₀, hk₀, rfl⟩
    · rcases chronicle?_enter hk hk₂ with ⟨rfl, _⟩ | ⟨_, k₀, hk₀, rfl⟩
      · exact absurd rfl hne
      · exact hnew j' k₀ hk₀ hne v hv w hw
    · rcases chronicle?_enter hk hk₂ with ⟨rfl, rfl⟩ | ⟨_, k₀', hk₀', rfl⟩
      · exact (hnew j k₀ hk₀ hij w hw v hv).symm
      · exact h.apart j j' k₀ k₀' hk₀ hk₀' hne v hv w hw

end Coherent

theorem Reachable.coherent (h : Reachable g a) : a.Coherent := by
  induction h with
  | start process unbound fresh =>
    refine { runs := ?_, ids := ?_, founded := ?_, known := ?_, apart := ?_ } <;>
      simp [chronicle?, unbound]
  | step _ next ih =>
    cases next with
    | found ht config detected => exact ih.found _ config detected
    | act hk allowed => exact ih.enter hk allowed
    | endThread c => exact ih.endThread c
    | meanwhile hnet => exact ih.within _

/-- A registry keeps the transport it was founded on. -/
theorem Reachable.transport (h : Reachable g a) (hk : a.chronicle? i = some k) :
    g.transports k.stage.site.registry.transport := by
  induction h generalizing i k with
  | start process unbound fresh => simp [chronicle?] at hk
  | @step a a' h next ih =>
    cases next with
    | found ht config detected =>
      rcases chronicle?_found hk with hold | ⟨_, rfl⟩
      · exact ih hold
      · exact ht
    | @act j k₀ hk₀ op allowed =>
      rcases chronicle?_enter hk₀ hk with ⟨rfl, rfl⟩ | ⟨_, k₁, hk₁, rfl⟩
      · rw [(Chronicle.leaves_act (h.coherent.runs j k₀ hk₀).stage.sound op).transport]
        exact ih hk₀
      · have hold := ih hk₁
        exact hold
    | endThread c =>
      rw [chronicle?_endThread] at hk
      obtain ⟨k₀, hk₀, rfl⟩ := Option.map_eq_some_iff.1 hk
      have hold := ih hk₀
      exact hold
    | meanwhile hnet =>
      rw [chronicle?_within] at hk
      obtain ⟨k₀, hk₀, rfl⟩ := Option.map_eq_some_iff.1 hk
      have hold := ih hk₀
      exact hold

/-- Every registry has a run of its own. -/
theorem Reachable.chronicle (h : Reachable g a) (hk : a.chronicle? i = some k) :
    Chronicle.Reachable (.ofTransport k.stage.site.registry.transport) k :=
  h.coherent.runs i k hk

/-- No id is given out twice, whichever registries ask for it. -/
theorem Reachable.apart (h : Reachable g a) (hk : a.chronicle? i = some k)
    (hk' : a.chronicle? j = some k') (hne : i ≠ j) {v w : Vm} (hv : v ∈ k.built)
    (hw : w ∈ k'.built) : v.id ≠ w.id :=
  h.coherent.apart i j k k' hk hk' hne v hv w hw

/-- What holds of a registry and of what is remembered when the registry is founded, and is kept by
its operations, by the ends of threads and by what happens elsewhere, holds at every campus. -/
theorem Reachable.induction {P : List Event → Stage σ → Prop} (h : Reachable g a)
    (hk : a.chronicle? i = some k)
    (start : ∀ t id config detected process history, process.bindings.ofRegistry id = [] →
      (∀ e ∈ history, e.registry? ≠ some id) → P history (.start t id config detected process))
    (deed : ∀ history s s' news, s.Sound → P history s → Chronicle.Deed s s' news →
      P (news ++ history) s')
    (endThread : ∀ history s c, s.Sound → P history s → P (.ended c :: history) (s.endThread c))
    (elsewhere : ∀ history s process news, s.Sound → P history s →
      process.bindings.ofRegistry s.site.registry.id =
        s.site.bindings.ofRegistry s.site.registry.id →
      (∀ e ∈ news, ∃ r ≠ s.site.registry.id, e.registry? = some r) →
      P (news ++ history) (s.within process)) :
    P a.history k.stage := by
  induction h generalizing i k with
  | start process unbound fresh => simp [chronicle?] at hk
  | @step a a' h next ih =>
    have hcoherent := h.coherent
    cases next with
    | found ht config detected =>
      rcases chronicle?_found hk with hold | ⟨_, rfl⟩
      · exact ih hold
      · refine start _ _ config detected a.process a.history ?_ ?_
        · rw [Bindings.ofRegistry_eq_nil_iff]
          exact fun b hb => Nat.ne_of_lt (Nat.lt_succ_of_le (hcoherent.founded b hb))
        · exact fun e he hr => Nat.not_succ_le_self _ (hcoherent.known e he _ hr)
    | @act j k₀ hk₀ op allowed =>
      rcases chronicle?_enter hk₀ hk with ⟨rfl, rfl⟩ | ⟨hij, k₁, hk₁, rfl⟩
      · exact deed _ _ _ _ (h.chronicle hk₀).stage.sound (ih hk₀)
          (Chronicle.deed (h.chronicle hk₀) (hcoherent.allows hk₀ allowed))
      · obtain ⟨hid, _, hown⟩ := hcoherent.leaves_other hk₀ hk₁ hij op
        exact elsewhere _ _ _ _ (h.chronicle hk₁).stage.sound (ih hk₁) hown
          fun e he => ⟨_, hid, Chronicle.registry?_news e he⟩
    | endThread c =>
      rw [chronicle?_endThread] at hk
      obtain ⟨k₀, hk₀, rfl⟩ := Option.map_eq_some_iff.1 hk
      exact endThread _ _ c (h.chronicle hk₀).stage.sound (ih hk₀)
    | meanwhile hnet =>
      rw [chronicle?_within] at hk
      obtain ⟨k₀, hk₀, rfl⟩ := Option.map_eq_some_iff.1 hk
      refine elsewhere _ _ _ [] (h.chronicle hk₀).stage.sound (ih hk₀) ?_ (by simp)
      rw [toProcess_of_chronicle? hk₀]

/-! ### Runs -/

/-- An operation is performed on a registry, if there is such a registry. -/
def perform (i : Nat) (op : Operation) (a : Campus σ) : Campus σ :=
  match a.chronicle? i with
  | none => a
  | some k => a.enter i (k.act op) (k.news op)

/-- A context launches children of the VM it runs in for a registry. -/
def spawn (i : Nat) (c : ExecutionContext) (count : Nat) (policy : SpawnPolicy) (a : Campus σ) :
    Campus σ :=
  match a.chronicle? i with
  | none => a
  | some k =>
    match k.stage.site.current c with
    | .error _ => a
    | .ok h =>
      match SpawnPlan.build h count policy with
      | .error _ => a
      | .ok plan => a.enter i (k.act (.startup .ample c plan)) (k.news (.startup .ample c plan))

theorem reachable_perform (h : Reachable g a) (i : Nat) (op : Operation)
    (allowed : ∀ k ∈ a.chronicle? i, a.Allows k op) : Reachable g (a.perform i op) := by
  unfold perform
  split
  · exact h
  · next k hk => exact h.step (.act hk (allowed k hk))

theorem reachable_spawn (h : Reachable g a) (i : Nat) (c : ExecutionContext) (count : Nat)
    (policy : SpawnPolicy) : Reachable g (a.spawn i c count policy) := by
  unfold spawn
  split
  · exact h
  · next k hk =>
    split
    · exact h
    · next handle hcurrent =>
      split
      · exact h
      · next plan hbuild =>
        have hsound := (h.chronicle hk).stage.sound
        have hmade := hsound.mem_made_of_live (hsound.live_of_current hcurrent)
        have hmem : k.dossier ∈ a.dossiers := by
          obtain ⟨d, hd, rfl⟩ := Option.map_eq_some_iff.1 hk
          exact List.mem_of_getElem? hd
        exact h.step (.act hk ⟨handle, count, policy, hbuild, k.dossier, hmem, hmade⟩)

/-- Two registries share a transport. The first is brought up from one thread, then taken down and
brought up again from another, which launches two children; the second is brought up by a PET of
the first child. -/
def handedOver (t : Transport σ) (net : σ) : Campus σ :=
  ({ process := { net } } : Campus σ)
    |>.found t {} 4
    |>.found t {} 4
    |>.perform 0 (.bringUp .main)
    |>.perform 0 (.takeDown (.thread 1 none))
    |>.perform 0 (.bringUp (.thread 1 none))
    |>.spawn 0 (.thread 1 none) 2 .maxThreads
    |>.perform 1 (.bringUp (.pet 3 0))

end Campus

/-- Nobody else uses the transport. -/
def Grounds.limited (limit : Nat) : Grounds Nat := ⟨(· = .limited limit), (· = 0), Eq⟩

theorem Campus.reachable_handedOver : Reachable (.limited 9) (handedOver (.limited 9) 0) := by
  have hstart : Reachable (.limited 9) ({ process := { net := 0 } } : Campus Nat) :=
    .start _ rfl rfl
  have hfound := (hstart.step (.found rfl {} 4)).step (.found rfl {} 4)
  have hup := reachable_perform hfound 0 (.bringUp .main) fun _ _ => trivial
  have hdown := reachable_perform hup 0 (.takeDown (.thread 1 none)) fun _ _ => trivial
  have hagain := reachable_perform hdown 0 (.bringUp (.thread 1 none)) fun _ _ => trivial
  have hspawned := reachable_spawn hagain 0 (.thread 1 none) 2 .maxThreads
  refine reachable_perform hspawned 1 (.bringUp (.pet 3 0)) fun k hk => ?_
  show 3 < k.stage.site.nextVm
  rw [toProcess_of_chronicle? hk]
  decide

end VirtualTopology
