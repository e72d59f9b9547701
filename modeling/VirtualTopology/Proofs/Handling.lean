import VirtualTopology.Proofs.Holders

/-!
# Steps and the children of others

Whatever step an owner performs, it makes use of the children among its own objects and of no
others, and so do the PETs and the threads that it lets run.

## Main definitions

- `Scene.Turns`: what an owner may have done, with the children among its objects.
- `Runner.Careful`: a runner by which nothing else is done.

## Main statements

- `Runner.Careful.release`, `Runner.Careful.join`, …: what is done with children.
- `Runner.Careful.perform`: every step.
- `Runner.careful_levels`: the runners of all levels are careful.
-/

namespace VirtualTopology.Session

/-- What an owner may have done, who holds the children among its objects. -/
def Scene.Turns (enough : Nat) (s s' : Scene) : Prop :=
  World.Turns enough s.scope.kidsKeys s'.scope.kidsKeys s.world s'.world

/-- The runner for some levels keeps to what belongs to those whom it runs, and children that they
hold are released with enough levels left. -/
structure Runner.Careful (n : Nat) : Prop where
  steps : ∀ frame steps (s : Scene), s.Turns (n - 1 - stepsDepth steps) ((levels n).steps frame steps s).2
  dispose : ∀ enough key w, World.Turns enough [key] [] w ((levels n).dispose key w)

variable {n enough : Nat} {cargo : Json.Value} {phase : List Step} {phases : List (List Step)}
  {pets : List PetRun} {key : Nat} {w : World} {s s' s'' : Scene} {scope : Scope} {k : Kids}
  {F : List Nat}

/-! ### The PETs of a launch -/

/-- PETs start with no children. -/
theorem Kids.keys_kidsOf (entered : List ExecutionContext) (spawned : Spawned) (scope : Scope)
    (entry : List (List Step)) (cargo : Json.Value) :
    (kidsOf entered spawned scope entry cargo).keys = [] := by
  rw [Kids.keys, kidsOf, List.flatMap_map, List.flatMap_eq_nil_iff]
  exact fun pet _ => scope.kidsKeys_forPet pet.handle

/-- The children of a startup that succeeds are new to the world. -/
theorem Kids.fresh_of_startup {id : Nat} {site site' : Site Network} {host : ThreadHost}
    {c : ExecutionContext} {plan : SpawnPlan} {spawned : Spawned} (hsite : w.site? id = some site)
    (built : plan.IsBuilt) (h : site.startup host c plan = (.ok spawned, site')) :
    (kidsOf site'.entered spawned scope phases cargo).Fresh w (w.withSite id site') := by
  obtain ⟨r, _, rfl⟩ := Option.map_eq_some_iff.1 hsite
  have hcontexts : (kidsOf site'.entered spawned scope phases cargo).contexts =
      (spawned.children.flatMap LaunchedChild.pets).map (·.handle.context) := List.map_map
  have hids : ∀ c ∈ (kidsOf site'.entered spawned scope phases cargo).contexts,
      ∃ child ∈ spawned.children, ∃ pet, c = .pet child.vm.id pet := by
    intro c hc
    obtain ⟨pet, hpet, rfl⟩ := List.mem_map.1 (hcontexts ▸ hc)
    obtain ⟨child, hchild, hpet⟩ := List.mem_flatMap.1 hpet
    obtain ⟨number, _, rfl⟩ := List.mem_map.1 hpet
    exact ⟨child, hchild, number, rfl⟩
  refine
    { slots := Site.slots_of_startup built h ▸ List.nodup_range, idle := keys_kidsOf ..
      turns := ?_, apart := hcontexts ▸ Site.nodup_contexts_of_startup h, begun := ?_, new := ?_ }
  · intro p hp
    obtain ⟨_, _, rfl⟩ := List.mem_map.1 hp
    rfl
  · intro c hc
    obtain ⟨child, hchild, _, rfl⟩ := hids c hc
    exact (Site.fresh_of_startup h hchild).2
  · intro c hc
    obtain ⟨child, hchild, _, rfl⟩ := hids c hc
    exact Nat.not_lt.2 (Site.fresh_of_startup h hchild).1

/-- Where children are told apart by their slots, no PET is a PET of two of them. -/
theorem Kids.exists_petsOf_perm (h : (k.spawned.children.map (·.partition.slot)).Nodup) :
    ∃ rest, ((k.spawned.children.flatMap fun c => k.petsOf c.partition.slot) ++ rest).Perm
      k.pets := by
  unfold petsOf
  generalize k.spawned.children = children at h
  generalize k.pets = pets
  induction children generalizing pets with
  | nil => exact ⟨pets, .refl _⟩
  | cons c children ih =>
    obtain ⟨hslot, hrest⟩ := List.nodup_cons.1 h
    -- The PETs of the other slots are among those that are not of the first.
    have hothers : (children.flatMap fun c' => pets.filter (·.slot == c'.partition.slot)) =
        children.flatMap fun c' =>
          (pets.filter fun pet => !(pet.slot == c.partition.slot)).filter
            (·.slot == c'.partition.slot) := by
      refine List.flatMap_congr fun c' hc' => ?_
      have hne : c'.partition.slot ≠ c.partition.slot := fun heq =>
        hslot (List.mem_map.2 ⟨c', hc', heq⟩)
      rw [List.filter_filter]
      refine List.filter_congr fun pet _ => ?_
      by_cases hpet : pet.slot = c'.partition.slot
      · simp [hpet, hne]
      · simp [hpet]
    obtain ⟨rest, hperm⟩ := ih hrest (pets.filter fun pet => !(pet.slot == c.partition.slot))
    refine ⟨rest, ?_⟩
    rw [List.flatMap_cons, hothers, List.append_assoc]
    exact (hperm.append_left _).trans (List.filter_append_perm _ pets)

/-- The children that the PETs of a launch hold, PET by PET of each slot. -/
theorem Kids.exists_keys_perm (h : (k.spawned.children.map (·.partition.slot)).Nodup) :
    ∃ rest, ((k.spawned.children.flatMap fun c =>
      (k.petsOf c.partition.slot).flatMap (·.scope.kidsKeys)) ++ rest).Perm k.keys := by
  obtain ⟨rest, hperm⟩ := exists_petsOf_perm h
  refine ⟨rest.flatMap (·.scope.kidsKeys), ?_⟩
  rw [← List.flatMap_assoc, ← List.flatMap_append]
  exact hperm.flatMap_right _

namespace Runner.Careful

variable (hn : Careful n)

include hn

theorem dropScope (scope : Scope) (w : World) :
    World.Turns enough scope.kidsKeys [] w (dropScope (levels n) scope w) := by
  have h : World.Turns enough (scope.kidsKeys.flatMap fun key => [key]) [] w _ :=
    .foldl (fun w key => hn.dispose enough key w) scope.kidsKeys w
  rwa [List.flatMap_singleton'] at h

/-- A PET makes use of its own objects, and loses them by a panic. -/
theorem runPet (cargo : Json.Value) (phase : List Step) (pet : PetRun) (w : World) :
    World.Turns 0 pet.scope.kidsKeys (runPet (levels n) cargo phase pet w).1.scope.kidsKeys w
      (runPet (levels n) cargo phase pet w).2 := by
  cases hgoes : pet.goesOn with
  | false =>
    rw [runPet_of_not_goesOn hgoes]
    exact .refl w
  | true =>
    have hsteps := (hn.steps (pet.frame cargo) phase ⟨pet.scope, w⟩).mono (Nat.zero_le _)
    rw [runPet_of_goesOn hgoes]
    rcases hrun : (levels n).steps (pet.frame cargo) phase ⟨pet.scope, w⟩ with
      ⟨⟨answers, _ | payload⟩, s⟩
    · rw [hrun] at hsteps
      exact hsteps
    · rw [hrun] at hsteps
      exact (hsteps.trans (hn.dropScope s.scope s.world)).trans (.of_quiet (World.quiet_forget _ _))

theorem runPhase (cargo : Json.Value) (phase : List Step) (pets : List PetRun) (w : World) :
    World.Turns 0 (pets.flatMap (·.scope.kidsKeys))
      ((runPhase (levels n) cargo phase pets w).1.flatMap (·.scope.kidsKeys)) w
      (runPhase (levels n) cargo phase pets w).2 := by
  induction pets generalizing w with
  | nil => exact .refl w
  | cons pet pets ih => exact (hn.runPet cargo phase pet w).append (ih _)

theorem runPhases (cargo : Json.Value) (phases : List (List Step)) (pets : List PetRun)
    (w : World) : World.Turns 0 (pets.flatMap (·.scope.kidsKeys))
      ((runPhases (levels n) cargo phases pets w).1.flatMap (·.scope.kidsKeys)) w
      (runPhases (levels n) cargo phases pets w).2 := by
  induction phases generalizing pets w with
  | nil => exact .refl w
  | cons phase phases ih => exact (hn.runPhase cargo phase pets w).trans (ih _ _)

/-! ### Releasing and ending -/

omit hn in
theorem quiet_forgetAll (pets : List PetRun) (w : World) :
    w.Quiet (pets.foldl (fun w pet => w.forget pet.context) w) := by
  induction pets generalizing w with
  | nil => exact .refl w
  | cons pet pets ih => exact (w.quiet_forget pet.context).trans (ih _)

/-- Children whose entries are not run yet have them run, and nothing else that is held changes. -/
theorem release (key : Nat) (w : World) :
    World.Turns n [key] [key] w (release (levels n) key w) := fun F h => by
  obtain ⟨k, hk⟩ := Option.isSome_iff_exists.1 (h.isSome_of_mem List.mem_cons_self)
  rw [Session.release, hk]
  dsimp only
  split
  · exact World.Turns.refl w F h
  · next hreleased =>
    have hunreleased : k.released = false := by simpa using hreleased
    -- The PETs start with no children and do not know of those that are being released.
    have hidle := h.idle key k hk hunreleased
    have hrun := (hn.runPhases k.cargo k.entry k.pets w).trans
      (.of_quiet (quiet_forgetAll (Session.runPhases (levels n) k.cargo k.entry k.pets w).1 _))
    rw [show k.pets.flatMap (·.scope.kidsKeys) = [] from hidle] at hrun
    have hkey : key ∉ F := fun hmem =>
      (List.nodup_cons.1 h.apart).1 (List.mem_append_left _ hmem)
    exact (hrun (key :: F) h).setKids hk hkey (Nat.le_refl n) hunreleased
      (Runner.Ran.of_runPhases ..)

theorem endChild (k : Kids) (w : World) (c : LaunchedChild) :
    World.Turns enough ((k.petsOf c.partition.slot).flatMap (·.scope.kidsKeys)) [] w
      (endChild (levels n) k w c) :=
  (World.Turns.of_quiet (w.quiet_onSite k.spawned.registry () (fun s => ((), s.retire c.vm))
    fun s => s.advances_retire c.vm)).trans
    (.foldl (fun w pet => hn.dropScope pet.scope w) _ _)

/-- Children are ended: they are gone, and so are the children of their PETs. -/
theorem endKids (enough key : Nat) (w : World) :
    World.Turns enough [key] [] w (endKids (levels n) key w) := by
  suffices h : World.Turns n [key] [] w (Session.endKids (levels n) key w) from h.of_nil
  refine (hn.release key w).trans ?_
  rw [Session.endKids]
  split
  · next hnone => exact .of_kids?_eq_none hnone
  · next k hk =>
    refine (World.Turns.removeKids _ ?_).trans (.foldl (fun w c => hn.endChild k w c) _ _)
    intro k' hk' hslots
    obtain rfl := Option.some.inj (hk.symm.trans hk')
    exact Kids.exists_keys_perm hslots

theorem dropObject (object : Object) (w : World) :
    World.Turns enough object.keys [] w (dropObject (levels n) object w) := by
  unfold Session.dropObject
  cases hkids : object.kids? with
  | none =>
    rw [Object.keys, hkids]
    exact .refl w
  | some key =>
    rw [Object.keys, hkids]
    exact hn.endKids enough key w

/-! ### Names and handing over -/

/-- A named object is held by the owner, and one that had its name is ended. -/
theorem store (name : String) (object : Object) (s : Scene) :
    World.Turns enough (object.keys ++ s.scope.kidsKeys)
      (store (levels n) name object s).scope.kidsKeys s.world
      (store (levels n) name object s).world := by
  have hinsert := Scope.kidsKeys_insert_perm s.scope name object
  unfold Session.store
  cases hold : s.scope[name]? with
  | none =>
    refine (World.Turns.refl s.world).perm ?_ hinsert.symm
    exact (Scope.kidsKeys_erase_perm hold).symm.append_left _
  | some old =>
    refine ((hn.dropObject old s.world).frame
      (object.keys ++ Scope.kidsKeys (s.scope.erase name))).perm ?_ hinsert.symm
    exact ((Scope.kidsKeys_perm_of_getElem?_eq_some hold).append_left _).trans
      (List.perm_append_comm_assoc _ _ _)

/-- Objects that a PET left behind go to the owner one by one. -/
theorem adopt (slot pet : Nat) (adopt : List String) (left : Scope) (s : Scene) :
    let after := adopt.foldl
      (fun (left, s) name =>
        match left[name]? with
        | none => (left, s)
        | some object =>
          (left.erase name, Session.store (levels n) s!"{slot}/{pet}/{name}" object s))
      (left, s)
    World.Turns enough (left.kidsKeys ++ s.scope.kidsKeys)
      (Scope.kidsKeys after.1 ++ after.2.scope.kidsKeys) s.world after.2.world := by
  induction adopt generalizing left s with
  | nil => exact .refl s.world
  | cons name adopt ih =>
    dsimp only [List.foldl_cons]
    cases hobject : left[name]? with
    | none => exact ih left s
    | some object =>
      refine .trans ?_ (ih (left.erase name) _)
      refine ((hn.store _ object s).frame (Scope.kidsKeys (left.erase name))).perm ?_
        List.perm_append_comm
      refine ((Scope.kidsKeys_perm_of_getElem?_eq_some hobject).append_right _).trans ?_
      rw [List.append_assoc, List.append_assoc]
      exact List.perm_append_comm.append_left _

/-- What a PET left behind is taken over or ended. -/
theorem adoptFrom (adopt : List String) (pet : PetRun) (s : Scene) :
    World.Turns enough (pet.scope.kidsKeys ++ s.scope.kidsKeys)
      (adoptFrom (levels n) adopt pet s).scope.kidsKeys s.world
      (adoptFrom (levels n) adopt pet s).world :=
  (hn.adopt pet.slot pet.handle.localPet adopt pet.scope s).trans
    ((hn.dropScope _ _).frame _)

theorem adoptAll (adopt : List String) (pets : List PetRun) (s : Scene) :
    World.Turns enough (pets.flatMap (·.scope.kidsKeys) ++ s.scope.kidsKeys)
      (pets.foldl (fun s pet => Session.adoptFrom (levels n) adopt pet s) s).scope.kidsKeys s.world
      (pets.foldl (fun s pet => Session.adoptFrom (levels n) adopt pet s) s).world := by
  induction pets generalizing s with
  | nil => exact .refl s.world
  | cons pet pets ih =>
    refine .trans ?_ (ih _)
    refine ((hn.adoptFrom adopt pet s).frame (pets.flatMap (·.scope.kidsKeys))).perm ?_
      List.perm_append_comm
    rw [List.flatMap_cons, List.append_assoc, List.append_assoc]
    exact List.perm_append_comm.append_left _

omit hn in
theorem quiet_retireKids (k : Kids) (w : World) : w.Quiet (retireKids k w) :=
  w.quiet_onSite _ _ _ fun s => s.advances_retireAll _

omit hn in
/-- Children whose entries were run are retired and forgotten, and what their PETs held is left. -/
theorem turns_retireKids (hk : w.kids? key = some k) :
    World.Turns enough [key] k.keys w (retireKids k (w.removeKids key)) := by
  refine (World.Turns.removeKids k.keys fun k' hk' _ => ⟨[], ?_⟩).trans
    (.of_quiet (quiet_retireKids _ _))
  rw [List.append_nil, Option.some.inj (hk.symm.trans hk')]

/-- Children that are joined are gone, and what their PETs held is taken over or ended. -/
theorem join (key : Nat) (adopt : List String) (s : Scene) :
    World.Turns n (key :: s.scope.kidsKeys) (join (levels n) key adopt s).2.scope.kidsKeys s.world
      (join (levels n) key adopt s).2.world := by
  have hrelease := hn.release key s.world
  unfold Session.join
  dsimp only
  cases hk : (Session.release (levels n) key s.world).kids? key with
  | none =>
    exact fun F h => absurd ((hrelease _ h).orderly.isSome_of_mem List.mem_cons_self) (by simp [hk])
  | some k =>
    exact ((hrelease.trans (turns_retireKids hk)).frame s.scope.kidsKeys).trans
      (hn.adoptAll adopt k.pets
        ⟨s.scope, retireKids k ((Session.release (levels n) key s.world).removeKids key)⟩)

end Runner.Careful

/-! ### Actions -/

namespace Scene.Turns

theorem refl (s : Scene) : s.Turns enough s := World.Turns.refl s.world

theorem trans (h : s.Turns enough s') (h' : s'.Turns enough s'') : s.Turns enough s'' :=
  World.Turns.trans h h'

theorem of_quiet (h : s.world.Quiet w) : s.Turns enough { s with world := w } :=
  World.Turns.of_quiet h

end Scene.Turns

/-- An action that keeps to what belongs to its owner. -/
def Action.Careful (enough : Nat) (act : Action) : Prop :=
  ∀ s : Scene, s.Turns enough (act s).2

theorem careful_orMissing {α : Type} {found : Scope → String → Option α} {name : String}
    {go : α → Action}
    (h : ∀ a (s : Scene), found s.scope name = some a → s.Turns enough (go a s).2) :
    (orMissing found name go).Careful enough := fun s => by
  unfold orMissing
  split
  · next a ha => exact h a s ha
  · exact .refl s

theorem careful_onRegistry (reg : String) (ask : Site Network → Answer) :
    (onRegistry reg ask).Careful enough :=
  careful_orMissing fun _ => fun s _ => .refl s

/-- What was done on a registry by an action that succeeded. -/
theorem exists_of_actOnSite {α : Type} {id : Nat}
    {act : Site Network → Except VmError α × Site Network} {a : α}
    (h : actOnSite id act s = (.ok a, s')) :
    ∃ site site', s.world.site? id = some site ∧ act site = (.ok a, site') ∧
      s' = { s with world := s.world.withSite id site' } := by
  cases hsite : s.world.site? id with
  | none =>
    rw [actOnSite, World.onSite, hsite] at h
    cases h
  | some site =>
    rw [actOnSite, World.onSite_eq_of_site?_eq_some _ _ hsite] at h
    obtain ⟨hact, rfl⟩ := Prod.mk.inj h
    exact ⟨site, (act site).2, rfl, Prod.ext hact rfl, rfl⟩

/-- What is done on a registry leaves children alone if it takes nothing back. -/
theorem quiet_actOnSite {α : Type} (id : Nat) (act : Site Network → Except VmError α × Site Network)
    (s : Scene) (h : ∀ site : Site Network, site.Advances (act site).2) :
    s.Turns enough (actOnSite id act s).2 :=
  .of_quiet (s.world.quiet_onSite id _ act h)

theorem careful_takeDown (frame : Frame) (reg : String) : (takeDown frame reg).Careful enough :=
  careful_orMissing fun id s _ =>
    quiet_actOnSite id _ s fun site => site.advances_takeDown frame.context

theorem careful_showPet (vm : String) (pet : Nat) : (showPet vm pet).Careful enough := fun s => by
  unfold showPet
  split <;> exact .refl s

theorem careful_transportCall (transport comm : String)
    (call : Communicator → Transport Network → Network → Reply Network Unit) :
    (transportCall transport comm call).Careful enough :=
  careful_orMissing fun _ s _ => careful_orMissing
    (fun _ _ _ => .of_quiet (World.quiet_net _ _)) s

theorem careful_onEndpoint {α : Type} (ep : String) (toAnswer : α → Answer)
    (act : Endpoint → Fabric → Except TransportError α × Fabric) :
    (onEndpoint ep toAnswer act).Careful enough :=
  careful_orMissing fun _ _ _ => .of_quiet (World.quiet_net _ _)

theorem careful_receiveWhileReleasing (ep transport comm : String) :
    (receiveWhileReleasing ep transport comm).Careful enough :=
  careful_orMissing fun e s _ => careful_orMissing (fun key s _ => careful_orMissing
    (fun c s _ => by
      -- Receiving and releasing change the network and nothing else.
      have hreleased : s.world.Quiet ((s.world.setFabric (e.receive s.world.fabric).2).onTransport
          key fun t => t.release c).2 := World.quiet_net _ _
      dsimp only
      split
      · exact .of_quiet (hreleased.trans (World.quiet_net _ _))
      · exact .of_quiet hreleased) s) s

/-- Children of children are launched and retired before anyone holds them. -/
theorem quiet_nest (registry : Nat) (policy : SpawnPolicy) (levels : Nat)
    (context : ExecutionContext) (parent : VmHandle) (w : World) :
    w.Quiet (nest registry policy levels context parent w).2 := by
  induction levels generalizing context parent w with
  | zero => exact .refl w
  | succ levels ih =>
    unfold nest
    split
    · exact .refl w
    · next plan _ =>
      have hstart := w.quiet_onSite registry (.error .notInitialized)
        (Site.startup .ample context plan) fun s => s.advances_startup .ample context plan
      split
      · next e w₁ heq =>
        rw [heq] at hstart
        exact hstart
      · next spawned w₁ heq =>
        rw [heq] at hstart
        refine (hstart.trans (World.quiet_foldl (fun acc h => ?_) _ ([], w₁))).trans
          (World.quiet_onSite _ _ _ _ fun s => s.advances_retireAll _)
        refine .trans ?_ (World.quiet_forget _ _)
        by_cases hfirst : h.localPet = 0
        · rw [if_pos hfirst]
          exact ih _ _ _
        · rw [if_neg hfirst]
          exact .refl acc.2

theorem careful_nestChildren (frame : Frame) (reg vm : String) (levels : Nat)
    (policy : SpawnPolicy) : (nestChildren frame reg vm levels policy).Careful enough :=
  careful_orMissing fun _ s _ => careful_orMissing
    (fun _ _ _ => .of_quiet (quiet_nest _ _ _ _ _ _)) s

namespace Runner.Careful

variable (hn : Careful n)

include hn

/-- A named object that is no children. -/
theorem storing {object : Object} (hobject : object.keys = []) (name : String) (s : Scene) :
    s.Turns enough (Session.store (levels n) name object s) := by
  have hstore : World.Turns enough (object.keys ++ s.scope.kidsKeys) _ _ _ := hn.store name object s
  rwa [hobject] at hstore

theorem storingAs {object : Object} (hobject : object.keys = []) (name : Option String)
    (s : Scene) : s.Turns enough (storeAs (levels n) name object s) := by
  cases name with
  | none => exact .refl s
  | some name => exact hn.storing hobject name s

theorem gotVm (as : Option String) (r : Except VmError VmHandle) :
    (gotVm (levels n) as r).Careful enough := fun s => by
  cases r with
  | error e => exact .refl s
  | ok h => exact hn.storingAs rfl as s

theorem gotCommunicator (as : String) (c : Communicator) :
    (gotCommunicator (levels n) as c).Careful enough := hn.storing rfl as

theorem gotEndpoint (as : String) (r : Except TransportError Endpoint) :
    (gotEndpoint (levels n) as r).Careful enough := fun s => by
  cases r with
  | error e => exact .refl s
  | ok e => exact hn.storing rfl as s

theorem makeRegistry (as : String) (source : ConfigSource) (transport : Option String) :
    (makeRegistry (levels n) as source transport).Careful enough := fun s => by
  have hbuild : ∀ (config : DiscoveryConfig) (key : Nat) (w : World), s.world.Quiet w →
      s.Turns enough (Session.store (levels n) as (.registry (w.addRegistry config key).1)
        { s with world := (w.addRegistry config key).2 }) := fun config key w hw =>
    (Scene.Turns.of_quiet (hw.trans (w.quiet_addRegistry config key))).trans (hn.storing rfl as _)
  unfold Session.makeRegistry
  split
  · exact .refl s
  · next config _ =>
    cases transport with
    | some name =>
      dsimp only [orMissing]
      split
      · exact hbuild config _ _ (.refl s.world)
      · exact .refl s
    | none => exact hbuild config _ _ (World.quiet_net _ _)

theorem bringUp (frame : Frame) (reg : String) (as : Option String) :
    (bringUp (levels n) frame reg as).Careful enough :=
  careful_orMissing fun id s _ =>
    (quiet_actOnSite id _ s fun site => site.advances_bringUp frame.context).trans
      (hn.gotVm as _ _)

theorem makeView (as : String) (vms : List String) (id : Nat) :
    (makeView (levels n) as vms id).Careful enough := fun s => by
  unfold Session.makeView
  split
  · exact .refl s
  · exact hn.storing rfl as s

theorem makePlan (vm : String) (count : Nat) (policy : SpawnPolicy) (as : String) :
    (makePlan (levels n) vm count policy as).Careful enough :=
  careful_orMissing fun h s _ => by
    split
    · exact .refl s
    · exact hn.storing rfl as s

theorem showChild (name : String) (slot : Nat) (as : Option String) :
    (showChild (levels n) name slot as).Careful enough :=
  careful_orMissing fun key s _ => by
    split
    · exact .refl s
    · exact hn.storingAs rfl as s

theorem releaseKids (name : String) : (releaseKids (levels n) name).Careful n :=
  careful_orMissing fun key s hkey => by
    have hperm := Scope.kidsKeys_perm_of_getElem?_eq_some (Scope.kids?_eq_some_iff.1 hkey)
    exact ((hn.release key s.world).frame _).perm hperm hperm.symm

theorem joinKids (name : String) (adopt : List String) :
    (joinKids (levels n) name adopt).Careful n :=
  careful_orMissing fun key s hkey => by
    have hperm := Scope.kidsKeys_perm_of_getElem?_eq_some (Scope.kids?_eq_some_iff.1 hkey)
    exact (hn.join key adopt { s with scope := s.scope.erase name }).perm hperm (.refl _)

theorem dropNamed (name : String) : (dropNamed (levels n) name).Careful enough := fun s => by
  unfold Session.dropNamed
  split
  · exact .refl s
  · next object hobject =>
    have hperm := Scope.kidsKeys_perm_of_getElem?_eq_some hobject
    exact ((hn.dropObject object s.world).frame _).perm hperm (.refl _)

theorem makeTransport (as : String) (b : Backend) :
    (makeTransport (levels n) as b).Careful enough := fun _ =>
  (Scene.Turns.of_quiet (World.quiet_net _ _)).trans (hn.storing rfl as _)

theorem transportMake (as : String) (key : Nat)
    (call : Transport Network → Network → Reply Network Communicator) :
    (transportMake (levels n) as key call).Careful enough := fun s => by
  have hcall : s.world.Quiet (s.world.onTransport key call).2 := World.quiet_net _ _
  unfold Session.transportMake
  split
  · next e w heq =>
    rw [heq] at hcall
    exact .of_quiet hcall
  · next c w heq =>
    rw [heq] at hcall
    exact (Scene.Turns.of_quiet hcall).trans (hn.gotCommunicator as c _)

theorem freshCommunicator (as : String) (id size : Nat) :
    (freshCommunicator (levels n) as id size).Careful enough := fun _ =>
  (Scene.Turns.of_quiet (World.quiet_net _ _)).trans (hn.gotCommunicator as _ _)

/-- The children of a launch are held by the one who launched them. -/
theorem startup (frame : Frame) (reg plan as : String) (entry : List (List Step))
    (cargo : Json.Value) : (startup (levels n) frame reg plan as entry cargo).Careful enough :=
  careful_orMissing fun id s _ => careful_orMissing (fun p s hp => by
    obtain ⟨built, hplan⟩ := Scope.plan?_eq_some_iff.1 hp
    have herase : s.Turns enough { s with scope := s.scope.erase plan } :=
      (World.Turns.refl s.world).perm (Scope.kidsKeys_perm_of_getElem?_eq_some hplan) (.refl _)
    refine herase.trans ?_
    dsimp only
    split
    · next heq =>
      have hquiet : Scene.Turns enough { s with scope := s.scope.erase plan } _ :=
        quiet_actOnSite id (Site.startup .ample frame.context p)
          { s with scope := s.scope.erase plan } fun site => site.advances_startup _ _ p
      rw [heq] at hquiet
      exact hquiet
    · next spawned s' heq =>
      obtain ⟨site, site', hsite, hstart, rfl⟩ := exists_of_actOnSite heq
      have hquiet : s.world.Quiet (s.world.withSite id site') :=
        World.quiet_withSite hsite (Site.opening hstart).2.2.2.2.2
      have hadd : World.Turns enough [] [s.world.nextKids] s.world
          ((s.world.withSite id site').addKids
            (kidsOf site'.entered spawned (s.scope.erase plan) entry cargo)).2 :=
        .addKids hquiet (Kids.fresh_of_startup hsite built hstart)
      exact (hadd.frame (Scope.kidsKeys (s.scope.erase plan))).trans
        (hn.store as (.kids s.world.nextKids) ⟨s.scope.erase plan, _⟩)) s

/-! ### Steps -/

/-- A thread makes use of the objects of the one who starts it. -/
theorem inThread (frame : Frame) (name : Option String) (steps : List Step) (s : Scene) :
    s.Turns (n - 1 - stepsDepth steps) (inThread (levels n) frame name steps s).2 := by
  unfold Session.inThread
  dsimp only
  have hstart : s.Turns (n - 1 - stepsDepth steps)
      { s with world.nextThread := s.world.nextThread + 1 } :=
    .of_quiet (World.quiet_nextThread _ _)
  have hsteps := hn.steps { frame with context := .thread s.world.nextThread name } steps
    { s with world.nextThread := s.world.nextThread + 1 }
  have hend := (hstart.trans hsteps).trans
    (.of_quiet (World.quiet_forget _ (.thread s.world.nextThread name)))
  split <;> exact hend

/-- A step makes use of the children among its owner's objects, and if it releases some, as many
levels are left for their entries as its threads leave. -/
theorem perform (frame : Frame) : ∀ (step : Step) (s : Scene),
    s.Turns (n - step.depth) (perform (levels n) frame step s).2
  | .registry as config transport, s => hn.makeRegistry as config transport s
  | .bringUp reg as, s => hn.bringUp frame reg as s
  | .takeDown reg, s => careful_takeDown frame reg s
  | .global reg as, s => careful_orMissing (fun _ s _ => hn.gotVm as _ s) s
  | .current reg as, s => careful_orMissing (fun _ s _ => hn.gotVm as _ s) s
  | .registryState reg, s => careful_onRegistry reg _ s
  | .topology reg, s => careful_onRegistry reg _ s
  | .childState reg _, s => careful_onRegistry reg _ s
  | .peOwner reg _, s => careful_onRegistry reg _ s
  | .describe _, s => .refl s
  | .vm _, s => careful_orMissing (fun _ s _ => .refl s) s
  | .vmInfo _, s => careful_orMissing (fun _ s _ => .refl s) s
  | .report _, s => careful_orMissing (fun _ s _ => .refl s) s
  | .pet vm pet, s => careful_showPet vm pet s
  | .matchAll .., s =>
    careful_orMissing (fun _ s _ => careful_orMissing (fun _ s _ => .refl s) s) s
  | .matchInto .., s =>
    careful_orMissing (fun _ s _ => careful_orMissing (fun _ s _ => .refl s) s) s
  | .sameVm .., s =>
    careful_orMissing (fun _ s _ => careful_orMissing (fun _ s _ => .refl s) s) s
  | .view as vms id, s => hn.makeView as vms id s
  | .plan vm count policy as, s => hn.makePlan vm count policy as s
  | .planSlot .., s => careful_orMissing (fun _ s _ => .refl s) s
  | .startup reg plan as entry cargo, s => hn.startup frame reg plan as entry cargo s
  | .kids _, s => careful_orMissing (fun _ s _ => .refl s) s
  | .child name slot as, s => hn.showChild name slot as s
  | .release name, s => (hn.releaseKids name s).mono (Nat.sub_le _ _)
  | .join name adopt, s => (hn.joinKids name adopt s).mono (Nat.sub_le _ _)
  | .drop name, s => hn.dropNamed name s
  | .nest reg vm levels policy, s => careful_nestChildren frame reg vm levels policy s
  | .inThread name steps, s => by
    have hdepth : Step.depth (.inThread name steps) = 1 + stepsDepth steps := by
      rw [Step.depth, Nat.add_comm]
    rw [hdepth, ← Nat.sub_sub]
    exact hn.inThread frame name steps s
  | .cargo, s => .refl s
  | .panic payload, s => by
    unfold Session.perform
    split <;> exact .refl s
  | .transport as b, s => hn.makeTransport as b s
  | .transportInit _ size as, s =>
    careful_orMissing (fun key s _ => hn.transportMake as key (·.init size) s) s
  | .transportDerive _ _ size as, s =>
    careful_orMissing (fun key s _ =>
      careful_orMissing (fun c s _ => hn.transportMake as key (·.derive c size) s) s) s
  | .transportRelease transport comm, s =>
    careful_transportCall transport comm (fun c t => t.release c) s
  | .transportFinalize transport comm, s =>
    careful_transportCall transport comm (fun c t => t.finalize c) s
  | .calls _, s => careful_orMissing (fun _ s _ => .refl s) s
  | .communicatorOf as _, s => careful_orMissing (fun _ s _ => hn.gotCommunicator as _ s) s
  | .freshCommunicator as id size, s => hn.freshCommunicator as id size s
  | .communicator _, s => careful_orMissing (fun _ s _ => .refl s) s
  | .sameCommunicator .., s =>
    careful_orMissing (fun _ s _ => careful_orMissing (fun _ s _ => .refl s) s) s
  | .endpointOf as _, s => careful_orMissing (fun _ s _ => hn.gotEndpoint as _ s) s
  | .endpoint as _ _, s => careful_orMissing (fun _ s _ => hn.gotEndpoint as _ s) s
  | .send ep target payload, s =>
    careful_onEndpoint ep (fun _ => .ok) (fun e => e.send target payload) s
  | .receive ep, s => careful_onEndpoint ep showEnvelope Endpoint.receive s
  | .tryReceive ep, s => careful_onEndpoint ep showEnvelope Endpoint.receive s
  | .receiveWhileReleasing ep transport comm, s => careful_receiveWhileReleasing ep transport comm s
  | .only slot pet step, s => by
    have hdepth : Step.depth (.only slot pet step) = step.depth := by rw [Step.depth]
    rw [hdepth]
    unfold Session.perform
    split
    · exact perform frame step s
    · exact .refl s
  | .unknown, s => .refl s

/-- Steps one after the other. -/
theorem runSteps (frame : Frame) (steps : List Step) (s : Scene) :
    s.Turns (n - stepsDepth steps) (runSteps (levels n) frame steps s).2 := by
  induction steps generalizing s with
  | nil => exact .refl s
  | cons step steps ih =>
    have hdepth : stepsDepth (step :: steps) = max step.depth (stepsDepth steps) := by
      rw [stepsDepth]
    have hstep : s.Turns (n - stepsDepth (step :: steps))
        (Session.perform (levels n) frame step s).2 :=
      World.Turns.mono (by omega) (hn.perform frame step s)
    have hrest : ∀ s', Scene.Turns (n - stepsDepth (step :: steps)) s'
        (Session.runSteps (levels n) frame steps s').2 := fun s' =>
      World.Turns.mono (by omega) (ih s')
    unfold Session.runSteps
    split
    · next payload s' heq =>
      rw [heq] at hstep
      exact hstep
    · next a s' heq =>
      rw [heq] at hstep
      exact Scene.Turns.trans hstep (hrest s')

end Runner.Careful

/-- The runners of all levels keep to what belongs to those whom they run. -/
theorem Runner.careful_levels (n : Nat) : Runner.Careful n := by
  induction n with
  | zero =>
    refine ⟨fun _ _ s => .refl s, fun enough key w => ?_⟩
    exact .removeKids [] fun k _ _ => ⟨k.keys, .refl _⟩
  | succ n ih =>
    refine ⟨fun frame steps s => ?_, fun enough key w => ih.endKids enough key w⟩
    rw [Nat.add_sub_cancel]
    exact ih.runSteps frame steps s

end VirtualTopology.Session
