import VirtualTopology.Session.World

/-!
# Running and ending children

The entries of a child's PETs run when the one who holds the children releases, joins or drops
them. The PETs take turns: each phase is gone through by all PETs, in the order of slots and PET
numbers, before the next begins. A PET that panics loses its objects and takes no further turns, and
one that the gate turned away takes none at all.

## Main definitions

- `Runner`: how steps are run and children are disposed of one level further in.
- `release`, `join`, `endKids`: the three ways to let the entries run.
- `tell`: an error as it is told.
- `nest`: children of children, one at each level.
-/

namespace VirtualTopology.Session

/-- What running steps came to: the answers up to a panic, if there was one. -/
abbrev RunResult := List Answer × Option PanicPayload

/-- How things are done one level further in. -/
structure Runner where
  steps : Frame → List Step → Scene → RunResult × Scene
  /-- Disposes of children whose holder is gone. -/
  dispose : Nat → World → World

/-- The runner where no further level can be reached: it runs nothing and forgets the children that
it is to dispose of. -/
def Runner.idle : Runner := ⟨fun _ _ s => (([], none), s), fun key w => w.removeKids key⟩

variable (inner : Runner)

/-- Drops all objects of an owner that is gone, in the order of their names. -/
def dropScope (scope : Scope) (w : World) : World :=
  scope.kidsKeys.foldl (fun w key => inner.dispose key w) w

/-- Runs one phase of one PET. -/
def runPet (cargo : Json.Value) (phase : List Step) (pet : PetRun) (w : World) : PetRun × World :=
  if pet.goesOn then
    let frame : Frame := ⟨pet.context, some (pet.slot, pet.handle.localPet, cargo)⟩
    match inner.steps frame phase ⟨pet.scope, w⟩ with
    | ((answers, none), s) =>
      let turn : Turn := ⟨frame, phase, pet.scope, answers, none, s.scope⟩
      ({ pet with
        scope := s.scope, turns := pet.turns ++ [turn], phases := pet.phases ++ [answers] }, s.world)
    | ((answers, some payload), s) =>
      let turn : Turn := ⟨frame, phase, pet.scope, answers, some payload, s.scope⟩
      ({ pet with scope := ∅, turns := pet.turns ++ [turn], panicked := some payload },
        (dropScope inner s.scope s.world).forget pet.context)
  else (pet, w)

/-- Runs one phase of all PETs in turn. -/
def runPhase (cargo : Json.Value) (phase : List Step) :
    List PetRun → World → List PetRun × World
  | [], w => ([], w)
  | pet :: pets, w =>
    let (pet, w) := runPet inner cargo phase pet w
    let (pets, w) := runPhase cargo phase pets w
    (pet :: pets, w)

/-- Runs the phases of all PETs one after the other. -/
def runPhases (cargo : Json.Value) :
    List (List Step) → List PetRun → World → List PetRun × World
  | [], pets, w => (pets, w)
  | phase :: phases, pets, w =>
    let (pets, w) := runPhase inner cargo phase pets w
    runPhases cargo phases pets w

/-- Lets the entries of children run to their ends. A second release does nothing. -/
def release (key : Nat) (w : World) : World :=
  match w.kids? key with
  | none => w
  | some k =>
    if k.released then w
    else
      let (pets, w) := runPhases inner k.cargo k.entry k.pets w
      let w := pets.foldl (fun w pet => w.forget pet.context) w
      (w.setKids key { k with pets, released := true }).record pets

/-- Retires the children of a launch in slot order. -/
def retireKids (k : Kids) (w : World) : World :=
  (w.onSite k.spawned.registry () fun s => ((), s.retireAll k.spawned.children)).2

/-- The outcome of a child from the runs of its PETs. -/
def outcomeOf (k : Kids) (c : LaunchedChild) : ChildOutcome (List (List Answer)) :=
  .ofEnds c.partition.slot c.vm.id ((k.petsOf c.partition.slot).map PetRun.ending)

/-- Retires one child of a launch and drops what its PETs left. -/
def endChild (k : Kids) (w : World) (c : LaunchedChild) : World :=
  let (_, w) := w.onSite k.spawned.registry () fun s => ((), s.retire c.vm)
  (k.petsOf c.partition.slot).foldl (fun w pet => dropScope inner pet.scope w) w

/-- Lets the entries of children run and ends the children one by one, in slot order. -/
def endKids (key : Nat) (w : World) : World :=
  let w := release inner key w
  match w.kids? key with
  | none => w
  | some k => k.spawned.children.foldl (endChild inner k) (w.removeKids key)

/-- Drops an object. -/
def dropObject (object : Object) (w : World) : World :=
  match object.kids? with
  | none => w
  | some key => endKids inner key w

/-- Names an object; one that had the name is dropped. -/
def store (name : String) (object : Object) (s : Scene) : Scene :=
  let old := s.scope[name]?
  let s := { s with scope := s.scope.insert name object }
  match old with
  | none => s
  | some old => { s with world := dropObject inner old s.world }

/-- Takes objects over from a PET that has ended and drops the others. -/
def adoptFrom (adopt : List String) (pet : PetRun) (s : Scene) : Scene :=
  let (left, s) := adopt.foldl
    (fun (left, s) name =>
      match left[name]? with
      | none => (left, s)
      | some object =>
        (left.erase name,
          store inner s!"{pet.slot}/{pet.handle.localPet}/{name}" object s))
    (pet.scope, s)
  { s with world := dropScope inner left s.world }

/-- Waits for children and retires them; their PETs' objects are taken over or dropped. -/
def join (key : Nat) (adopt : List String) (s : Scene) : Answer × Scene :=
  let w := release inner key s.world
  match w.kids? key with
  | none => (.absent, s)
  | some k =>
    let w := retireKids k (w.removeKids key)
    let outcomes := k.spawned.children.map (outcomeOf k)
    (.outcomes outcomes,
      k.pets.foldl (fun s pet => adoptFrom inner adopt pet s) { s with world := w })

/-- A PET of a launch before its entry, with what it starts from. -/
def PetRun.start (entered : List ExecutionContext) (scope : Scope) (pet : LaunchedPet) :
    PetRun where
  slot := pet.slot
  handle := pet.handle
  letIn := entered.contains pet.handle.context
  scope := scope.forPet pet.handle

/-- The children to be of a launch, whose PETs start from the objects of the one who launches. -/
def kidsOf (entered : List ExecutionContext) (spawned : Spawned) (scope : Scope)
    (entry : List (List Step)) (cargo : Json.Value) : Kids where
  spawned
  pets := (spawned.children.flatMap LaunchedChild.pets).map (PetRun.start entered scope)
  entry
  cargo

/-- An error as the answers of a session tell it. The number of a thread depends on all that goes on in
the process around the session, so a thread without a name is told without its number. -/
def tell (context : ExecutionContext) (e : VmError) : VmError :=
  match context with
  | .thread _ none => if e = .noContext context.label then .noContext "ThreadId" else e
  | _ => e

/-- Whether a PET's current VM is its own. -/
def runsIn (registry : Nat) (w : World) (h : VmHandle) : Bool :=
  match w.site? registry with
  | none => false
  | some s =>
    match s.current (.pet h.vm.id h.localPet) with
    | .ok here => here.sameVm h
    | .error _ => false

/-- Spawns one child of a VM; each of its PETs notes where it is, and the first does the same
again for the levels that are left. -/
def nest (registry : Nat) (policy : SpawnPolicy) :
    (levels : Nat) → ExecutionContext → VmHandle → World → List NestItem × World
  | 0, _, _, w => ([], w)
  | levels + 1, context, parent, w =>
    match SpawnPlan.build parent 1 policy with
    | .error e => ([.refused e], w)
    | .ok plan =>
      match w.onSite registry (.error .notInitialized) (Site.startup .ample context plan) with
      | (.error e, w) => ([.refused (tell context e)], w)
      | (.ok spawned, w) =>
        let handles := spawned.children.flatMap fun c =>
          (List.range c.vm.petCount).map fun pet => (⟨c.vm, pet⟩ : VmHandle)
        let (items, w) := handles.foldl
          (fun (items, w) h =>
            let item := NestItem.record h.vm (runsIn registry w h)
            let (below, w) :=
              if h.localPet = 0 then nest registry policy levels (.pet h.vm.id 0) h w else ([], w)
            (items ++ item :: below, w.forget (.pet h.vm.id h.localPet)))
          ([], w)
        let (_, w) := w.onSite registry () fun s => ((), s.retireAll spawned.children)
        (items, w)

end VirtualTopology.Session
