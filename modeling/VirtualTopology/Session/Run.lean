import VirtualTopology.Session.Actions

/-!
# Running a session

Steps are run one after the other; a panic ends the steps it occurs in. Entries and threads are
run by a runner one level further in. How many levels a session can come to is told from how deep
its steps nest, so that a runner for that many never comes to an end of them.

## Main definitions

- `perform`: one step.
- `runSteps`: steps until the last or a panic.
- `Runner.levels`: the runner for a number of levels.
- `levelsNeeded`: the levels that steps can come to.
- `answers`: the answers of a session.
-/

namespace VirtualTopology.Session

/-- What performing a step came to. -/
inductive Performed where
  | answer (a : Answer)
  | panicked (payload : PanicPayload)

/-- What an action came to, as a step that did not panic. -/
def done : Answer × Scene → Performed × Scene
  | (a, s) => (.answer a, s)

/-- Runs steps in a new thread; a panic there goes on here. -/
def inThread (inner : Runner) (frame : Frame) (name : Option String) (steps : List Step)
    (s : Scene) : Performed × Scene :=
  let context := ExecutionContext.thread s.world.nextThread name
  let s := { s with world.nextThread := s.world.nextThread + 1 }
  let ((answers, panicked), s) := inner.steps { frame with context } steps s
  let s := { s with world := s.world.forget context }
  match panicked with
  | some payload => (.panicked payload, s)
  | none => (.answer (.steps answers), s)

/-- Whether a step for one slot or one PET number is for this frame. -/
def Frame.isMeant (frame : Frame) (slot pet : Option Nat) : Bool :=
  match frame.pet with
  | none => true
  | some (s, p, _) => slot.all (· == s) && pet.all (· == p)

/-- Performs a step. -/
def perform (inner : Runner) (frame : Frame) : Step → Scene → Performed × Scene
  | .registry as config transport, s => done (makeRegistry inner as config transport s)
  | .bringUp reg as, s => done (bringUp inner frame reg as s)
  | .takeDown reg, s => done (takeDown frame reg s)
  | .global reg as, s => done (global inner reg as s)
  | .current reg as, s => done (current inner frame reg as s)
  | .registryState reg, s => done (registryState reg s)
  | .topology reg, s =>
    done (onRegistry reg (fun site => answerOf .topology site.registry.topologyOrError) s)
  | .childState reg vm, s =>
    done (onRegistry reg (fun site => .childState (site.registry.childState? vm)) s)
  | .peOwner reg pe, s => done (onRegistry reg (fun site => .owner (site.registry.owner? pe)) s)
  | .describe name, s => done (describe name s)
  | .vm vm, s => done (withVm vm (fun h => answering fun s => .vm (s.world.vmStatus h)) s)
  | .vmInfo vm, s => done (vmInfo vm s)
  | .report vm, s => done (withVm vm (fun h => answering fun _ => .report h.report) s)
  | .pet vm pet, s => done (showPet vm pet s)
  | .matchAll vm pet other, s => done (matchAll vm pet other s)
  | .matchInto vm pet other capacity, s => done (matchInto vm pet other capacity s)
  | .sameVm vm other, s =>
    done (withVm vm (fun a => withVm other fun b => answering fun _ => .flag (a.sameVm b)) s)
  | .view as vms id, s => done (makeView inner as vms id s)
  | .plan vm count policy as, s => done (makePlan inner vm count policy as s)
  | .planSlot plan slot, s => done (planSlot plan slot s)
  | .startup reg plan as entry cargo, s => done (startup inner frame reg plan as entry cargo s)
  | .kids name, s => done (showKids name s)
  | .child name slot as, s => done (showChild inner name slot as s)
  | .release name, s => done (releaseKids inner name s)
  | .join name adopt, s => done (joinKids inner name adopt s)
  | .drop name, s => done (dropNamed inner name s)
  | .nest reg vm levels policy, s => done (nestChildren frame reg vm levels policy s)
  | .inThread name steps, s => inThread inner frame name steps s
  | .cargo, s => (.answer (.cargo (frame.pet.elim .null (·.2.2))), s)
  | .panic payload, s =>
    if frame.pet.isSome then (.panicked payload, s) else (.answer .unknownStep, s)
  | .transport as b, s => done (makeTransport inner as b s)
  | .transportInit transport size as, s =>
    done (withTransport transport (fun key => transportMake inner as key (·.init size)) s)
  | .transportDerive transport parent size as, s =>
    done (withTransport transport (fun key => withCommunicator parent fun c =>
      transportMake inner as key (·.derive c size)) s)
  | .transportRelease transport comm, s =>
    done (transportCall transport comm (fun c t => t.release c) s)
  | .transportFinalize transport comm, s =>
    done (transportCall transport comm (fun c t => t.finalize c) s)
  | .calls transport, s => done (showCalls transport s)
  | .communicatorOf as vm, s =>
    done (withVm vm (fun h => gotCommunicator inner as h.vm.communicator) s)
  | .freshCommunicator as id size, s => done (freshCommunicator inner as id size s)
  | .communicator comm, s =>
    done (withCommunicator comm
      (fun c => answering fun s => .communicator c (s.world.fabric.isClosed c)) s)
  | .sameCommunicator comm other, s =>
    done (withCommunicator comm (fun a => withCommunicator other fun b =>
      answering fun _ => .flag (a.same b)) s)
  | .endpointOf as vm, s => done (withVm vm (fun h => gotEndpoint inner as h.endpoint) s)
  | .endpoint as comm rank, s =>
    done (withCommunicator comm (fun c => gotEndpoint inner as (c.endpoint rank)) s)
  | .send ep target payload, s =>
    done (onEndpoint ep (fun _ => .ok) (fun e => e.send target payload) s)
  | .receive ep, s => done (onEndpoint ep showEnvelope Endpoint.receive s)
  | .tryReceive ep, s => done (onEndpoint ep showEnvelope Endpoint.receive s)
  | .receiveWhileReleasing ep transport comm, s =>
    done (receiveWhileReleasing ep transport comm s)
  | .only slot pet step, s =>
    if frame.isMeant slot pet then perform inner frame step s else (.answer .skipped, s)
  | .unknown, s => (.answer .unknownStep, s)

/-- Runs steps until the last or a panic. -/
def runSteps (inner : Runner) (frame : Frame) : List Step → Scene → RunResult × Scene
  | [], s => (([], none), s)
  | step :: steps, s =>
    match perform inner frame step s with
    | (.panicked payload, s) => (([], some payload), s)
    | (.answer a, s) =>
      let ((answers, panicked), s) := runSteps inner frame steps s
      ((a :: answers, panicked), s)

/-- The runner for a number of levels. -/
def Runner.levels : Nat → Runner
  | 0 => .idle
  | n + 1 => ⟨runSteps (levels n), endKids (levels n)⟩

/-- The levels that steps of a depth can come to. Threads may nest as deep as the steps do before
the innermost lets children run, whose entries are less deep by one. -/
def levelsNeeded : (depth : Nat) → Nat
  | 0 => 1
  | depth + 1 => levelsNeeded depth + depth + 2

/-- The answers of a session, run in the main thread of a fresh world. -/
def answers (steps : List Step) : List Answer :=
  ((Runner.levels (levelsNeeded (stepsDepth steps))).steps ⟨.main, none⟩ steps {}).1.1

end VirtualTopology.Session
