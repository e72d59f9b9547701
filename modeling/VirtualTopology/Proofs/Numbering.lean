import VirtualTopology.Proofs.Sharing
import VirtualTopology.Proofs.Traffic

/-!
# The numbers of a local transport

A local transport gives its communicators the numbers from one, in the order they are asked for. A
communicator that it gave is open as long as it is in the table under its number, whatever calls are
made and in whatever order: communicators may be derived from any that are open, released twice, and
shut down through any that is open. A call that is refused changes nothing, so it uses up no number.

Beside the transport stands what it gave out so far, which no call reads. Others may use the fabric
in between, for communicators of their own and to send and receive.

## Main definitions

- `Issuer`: a local transport with the communicators that it gave.
- `Issuer.Step`, `Issuer.Reachable`: a call, and what runs come to.
- `Issuer.Numbered`: what every step keeps.
- `Issuer.Orderly`: how the next call is answered, and what it does.

## Main statements

- `LocalTransport.release_of_find?`, `LocalTransport.isClosed_eq_false_iff`: whom a release closes,
  and what is open.
- `Issuer.Numbered.step`, `Issuer.Reachable.numbered`: one step, and every run.
- `Issuer.Reachable.calls_orderly`: the calls at every moment of every run.
-/

namespace VirtualTopology

/-! ### Calls about communicators that were given -/

namespace LocalTransport

variable {given : List Communicator} {net net' : Fabric × LocalTransport}
  {c d found parent world : Communicator} {size : Nat}

/-- The communicator that a number stands for in the table was given under it. -/
theorem eq_of_find? (h : Tracks given net) (hc : c ∈ given) (hd : net.2.find? c.id = some d) :
    d = c := by
  have hid : d.id = c.id := by simpa using List.find?_some hd
  exact List.inj_on_of_nodup_map h.ids (h.live d (List.mem_of_find?_eq_some hd)) hc hid

theorem find?_eq_some_iff (hi : Intact net) : net.2.find? c.id = some c ↔ c ∈ net.2.live :=
  ⟨List.mem_of_find?_eq_some, find?_eq_some_of_key hi.ids⟩

theorem find?_eq_none (h : Tracks given net) (hc : c ∈ given) (hlive : c ∉ net.2.live) :
    net.2.find? c.id = none := by
  cases hfind : net.2.find? c.id with
  | none => rfl
  | some d => exact absurd (eq_of_find? h hc hfind ▸ List.mem_of_find?_eq_some hfind) hlive

/-- What is open was not taken back, and what is in the table is open. -/
theorem isClosed_eq_false_iff (h : Tracks given net) (hi : Intact net) (hc : c ∈ given) :
    net.1.isClosed c = false ↔ c ∈ net.2.live := by
  constructor
  · intro hopen
    by_contra hlive
    rw [h.shut c hc hlive] at hopen
    cases hopen
  · exact hi.opened c

/-- A release goes by number. -/
theorem release_of_find? (h : net.2.find? c.id = some found) :
    release c net =
      (.ok (), net.1.close found, { net.2 with live := net.2.live.filter (·.id != c.id) }) := by
  simp only [release, h]

theorem release_of_find?_eq_none (h : net.2.find? c.id = none) : release c net = (.ok (), net) := by
  simp only [release, h]

theorem release_of_mem_live (hi : Intact net) (hlive : c ∈ net.2.live) :
    release c net =
      (.ok (), net.1.close c, { net.2 with live := net.2.live.filter (·.id != c.id) }) :=
  release_of_find? ((find?_eq_some_iff hi).2 hlive)

theorem release_of_notMem_live (h : Tracks given net) (hc : c ∈ given) (hlive : c ∉ net.2.live) :
    release c net = (.ok (), net) :=
  release_of_find?_eq_none (find?_eq_none h hc hlive)

theorem create_of_valid (net : Fabric × LocalTransport) (hpos : 1 ≤ size)
    (hmax : size ≤ Limits.maxCommunicatorSize) :
    create size net = (.ok (net.1.allocate net.2.next size).1,
      (net.1.allocate net.2.next size).2,
      { next := net.2.next + 1, live := net.2.live ++ [(net.1.allocate net.2.next size).1] }) := by
  simp [create, validSize, hpos, hmax]

theorem create_of_invalid (net : Fabric × LocalTransport) (size : Nat)
    (h : size = 0 ∨ Limits.maxCommunicatorSize < size) :
    create size net = (.error (.invalidSize size Limits.maxCommunicatorSize), net) := by
  have hsize : validSize size = false := by
    simp only [validSize, Bool.and_eq_false_iff, decide_eq_false_iff_not]
    omega
  simp [create, hsize]

theorem derive_of_open (h : net.1.isClosed parent = false) (size : Nat) :
    derive parent size net = create size net := by
  simp [derive, h]

theorem derive_of_closed (h : net.1.isClosed parent = true) (size : Nat) :
    derive parent size net = (.error (.closed parent.id), net) := by
  simp [derive, h]

theorem finalize_of_open (h : net.1.isClosed world = false) :
    finalize world net = (.ok (), net.1.closeAll net.2.live, { net.2 with live := [] }) := by
  simp [finalize, h]

theorem finalize_of_closed (h : net.1.isClosed world = true) :
    finalize world net = (.error (.closed world.id), net) := by
  simp [finalize, h]

theorem intact_finalize (hi : Intact net) (world : Communicator) :
    Intact (finalize world net).2 := by
  cases hworld : net.1.isClosed world with
  | true =>
    rw [finalize_of_closed hworld]
    exact hi
  | false => exact (finalize_eq hworld).1

@[simp] theorem next_release (c : Communicator) (net : Fabric × LocalTransport) :
    (release c net).2.2.next = net.2.next := by
  unfold release
  dsimp only
  split <;> rfl

@[simp] theorem next_finalize (world : Communicator) (net : Fabric × LocalTransport) :
    (finalize world net).2.2.next = net.2.next := by
  unfold finalize
  dsimp only
  split <;> rfl

theorem meshOf_create (size : Nat) (h : d.mesh < net.1.meshes.size) :
    (create size net).2.1.meshOf d = net.1.meshOf d := by
  unfold create
  dsimp only
  split
  · exact Fabric.meshOf_allocate net.2.next size h
  · rfl

theorem isClosed_create (size : Nat) (h : d.mesh < net.1.meshes.size) :
    (create size net).2.1.isClosed d = net.1.isClosed d := by
  rw [Fabric.isClosed, meshOf_create size h, Fabric.isClosed]

/-- Nothing is opened again. -/
theorem isClosed_release (c : Communicator) (h : net.1.isClosed d = true) :
    (release c net).2.1.isClosed d = true := by
  unfold release
  dsimp only
  split
  · exact h
  · rw [Fabric.isClosed_close, h, Bool.or_true]

theorem isClosed_finalize (world : Communicator) (h : net.1.isClosed d = true) :
    (finalize world net).2.1.isClosed d = true := by
  unfold finalize
  dsimp only
  split
  · exact h
  · rw [Fabric.isClosed_closeAll, h, Bool.or_true]

end LocalTransport

open LocalTransport (Tracks Intact)

/-! ### Runs -/

/-- A local transport and the fabric it is on, with the communicators it gave so far, oldest
first. -/
structure Issuer where
  net : Fabric × LocalTransport
  given : List Communicator := []

namespace Issuer

/-- What comes of a call for a communicator. -/
def note (a : Issuer) : Reply (Fabric × LocalTransport) Communicator → Issuer
  | (.ok c, net) => ⟨net, a.given ++ [c]⟩
  | (.error _, net) => ⟨net, a.given⟩

def init (size : Nat) (a : Issuer) : Issuer := a.note (LocalTransport.transport.init size a.net)

def derive (parent : Communicator) (size : Nat) (a : Issuer) : Issuer :=
  a.note (LocalTransport.transport.derive parent size a.net)

def release (c : Communicator) (a : Issuer) : Issuer :=
  { a with net := (LocalTransport.transport.release c a.net).2 }

def finalize (world : Communicator) (a : Issuer) : Issuer :=
  { a with net := (LocalTransport.transport.finalize world a.net).2 }

/-- The calls there may be next, about communicators that were given, and what others may do. -/
inductive Step : Issuer → Issuer → Prop
  | init {a} (size : Nat) : Step a (a.init size)
  | derive {a parent} (known : parent ∈ a.given) (size : Nat) : Step a (a.derive parent size)
  | release {a c} (known : c ∈ a.given) : Step a (a.release c)
  | finalize {a world} (known : world ∈ a.given) : Step a (a.finalize world)
  | meanwhile {a fabric} (use : a.net.1.Use a.net.2.live fabric) :
      Step a { a with net := (fabric, a.net.2) }

/-- What runs come to that begin with a new transport on any fabric. -/
inductive Reachable : Issuer → Prop
  | start (fabric : Fabric) : Reachable { net := (fabric, {}) }
  | step {a b} (h : Reachable a) (next : Step a b) : Reachable b

/-- What was given has the numbers from one and mailboxes of its own, and all but what is in the
table is closed. -/
structure Numbered (a : Issuer) : Prop where
  tracks : Tracks a.given a.net
  intact : Intact a.net
  meshes : (a.given.map Communicator.mesh).Nodup
  ids : a.given.map Communicator.id = List.range' 1 a.given.length
  next : a.net.2.next = a.given.length + 1

variable {a b : Issuer} {c d world parent : Communicator} {size : Nat}
  {answer : Reply (Fabric × LocalTransport) Communicator}

namespace Numbered

theorem start (fabric : Fabric) : Numbered { net := (fabric, {}) } where
  tracks := ⟨List.nodup_nil, by simp, by simp, by simp⟩
  intact := ⟨List.nodup_nil, List.nodup_nil, by simp, by simp⟩
  meshes := List.nodup_nil
  ids := rfl
  next := rfl

theorem init (h : a.Numbered) (size : Nat) : (a.init size).Numbered := by
  by_cases hsize : 1 ≤ size ∧ size ≤ Limits.maxCommunicatorSize
  · have hcreate := LocalTransport.create_of_valid a.net hsize.1 hsize.2
    have hinit : a.init size = a.note (LocalTransport.create size a.net) := rfl
    rw [hinit, hcreate]
    refine ⟨LocalTransport.tracks_create h.tracks hcreate,
      (LocalTransport.create_eq_ok h.intact hcreate).1, ?_, ?_, ?_⟩
    · exact nodup_map_concat h.meshes fun d hd => Nat.ne_of_lt (h.tracks.earlier d hd).2
    · show List.map _ (a.given ++ [_]) = List.range' 1 (a.given ++ [_]).length
      rw [List.map_append, h.ids, List.length_append, List.length_singleton, List.range'_concat]
      simp [Fabric.allocate, h.next, Nat.add_comm]
    · show a.net.2.next + 1 = (a.given ++ [_]).length + 1
      rw [h.next, List.length_append, List.length_singleton]
  · have hcreate := LocalTransport.create_of_invalid a.net size (by omega)
    have hinit : a.init size = a.note (LocalTransport.create size a.net) := rfl
    rw [hinit, hcreate]
    exact h

theorem derive (h : a.Numbered) (parent : Communicator) (size : Nat) :
    (a.derive parent size).Numbered := by
  have hderive : a.derive parent size = a.note (LocalTransport.derive parent size a.net) := rfl
  cases hparent : a.net.1.isClosed parent with
  | true =>
    rw [hderive, LocalTransport.derive_of_closed hparent]
    exact h
  | false =>
    rw [hderive, LocalTransport.derive_of_open hparent]
    exact h.init size

theorem release (h : a.Numbered) (hc : c ∈ a.given) : (a.release c).Numbered where
  tracks := LocalTransport.tracks_release h.tracks c
  intact := LocalTransport.intact_release h.tracks h.intact hc
  meshes := h.meshes
  ids := h.ids
  next := (LocalTransport.next_release c a.net).trans h.next

theorem finalize (h : a.Numbered) (world : Communicator) : (a.finalize world).Numbered where
  tracks := LocalTransport.tracks_finalize h.tracks world
  intact := LocalTransport.intact_finalize h.intact world
  meshes := h.meshes
  ids := h.ids
  next := (LocalTransport.next_finalize world a.net).trans h.next

theorem meanwhile (h : a.Numbered) {fabric : Fabric} (use : a.net.1.Use a.net.2.live fabric) :
    Numbered { a with net := (fabric, a.net.2) } where
  tracks := LocalTransport.tracks_use h.tracks rfl use
  intact := LocalTransport.intact_mono h.intact rfl use.keeps.1 use.keeps.2.2
  meshes := h.meshes
  ids := h.ids
  next := h.next

theorem step (h : a.Numbered) (next : Step a b) : b.Numbered := by
  cases next with
  | init size => exact h.init size
  | derive known size => exact h.derive _ size
  | release known => exact h.release known
  | finalize known => exact h.finalize _
  | meanwhile use => exact h.meanwhile use

end Numbered

theorem Reachable.numbered (h : a.Reachable) : a.Numbered := by
  induction h with
  | start fabric => exact .start fabric
  | step _ next ih => exact ih.step next

theorem net_note (a : Issuer) : (a.note answer).net = answer.2 := by
  obtain ⟨_ | _, _⟩ := answer <;> rfl

theorem prefix_note (a : Issuer) : a.given <+: (a.note answer).given := by
  obtain ⟨_ | c, _⟩ := answer
  · exact List.prefix_rfl
  · exact List.prefix_append _ _

/-- What was given stays given, and what is closed stays closed. -/
theorem Step.keeps (next : Step a b) (h : a.Numbered) :
    a.given <+: b.given ∧ ∀ c ∈ a.given, a.net.1.isClosed c = true → b.net.1.isClosed c = true := by
  have hcreate : ∀ size, ∀ c ∈ a.given, a.net.1.isClosed c = true →
      (LocalTransport.create size a.net).2.1.isClosed c = true := by
    intro size c hc hclosed
    rwa [LocalTransport.isClosed_create size (h.tracks.earlier c hc).2]
  cases next with
  | init size =>
    refine ⟨prefix_note a, fun c hc hclosed => ?_⟩
    rw [Issuer.init, net_note]
    exact hcreate size c hc hclosed
  | @derive parent known size =>
    refine ⟨prefix_note a, fun c hc hclosed => ?_⟩
    rw [Issuer.derive, net_note]
    show (LocalTransport.derive parent size a.net).2.1.isClosed c = true
    cases hparent : a.net.1.isClosed parent with
    | true => rwa [LocalTransport.derive_of_closed hparent]
    | false =>
      rw [LocalTransport.derive_of_open hparent]
      exact hcreate size c hc hclosed
  | release known =>
    exact ⟨List.prefix_rfl, fun c _ => LocalTransport.isClosed_release _⟩
  | finalize known =>
    exact ⟨List.prefix_rfl, fun c _ => LocalTransport.isClosed_finalize _⟩
  | meanwhile use =>
    exact ⟨List.prefix_rfl, fun c hc => use.keeps.2.1 c (h.tracks.earlier c hc).2⟩

theorem Numbered.keeps (h : a.Numbered) (hrun : Relation.ReflTransGen Step a b) :
    a.given <+: b.given ∧ b.Numbered ∧
      ∀ c ∈ a.given, a.net.1.isClosed c = true → b.net.1.isClosed c = true := by
  induction hrun with
  | refl => exact ⟨List.prefix_rfl, h, fun _ _ hclosed => hclosed⟩
  | tail _ next ih =>
    obtain ⟨hgiven, hnumbered, hclosed⟩ := ih
    obtain ⟨hgiven', hclosed'⟩ := next.keeps hnumbered
    exact ⟨hgiven.trans hgiven', hnumbered.step next,
      fun c hc hc' => hclosed' c (hgiven.subset hc) (hclosed c hc hc')⟩

/-! ### Calls -/

open LocalTransport (transport)

/-- How the calls are answered and what they do, about communicators that were given. -/
structure Orderly (a : Issuer) : Prop where
  /-- The numbers are 1, 2, 3 and so on. -/
  ids : a.given.map Communicator.id = List.range' 1 a.given.length
  next : a.net.2.next = a.given.length + 1
  table : ∀ c ∈ a.net.2.live, c ∈ a.given
  open_iff : ∀ c ∈ a.given, a.net.1.isClosed c = false ↔ a.net.2.find? c.id = some c
  /-- A size there can be is given the next number; all others stay as they are. -/
  init_valid : ∀ size, 1 ≤ size → size ≤ Limits.maxCommunicatorSize →
    ∃ c net, transport.init size a.net = (.ok c, net) ∧ c.id = a.given.length + 1 ∧ c.size = size ∧
      net.1.isClosed c = false ∧ net.2.find? c.id = some c ∧
      ∀ d ∈ a.given, net.1.meshOf d = a.net.1.meshOf d ∧ net.2.find? d.id = a.net.2.find? d.id
  init_invalid : ∀ size, size = 0 ∨ Limits.maxCommunicatorSize < size →
    transport.init size a.net = (.error (.invalidSize size Limits.maxCommunicatorSize), a.net)
  derive_open : ∀ parent ∈ a.given, a.net.1.isClosed parent = false → ∀ size,
    transport.derive parent size a.net = transport.init size a.net
  /-- A closed parent is noticed whatever the size. -/
  derive_closed : ∀ parent ∈ a.given, a.net.1.isClosed parent = true → ∀ size,
    transport.derive parent size a.net = (.error (.closed parent.id), a.net)
  /-- What is released is closed; all others stay as they are, with what is under way on them. -/
  release_open : ∀ c ∈ a.given, a.net.1.isClosed c = false →
    ∃ net, transport.release c a.net = (.ok (), net) ∧ net.2.next = a.net.2.next ∧
      net.1.isClosed c = true ∧ net.2.find? c.id = none ∧
      transport.release c net = (.ok (), net) ∧ ∀ d ∈ a.given, d ≠ c →
        net.1.meshOf d = a.net.1.meshOf d ∧ net.2.find? d.id = a.net.2.find? d.id
  /-- What is closed may be released again at any time. -/
  release_closed : ∀ c ∈ a.given, a.net.1.isClosed c = true →
    transport.release c a.net = (.ok (), a.net)
  /-- Once a world is shut down nothing that was given is open, and nothing is ever again. -/
  finalize_open : ∀ world ∈ a.given, a.net.1.isClosed world = false →
    ∃ net, transport.finalize world a.net = (.ok (), net) ∧ net.2.next = a.net.2.next ∧
      net.2.live = [] ∧
      ∀ b, Relation.ReflTransGen Step ⟨net, a.given⟩ b →
        (∀ c ∈ a.given, c ∈ b.given ∧ b.net.1.isClosed c = true ∧ b.net.2.find? c.id = none) ∧
        ∀ size, 1 ≤ size → size ≤ Limits.maxCommunicatorSize →
          ∃ c net, transport.init size b.net = (.ok c, net) ∧ net.1.isClosed c = false
  finalize_closed : ∀ world ∈ a.given, a.net.1.isClosed world = true →
    transport.finalize world a.net = (.error (.closed world.id), a.net)

namespace Numbered

theorem find?_of_closed (h : a.Numbered) (hc : c ∈ a.given) (hclosed : a.net.1.isClosed c = true) :
    c ∉ a.net.2.live ∧ a.net.2.find? c.id = none := by
  have hlive : c ∉ a.net.2.live := fun hlive => by
    rw [h.intact.opened c hlive] at hclosed
    cases hclosed
  exact ⟨hlive, LocalTransport.find?_eq_none h.tracks hc hlive⟩

theorem init_valid (h : a.Numbered) (hpos : 1 ≤ size) (hmax : size ≤ Limits.maxCommunicatorSize) :
    ∃ c net, transport.init size a.net = (.ok c, net) ∧ c.id = a.given.length + 1 ∧ c.size = size ∧
      net.1.isClosed c = false ∧ net.2.find? c.id = some c ∧
      ∀ d ∈ a.given, net.1.meshOf d = a.net.1.meshOf d ∧
        net.2.find? d.id = a.net.2.find? d.id := by
  have hcreate := LocalTransport.create_of_valid a.net hpos hmax
  obtain ⟨hintact, hlive⟩ := LocalTransport.create_eq_ok h.intact hcreate
  refine ⟨_, _, hcreate, h.next, rfl, Fabric.isClosed_allocate_self _ _, ?_, fun d hd => ⟨?_, ?_⟩⟩
  · exact (LocalTransport.find?_eq_some_iff hintact).2 (List.mem_append_right _ (by simp))
  · exact Fabric.meshOf_allocate a.net.2.next size (h.tracks.earlier d hd).2
  · -- The number is new, so nobody else is looked for under it.
    have hne : a.net.2.next ≠ d.id := Ne.symm (Nat.ne_of_lt (h.tracks.earlier d hd).1)
    simp [LocalTransport.find?, List.find?_append, Fabric.allocate, hne]

theorem release_open (h : a.Numbered) (hc : c ∈ a.given) (hopen : a.net.1.isClosed c = false) :
    ∃ net, transport.release c a.net = (.ok (), net) ∧ net.2.next = a.net.2.next ∧
      net.1.isClosed c = true ∧ net.2.find? c.id = none ∧
      transport.release c net = (.ok (), net) ∧ ∀ d ∈ a.given, d ≠ c →
        net.1.meshOf d = a.net.1.meshOf d ∧ net.2.find? d.id = a.net.2.find? d.id := by
  have hlive := (LocalTransport.isClosed_eq_false_iff h.tracks h.intact hc).1 hopen
  let left : Fabric × LocalTransport :=
    (a.net.1.close c, { a.net.2 with live := a.net.2.live.filter (·.id != c.id) })
  have hgone : left.2.find? c.id = none := by simp [left, LocalTransport.find?]
  refine ⟨left, LocalTransport.release_of_mem_live h.intact hlive, rfl, ?_, hgone, ?_,
    fun d hd hne => ⟨?_, ?_⟩⟩
  · simp [left, Fabric.isClosed_close]
  · exact LocalTransport.release_of_find?_eq_none hgone
  · exact Fabric.meshOf_close_of_ne fun hmesh => hne (List.inj_on_of_nodup_map h.meshes hd hc hmesh)
  · have hid : d.id ≠ c.id := fun hid => hne (List.inj_on_of_nodup_map h.tracks.ids hd hc hid)
    rw [LocalTransport.find?, List.find?_filter, LocalTransport.find?]
    congr 1
    funext x
    by_cases hx : x.id = d.id
    · simp [hx, hid]
    · simp [hx]

theorem finalize_open (h : a.Numbered) (hopen : a.net.1.isClosed world = false) :
    ∃ net, transport.finalize world a.net = (.ok (), net) ∧ net.2.next = a.net.2.next ∧
      net.2.live = [] ∧
      ∀ b, Relation.ReflTransGen Step ⟨net, a.given⟩ b →
        (∀ c ∈ a.given, c ∈ b.given ∧ b.net.1.isClosed c = true ∧ b.net.2.find? c.id = none) ∧
        ∀ size, 1 ≤ size → size ≤ Limits.maxCommunicatorSize →
          ∃ c net, transport.init size b.net = (.ok c, net) ∧ net.1.isClosed c = false := by
  refine ⟨_, LocalTransport.finalize_of_open hopen, rfl, rfl, fun b hrun => ?_⟩
  have hshut : a.finalize world =
      ⟨(a.net.1.closeAll a.net.2.live, { a.net.2 with live := [] }), a.given⟩ :=
    congrArg (fun r => Issuer.mk r.2 a.given) (LocalTransport.finalize_of_open hopen)
  have hnumbered := h.finalize world
  obtain ⟨hgiven, hafter, hkeeps⟩ := hnumbered.keeps (hshut ▸ hrun)
  refine ⟨fun c hc => ?_, fun size hpos hmax => ?_⟩
  · have hclosed : (a.finalize world).net.1.isClosed c = true := by
      refine hnumbered.tracks.shut c hc ?_
      rw [hshut]
      exact List.not_mem_nil
    have hlater := hkeeps c hc hclosed
    exact ⟨hgiven.subset hc, hlater, (hafter.find?_of_closed (hgiven.subset hc) hlater).2⟩
  · obtain ⟨c, net, hinit, _, _, hfresh, _⟩ := hafter.init_valid hpos hmax
    exact ⟨c, net, hinit, hfresh⟩

end Numbered

/-- Every call at every moment of every run. -/
theorem Reachable.calls_orderly (h : a.Reachable) : a.Orderly := by
  have hn := h.numbered
  exact
    { ids := hn.ids
      next := hn.next
      table := hn.tracks.live
      open_iff := fun c hc => (LocalTransport.isClosed_eq_false_iff hn.tracks hn.intact hc).trans
        (LocalTransport.find?_eq_some_iff hn.intact).symm
      init_valid := fun size => hn.init_valid
      init_invalid := LocalTransport.create_of_invalid a.net
      derive_open := fun _ _ => LocalTransport.derive_of_open
      derive_closed := fun _ _ => LocalTransport.derive_of_closed
      release_open := fun c => hn.release_open
      release_closed := fun c hc hclosed =>
        LocalTransport.release_of_notMem_live hn.tracks hc (hn.find?_of_closed hc hclosed).1
      finalize_open := fun _ _ => hn.finalize_open
      finalize_closed := fun world _ => LocalTransport.finalize_of_closed }

/-- A transport that was brought up, had a child, lost both and was brought up again. -/
def revived : Issuer :=
  let world : Communicator := ⟨1, 4, 0⟩
  let child : Communicator := ⟨2, 2, 1⟩
  ((((Issuer.init 4 { net := ({}, {}) }).derive world 2).release child).finalize world).init 3

theorem reachable_revived : revived.Reachable := by
  refine .step (.step (.step (.step (.step (.start {}) (.init 4)) (.derive ?_ 2)) (.release ?_))
    (.finalize ?_)) (.init 3)
  · decide
  · decide
  · decide

theorem orderly_revived : revived.given.map Communicator.id = [1, 2, 3] ∧ revived.Orderly :=
  ⟨by decide, Reachable.calls_orderly reachable_revived⟩

end Issuer

end VirtualTopology
