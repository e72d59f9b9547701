import VirtualTopology.Proofs.Numbering

/-!
# Releases by number

Every local transport numbers its communicators from one, so as soon as there are two of them their
numbers clash. A release goes by number alone. Of all the communicators there are, whoever made
them, it closes the one that the transport itself gave under the number of the argument, if that is
open still, and it leaves all others as they are, with what is under way on them.

For a communicator that the transport gave this is the argument itself. Any other argument, be it of
another transport or made by hand, stands for one that has its number by chance.

## Main definitions

- `Neighborhood`: local transports on one fabric, with the communicators there are.
- `Neighborhood.Step`, `Neighborhood.Reachable`: a call on any of them, and what runs come to.
- `Neighborhood.Apart`: what every step keeps.
- `Neighborhood.Hits`: whom a release closes.

## Main statements

- `Neighborhood.Apart.step`, `Neighborhood.Reachable.apart`: one step, and every run.
- `Neighborhood.Reachable.release_iff`: what a release does to each communicator.
- `Neighborhood.not_always_spared`: two transports with a communicator of the same number.
-/

namespace VirtualTopology

open LocalTransport (Tracks Intact transport)

namespace LocalTransport

variable {net : Fabric × LocalTransport}

/-- A release of whatever communicator does what a release of the one that has its number does. -/
theorem intact_release_any (hi : Intact net) (c : Communicator) : Intact (release c net).2 := by
  cases hfind : net.2.find? c.id with
  | none => rwa [release_of_find?_eq_none hfind]
  | some found =>
    have hid : found.id = c.id := by simpa using List.find?_some hfind
    obtain ⟨before, after, hsplit⟩ := List.append_of_mem (List.mem_of_find?_eq_some hfind)
    have hsame : release c net = release found net := by
      rw [release_of_find? hfind, release_of_find? (hid ▸ hfind), hid]
    rw [hsame]
    exact (release_eq hi hsplit).1

end LocalTransport

/-- Local transports on one fabric, with the communicators that each gave and those that were made
by hand. -/
structure Neighborhood where
  fabric : Fabric
  transports : Nat → LocalTransport := fun _ => {}
  given : Nat → List Communicator := fun _ => []
  loose : List Communicator := []

namespace Neighborhood

/-- A transport together with the fabric. -/
def net (n : Neighborhood) (i : Nat) : Fabric × LocalTransport := (n.fabric, n.transports i)

/-- The communicators there are. -/
def Knows (n : Neighborhood) (c : Communicator) : Prop := (∃ i, c ∈ n.given i) ∨ c ∈ n.loose

/-- A transport was called, and gave something or not. -/
def enter (n : Neighborhood) (i : Nat) (news : List Communicator)
    (net : Fabric × LocalTransport) : Neighborhood where
  fabric := net.1
  transports := Function.update n.transports i net.2
  given := Function.update n.given i (n.given i ++ news)
  loose := n.loose

/-- What comes of a call for a communicator. -/
def note (n : Neighborhood) (i : Nat) :
    Reply (Fabric × LocalTransport) Communicator → Neighborhood
  | (.ok c, net) => n.enter i [c] net
  | (.error _, net) => n.enter i [] net

/-- A communicator is made by hand. -/
def make (id size : Nat) (n : Neighborhood) : Neighborhood :=
  { n with
    fabric := (n.fabric.allocate id size).2
    loose := n.loose ++ [(n.fabric.allocate id size).1] }

/-- What may happen next: a call on any transport, with any communicator whatever; or a communicator
is made by hand, or a message is sent or taken. -/
inductive Step : Neighborhood → Neighborhood → Prop
  | init {n} (i size : Nat) : Step n (n.note i (transport.init size (n.net i)))
  | derive {n} (i : Nat) (parent : Communicator) (size : Nat) :
      Step n (n.note i (transport.derive parent size (n.net i)))
  | release {n} (i : Nat) (c : Communicator) :
      Step n (n.enter i [] (transport.release c (n.net i)).2)
  | finalize {n} (i : Nat) (world : Communicator) :
      Step n (n.enter i [] (transport.finalize world (n.net i)).2)
  | make {n} (id size : Nat) : Step n (n.make id size)
  | send {n} (e : Endpoint) (target : Nat) (payload : Payload) :
      Step n { n with fabric := (e.send target payload n.fabric).2 }
  | receive {n} (e : Endpoint) : Step n { n with fabric := (e.receive n.fabric).2 }

/-- What runs come to that begin with new transports on any fabric. -/
inductive Reachable : Neighborhood → Prop
  | start (fabric : Fabric) : Reachable { fabric }
  | step {n n'} (h : Reachable n) (next : Step n n') : Reachable n'

/-- No two communicators share mailboxes, and each was made by one transport or by hand. -/
structure Apart (n : Neighborhood) : Prop where
  tracks : ∀ i, Tracks (n.given i) (n.net i)
  intact : ∀ i, Intact (n.net i)
  made : ∀ c, n.Knows c → c.mesh < n.fabric.meshes.size
  meshes : ∀ c d, n.Knows c → n.Knows d → c.mesh = d.mesh → c = d
  giver : ∀ i j c, c ∈ n.given i → c ∈ n.given j → i = j
  loose : ∀ i c, c ∈ n.given i → c ∉ n.loose

variable {n n' : Neighborhood} {i j : Nat} {c d : Communicator} {net : Fabric × LocalTransport}
  {news : List Communicator} {fabric : Fabric}

theorem given_enter_self : (n.enter i news net).given i = n.given i ++ news :=
  Function.update_self ..

theorem given_enter_of_ne (hj : j ≠ i) : (n.enter i news net).given j = n.given j :=
  Function.update_of_ne hj ..

theorem mem_given_enter_iff :
    c ∈ (n.enter i news net).given j ↔ c ∈ n.given j ∨ j = i ∧ c ∈ news := by
  by_cases hj : j = i
  · subst hj
    simp [given_enter_self]
  · simp [given_enter_of_ne hj, hj]

theorem knows_enter_iff : (n.enter i news net).Knows c ↔ n.Knows c ∨ c ∈ news := by
  unfold Knows
  simp only [mem_given_enter_iff]
  constructor
  · rintro (⟨j, hc | ⟨_, hc⟩⟩ | hc)
    · exact .inl (.inl ⟨j, hc⟩)
    · exact .inr hc
    · exact .inl (.inr hc)
  · rintro ((⟨j, hc⟩ | hc) | hc)
    · exact .inl ⟨j, .inl hc⟩
    · exact .inr hc
    · exact .inl ⟨i, .inr ⟨rfl, hc⟩⟩

theorem net_enter_self : (n.enter i news net).net i = net := by
  simp [enter, Neighborhood.net]

theorem net_enter_of_ne (hj : j ≠ i) :
    (n.enter i news net).net j = (net.1, n.transports j) := by
  simp [enter, Neighborhood.net, hj]

namespace Apart

theorem start (fabric : Fabric) : Apart { fabric } where
  tracks i := ⟨List.nodup_nil, by simp, by simp [net], by simp⟩
  intact i := ⟨List.nodup_nil, List.nodup_nil, by simp [net], by simp [net]⟩
  made c hc := by simp [Knows] at hc
  meshes c d hc := by simp [Knows] at hc
  giver i j c hc := by simp at hc
  loose i c hc := by simp at hc

/-- What one transport gave is not on the mailboxes of what another gave. -/
theorem mesh_ne (h : n.Apart) (hij : i ≠ j) (hc : c ∈ n.given i) (hd : d ∈ n.given j) :
    c.mesh ≠ d.mesh := fun hmesh =>
  hij (h.giver i j c hc (h.meshes c d (.inl ⟨i, hc⟩) (.inl ⟨j, hd⟩) hmesh ▸ hd))

/-- A call on one transport, which opens nothing again and closes nothing that another gave. -/
theorem enter (h : n.Apart) (tracks : Tracks (n.given i ++ news) net) (intact : Intact net)
    (size : n.fabric.meshes.size ≤ net.1.meshes.size)
    (fresh : ∀ c ∈ news, n.fabric.meshes.size ≤ c.mesh)
    (single : ∀ c ∈ news, ∀ d ∈ news, c = d)
    (closed : ∀ c, c.mesh < n.fabric.meshes.size → n.fabric.isClosed c = true →
      net.1.isClosed c = true)
    (spared : ∀ j, j ≠ i → ∀ c ∈ n.given j, n.fabric.isClosed c = false →
      net.1.isClosed c = false) : (n.enter i news net).Apart := by
  have hnew : ∀ c d, n.Knows c → d ∈ news → c.mesh ≠ d.mesh := by
    intro c d hc hd hmesh
    have hlt := h.made c hc
    have hle := fresh d hd
    omega
  have hold : ∀ c, c ∈ news → ¬ n.Knows c := fun c hc hknown => hnew c c hknown hc rfl
  refine ⟨fun j => ?_, fun j => ?_, fun c hc => ?_, fun c d hc hd hmesh => ?_,
    fun j k c hc hc' => ?_, fun j c hc hloose => ?_⟩
  · by_cases hj : j = i
    · subst hj
      rw [net_enter_self, given_enter_self]
      exact tracks
    · rw [net_enter_of_ne hj, given_enter_of_ne hj]
      exact LocalTransport.tracks_mono (h.tracks j) rfl size closed
  · by_cases hj : j = i
    · subst hj
      rw [net_enter_self]
      exact intact
    · rw [net_enter_of_ne hj]
      exact LocalTransport.intact_mono (h.intact j) rfl size fun c hc =>
        spared j hj c ((h.tracks j).live c hc)
  · rcases knows_enter_iff.1 hc with hc | hc
    · exact Nat.lt_of_lt_of_le (h.made c hc) size
    · exact (tracks.earlier c (List.mem_append_right _ hc)).2
  · rcases knows_enter_iff.1 hc with hc | hc <;> rcases knows_enter_iff.1 hd with hd | hd
    · exact h.meshes c d hc hd hmesh
    · exact absurd hmesh (hnew c d hc hd)
    · exact absurd hmesh.symm (hnew d c hd hc)
    · exact single c hc d hd
  · rcases mem_given_enter_iff.1 hc with hj | ⟨rfl, hj⟩ <;>
      rcases mem_given_enter_iff.1 hc' with hk | ⟨rfl, hk⟩
    · exact h.giver j k c hj hk
    · exact absurd (.inl ⟨j, hj⟩) (hold c hk)
    · exact absurd (.inl ⟨k, hk⟩) (hold c hj)
    · rfl
  · rcases mem_given_enter_iff.1 hc with hj | ⟨rfl, hj⟩
    · exact h.loose j c hj hloose
    · exact hold c hj (.inr hloose)

/-- A call that is refused. -/
theorem refused (h : n.Apart) (i : Nat) : (n.enter i [] (n.net i)).Apart :=
  h.enter (by simpa using h.tracks i) (h.intact i) (Nat.le_refl _) (by simp) (by simp)
    (fun _ _ hclosed => hclosed) fun _ _ _ _ hopen => hopen

theorem create (h : n.Apart) (i size : Nat) :
    (n.note i (LocalTransport.create size (n.net i))).Apart := by
  have hkeeps : ∀ c, c.mesh < n.fabric.meshes.size →
      (LocalTransport.create size (n.net i)).2.1.isClosed c = n.fabric.isClosed c :=
    fun c (hc : c.mesh < (n.net i).1.meshes.size) => LocalTransport.isClosed_create size hc
  by_cases hsize : 1 ≤ size ∧ size ≤ Limits.maxCommunicatorSize
  · have hcreate := LocalTransport.create_of_valid (n.net i) hsize.1 hsize.2
    have hgrown : n.fabric.meshes.size ≤
        (n.fabric.allocate (n.transports i).next size).2.meshes.size := by
      show _ ≤ (n.fabric.meshes.push _).size
      rw [Array.size_push]
      exact Nat.le_succ _
    rw [hcreate] at hkeeps ⊢
    refine h.enter (LocalTransport.tracks_create (h.tracks i) hcreate)
      (LocalTransport.create_eq_ok (h.intact i) hcreate).1 hgrown ?_ ?_ ?_ ?_
    · intro c hc
      rw [List.mem_singleton.1 hc]
      exact Nat.le_refl _
    · intro c hc d hd
      rw [List.mem_singleton.1 hc, List.mem_singleton.1 hd]
    · exact fun c hc hclosed => (hkeeps c hc).trans hclosed
    · exact fun j _ c hc hopen => (hkeeps c ((h.tracks j).earlier c hc).2).trans hopen
  · rw [LocalTransport.create_of_invalid (n.net i) size (by omega)]
    exact h.refused i

theorem derive (h : n.Apart) (i : Nat) (parent : Communicator) (size : Nat) :
    (n.note i (LocalTransport.derive parent size (n.net i))).Apart := by
  cases hparent : (n.net i).1.isClosed parent with
  | true =>
    rw [LocalTransport.derive_of_closed hparent]
    exact h.refused i
  | false =>
    rw [LocalTransport.derive_of_open hparent]
    exact h.create i size

theorem release (h : n.Apart) (i : Nat) (c : Communicator) :
    (n.enter i [] (LocalTransport.release c (n.net i)).2).Apart := by
  cases hfind : (n.net i).2.find? c.id with
  | none =>
    rw [LocalTransport.release_of_find?_eq_none hfind]
    exact h.refused i
  | some found =>
    have hfound := (h.tracks i).live found (List.mem_of_find?_eq_some hfind)
    have hrelease := LocalTransport.release_of_find? hfind
    refine h.enter (by simpa using LocalTransport.tracks_release (h.tracks i) c)
      (LocalTransport.intact_release_any (h.intact i) c) ?_ (by simp) (by simp) ?_ ?_
    · rw [hrelease]
      exact Nat.le_of_eq Fabric.size_close.symm
    · exact fun d _ (hd : (n.net i).1.isClosed d = true) => LocalTransport.isClosed_release c hd
    · intro j hj d hd hopen
      rw [hrelease]
      exact (Fabric.isClosed_close_of_ne (h.mesh_ne hj hd hfound)).trans hopen

theorem finalize (h : n.Apart) (i : Nat) (world : Communicator) :
    (n.enter i [] (LocalTransport.finalize world (n.net i)).2).Apart := by
  cases hworld : (n.net i).1.isClosed world with
  | true =>
    rw [LocalTransport.finalize_of_closed hworld]
    exact h.refused i
  | false =>
    have hfinalize := LocalTransport.finalize_of_open hworld
    refine h.enter (by simpa using LocalTransport.tracks_finalize (h.tracks i) world)
      (LocalTransport.intact_finalize (h.intact i) world) ?_ (by simp) (by simp) ?_ ?_
    · rw [hfinalize]
      exact Nat.le_of_eq (Fabric.size_closeAll _ _).symm
    · exact fun d _ (hd : (n.net i).1.isClosed d = true) =>
        LocalTransport.isClosed_finalize world hd
    · intro j hj d hd hopen
      have hnone : (n.transports i).live.any (·.mesh = d.mesh) = false := by
        rw [List.any_eq_false]
        intro c hc
        simpa using Ne.symm (h.mesh_ne hj hd ((h.tracks i).live c hc))
      rw [hfinalize, Fabric.isClosed_closeAll]
      show ((n.transports i).live.any _ || n.fabric.isClosed d) = false
      rw [hnone, hopen]
      rfl

/-- Messages come and go, and the fabric grows. -/
theorem outside (h : n.Apart) (use : ∀ live, n.fabric.Use live fabric) :
    Apart { n with fabric } where
  tracks i := LocalTransport.tracks_use (h.tracks i) rfl (use _)
  intact i := LocalTransport.intact_mono (h.intact i) rfl (use (n.transports i).live).keeps.1
    (use _).keeps.2.2
  made c hc := Nat.lt_of_lt_of_le (h.made c hc) (use []).keeps.1
  meshes := h.meshes
  giver := h.giver
  loose := h.loose

theorem make (h : n.Apart) (id size : Nat) : (n.make id size).Apart := by
  have hgrown : (n.fabric.allocate id size).2.meshes.size = n.fabric.meshes.size + 1 :=
    Array.size_push _
  have hbefore : Apart { n with fabric := (n.fabric.allocate id size).2 } :=
    h.outside fun _ => .allocate id size
  have hknows : ∀ c, (n.make id size).Knows c → n.Knows c ∨ c = (n.fabric.allocate id size).1 := by
    rintro c (hc | hc)
    · exact .inl (.inl hc)
    · exact (List.mem_append.1 hc).imp .inr List.mem_singleton.1
  have hnew : ∀ c, n.Knows c → c.mesh ≠ (n.fabric.allocate id size).1.mesh := fun c hc =>
    Nat.ne_of_lt (h.made c hc)
  refine ⟨hbefore.tracks, hbefore.intact, fun c hc => ?_, fun c d hc hd hmesh => ?_, h.giver,
    fun i c hc hloose => ?_⟩
  · show c.mesh < (n.fabric.allocate id size).2.meshes.size
    rw [hgrown]
    rcases hknows c hc with hc | rfl
    · exact Nat.lt_succ_of_lt (h.made c hc)
    · exact Nat.lt_succ_self _
  · rcases hknows c hc with hc | rfl <;> rcases hknows d hd with hd | rfl
    · exact h.meshes c d hc hd hmesh
    · exact absurd hmesh (hnew c hc)
    · exact absurd hmesh.symm (hnew d hd)
    · rfl
  · rcases List.mem_append.1 hloose with hloose | hloose
    · exact h.loose i c hc hloose
    · obtain rfl := List.mem_singleton.1 hloose
      exact hnew _ (.inl ⟨i, hc⟩) rfl

theorem step (h : n.Apart) (next : Step n n') : n'.Apart := by
  cases next with
  | init i size => exact h.create i size
  | derive i parent size => exact h.derive i parent size
  | release i c => exact h.release i c
  | finalize i world => exact h.finalize i world
  | make id size => exact h.make id size
  | send e target payload => exact h.outside fun _ => .send e target payload
  | receive e => exact h.outside fun _ => .receive e

end Apart

theorem Reachable.apart (h : n.Reachable) : n.Apart := by
  induction h with
  | start fabric => exact .start fabric
  | step _ next ih => exact ih.step next

/-! ### Releases -/

/-- Whom a release closes: the communicator that the transport gave under the number of the
argument, as long as it is open. -/
def Hits (n : Neighborhood) (i : Nat) (c d : Communicator) : Prop :=
  d ∈ n.given i ∧ d.id = c.id ∧ n.fabric.isClosed d = false

/-- The table holds under a number what a release of that number closes. -/
theorem Apart.hits_iff (h : n.Apart) : n.Hits i c d ↔ (n.net i).2.find? c.id = some d := by
  constructor
  · rintro ⟨hd, hid, hopen⟩
    have hlive := (LocalTransport.isClosed_eq_false_iff (h.tracks i) (h.intact i) hd).1 hopen
    rw [← hid]
    exact (LocalTransport.find?_eq_some_iff (h.intact i)).2 hlive
  · intro hfind
    have hlive := List.mem_of_find?_eq_some hfind
    exact ⟨(h.tracks i).live d hlive, by simpa using List.find?_some hfind,
      (h.intact i).opened d hlive⟩

/-- A release of whatever communicator succeeds. It closes the one that the transport gave under
that number, if it is open, and leaves all others there are as they were. If the transport gave the
argument itself, nothing else is touched. -/
theorem Reachable.release_iff (h : n.Reachable) (i : Nat) (c : Communicator) :
    ∃ fabric t, transport.release c (n.net i) = (.ok (), fabric, t) ∧
      (∀ d, n.Knows d → n.Hits i c d → fabric.isClosed d = true) ∧
      (∀ d, n.Knows d → ¬ n.Hits i c d → fabric.meshOf d = n.fabric.meshOf d) ∧
      (c ∈ n.given i → ∀ d, n.Knows d → d ≠ c → fabric.meshOf d = n.fabric.meshOf d) := by
  have ha := h.apart
  have hown : c ∈ n.given i → ∀ d, d ≠ c → ¬ n.Hits i c d := by
    rintro hc d hne ⟨hd, hid, _⟩
    exact hne (List.inj_on_of_nodup_map (ha.tracks i).ids hd hc hid)
  cases hfind : (n.net i).2.find? c.id with
  | none =>
    have hnone : ∀ d, ¬ n.Hits i c d := fun d hd => by
      rw [ha.hits_iff, hfind] at hd
      cases hd
    exact ⟨_, _, LocalTransport.release_of_find?_eq_none hfind,
      fun d _ hd => absurd hd (hnone d), fun _ _ _ => rfl, fun _ _ _ _ => rfl⟩
  | some found =>
    have hfound : n.Knows found :=
      .inl ⟨i, (ha.tracks i).live found (List.mem_of_find?_eq_some hfind)⟩
    have hspared : ∀ d, n.Knows d → ¬ n.Hits i c d →
        (n.fabric.close found).meshOf d = n.fabric.meshOf d := by
      intro d hd hnot
      refine Fabric.meshOf_close_of_ne fun hmesh => hnot ?_
      rw [ha.meshes d found hd hfound hmesh]
      exact ha.hits_iff.2 hfind
    refine ⟨_, _, LocalTransport.release_of_find? hfind, fun d _ hd => ?_, hspared,
      fun hc d hd hne => hspared d hd (hown hc d hne)⟩
    rw [ha.hits_iff, hfind] at hd
    obtain rfl := Option.some.inj hd
    show (n.fabric.close found).isClosed found = true
    simp [Fabric.isClosed_close]

/-! ### Two transports -/

/-- Two transports, each with one communicator: both have the number one. -/
def clash : Neighborhood :=
  let first : Neighborhood := { fabric := {} }
  let second := first.note 0 (transport.init 1 (first.net 0))
  second.note 1 (transport.init 1 (second.net 1))

theorem reachable_clash : clash.Reachable := .step (.step (.start {}) (.init 0 1)) (.init 1 1)

theorem given_clash : clash.given 0 = [⟨1, 1, 0⟩] ∧ clash.given 1 = [⟨1, 1, 1⟩] := by decide

theorem release_clash : clash.Hits 0 ⟨1, 1, 1⟩ ⟨1, 1, 0⟩ ∧
    ∃ fabric t, transport.release ⟨1, 1, 1⟩ (clash.net 0) = (.ok (), fabric, t) ∧
      (∀ d, clash.Knows d → clash.Hits 0 ⟨1, 1, 1⟩ d → fabric.isClosed d = true) ∧
      (∀ d, clash.Knows d → ¬ clash.Hits 0 ⟨1, 1, 1⟩ d →
        fabric.meshOf d = clash.fabric.meshOf d) ∧
      ((⟨1, 1, 1⟩ : Communicator) ∈ clash.given 0 → ∀ d, clash.Knows d → d ≠ ⟨1, 1, 1⟩ →
        fabric.meshOf d = clash.fabric.meshOf d) :=
  ⟨⟨by decide, rfl, by decide⟩, Reachable.release_iff reachable_clash 0 ⟨1, 1, 1⟩⟩

/-- A transport that is asked to release the communicator of another closes one of its own. -/
theorem not_always_spared : ¬ ∀ n : Neighborhood, n.Reachable → ∀ i c d, n.Knows c → n.Knows d →
    c.same d = false →
      (transport.release c (n.net i)).2.1.meshOf d = n.fabric.meshOf d := by
  intro h
  have hsame := h clash reachable_clash 0 ⟨1, 1, 1⟩ ⟨1, 1, 0⟩
    (.inl ⟨1, by rw [given_clash.2]; exact List.mem_singleton_self _⟩)
    (.inl ⟨0, by rw [given_clash.1]; exact List.mem_singleton_self _⟩) rfl
  have hopen : clash.fabric.meshOf ⟨1, 1, 0⟩ = .live [] := by decide
  have hclosed : (transport.release ⟨1, 1, 1⟩ (clash.net 0)).2.1.meshOf ⟨1, 1, 0⟩ = .closed := by
    decide
  rw [hopen, hclosed] at hsame
  cases hsame

end Neighborhood

end VirtualTopology
