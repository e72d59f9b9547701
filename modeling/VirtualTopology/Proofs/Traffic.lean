import VirtualTopology.Proofs.Tracking

/-!
# Messages in transit

Any number of threads share communicators and endpoints: they make communicators and close them,
have endpoints of their ranks, send, and take what was sent. Each of these takes effect at one moment
between its call and its answer, so what the threads do together is a sequence of steps, in any
order. A thread that waits for a message tries again until there is one; a try that finds nothing is a
step as well. A copy of an endpoint is the same endpoint in the hands of another thread.

Beside the fabric stands what was sent and what was taken, which no operation reads. As long as a
communicator is open, what was taken at a rank and what is under way to it are together what was sent
there, in order.

## Main definitions

- `Traffic`: a fabric with what came of the operations on it.
- `Traffic.Step`, `Traffic.Reachable`: one step, and what runs come to.
- `Traffic.sentTo`, `Traffic.receivedAt`, `Traffic.queued`: the messages of one rank.
- `Traffic.InOrder`: what every step keeps.

## Main statements

- `Fabric.meshOf_setMesh`, `Endpoint.send_eq_ok`, `Endpoint.receive_eq_some`: what is done to a mesh.
- `Traffic.InOrder.step`, `Traffic.Reachable.in_order`: one step, and every run.
-/

namespace VirtualTopology

/-! ### Meshes and the operations on them -/

namespace Fabric

variable {f : Fabric} {c d : Communicator} {m : Mesh}

theorem meshOf_setMesh (h : c.mesh < f.meshes.size) :
    (f.setMesh c m).meshOf d = if d.mesh = c.mesh then m else f.meshOf d := by
  by_cases hd : d.mesh = c.mesh
  · simp [meshOf, setMesh, hd, h, Array.getD_eq_getD_getElem?]
  · simp [meshOf, setMesh, hd, Array.getD_eq_getD_getElem?,
      Array.getElem?_setIfInBounds_ne (Ne.symm hd)]

theorem meshOf_close_of_ne (h : d.mesh ≠ c.mesh) : (f.close c).meshOf d = f.meshOf d := by
  simp [close, meshOf, setMesh, Array.getD_eq_getD_getElem?,
    Array.getElem?_setIfInBounds_ne (Ne.symm h)]

theorem meshOf_allocate (id size : Nat) (h : d.mesh < f.meshes.size) :
    (f.allocate id size).2.meshOf d = f.meshOf d := by
  rw [allocate, meshOf, meshOf, Array.getD_eq_getD_getElem?, Array.getD_eq_getD_getElem?,
    Array.getElem?_push_lt h, Array.getElem?_eq_getElem h]

theorem meshOf_allocate_self (id size : Nat) :
    (f.allocate id size).2.meshOf (f.allocate id size).1 = .live [] := by
  simp [allocate, meshOf]

theorem isClosed_eq_true_iff : f.isClosed c = true ↔ f.meshOf c = .closed := by
  simp [isClosed]

theorem isClosed_eq_false_iff : f.isClosed c = false ↔ ∃ pending, f.meshOf c = .live pending := by
  rw [isClosed]
  cases f.meshOf c <;> simp

end Fabric

namespace Endpoint

variable {e : Endpoint} {target : Nat} {payload : Payload} {f f' : Fabric} {envelope : Envelope}

/-- A message that is sent comes last. -/
theorem send_eq_ok (h : e.send target payload f = (.ok (), f')) :
    target < e.communicator.size ∧ ∃ pending, f.meshOf e.communicator = .live pending ∧
      f' = f.setMesh e.communicator (.live (pending ++ [⟨target, ⟨e.rank, payload⟩⟩])) := by
  unfold send at h
  split at h
  · simp at h
  · next pending hmesh =>
    split at h
    · next htarget => exact ⟨htarget, pending, hmesh, (Prod.mk.inj h).2.symm⟩
    · simp at h

theorem eq_of_send_eq_error {fault : TransportError} (h : e.send target payload f = (.error fault, f')) :
    f' = f := by
  unfold send at h
  split at h
  · exact (Prod.mk.inj h).2.symm
  · split at h
    · simp at h
    · exact (Prod.mk.inj h).2.symm

/-- A message that is taken is the oldest for the rank. -/
theorem receive_eq_some (h : e.receive f = (.ok (some envelope), f')) :
    ∃ pending rest, f.meshOf e.communicator = .live pending ∧
      Mesh.takeFirst e.rank pending = some (envelope, rest) ∧
      f' = f.setMesh e.communicator (.live rest) := by
  unfold receive at h
  split at h
  · simp at h
  · next pending hmesh =>
    split at h
    · simp at h
    · next taken rest htaken =>
      obtain ⟨hsame, hf⟩ := Prod.mk.inj h
      obtain rfl := Option.some.inj (Except.ok.inj hsame)
      exact ⟨pending, rest, hmesh, htaken, hf.symm⟩

theorem eq_of_receive_of_ne {answer : Except TransportError (Option Envelope)}
    (h : e.receive f = (answer, f')) (hne : ∀ envelope, answer ≠ .ok (some envelope)) : f' = f := by
  unfold receive at h
  split at h
  · exact (Prod.mk.inj h).2.symm
  · split at h
    · exact (Prod.mk.inj h).2.symm
    · exact absurd (Prod.mk.inj h).1.symm (hne _)

theorem send_of_closed (h : f.isClosed e.communicator = true) (target : Nat) (payload : Payload) :
    e.send target payload f = (.error (.closed e.communicator.id), f) := by
  rw [send, Fabric.isClosed_eq_true_iff.1 h]

theorem receive_of_closed (h : f.isClosed e.communicator = true) :
    e.receive f = (.error (.closed e.communicator.id), f) := by
  rw [receive, Fabric.isClosed_eq_true_iff.1 h]

/-- On an open communicator there is nothing that a send can be refused for but the rank. -/
theorem send_of_open (h : f.isClosed e.communicator = false) (target : Nat) (payload : Payload) :
    (target < e.communicator.size → (e.send target payload f).1 = .ok ()) ∧
    (e.communicator.size ≤ target →
      e.send target payload f = (.error (.invalidRank target e.communicator.size), f)) := by
  obtain ⟨pending, hmesh⟩ := Fabric.isClosed_eq_false_iff.1 h
  rw [send, hmesh]
  exact ⟨fun htarget => by simp [htarget], fun htarget => by simp [Nat.not_lt.2 htarget]⟩

/-- On an open communicator the oldest message is to be had, if there is one. -/
theorem receive_of_open (h : f.isClosed e.communicator = false) :
    (e.receive f).1 = .ok ((f.meshOf e.communicator).mailbox e.rank).head? := by
  obtain ⟨pending, hmesh⟩ := Fabric.isClosed_eq_false_iff.1 h
  rw [receive, hmesh]
  dsimp only
  split
  · next hnone => rw [Mesh.takeFirst_eq_none_iff.1 hnone, List.head?_nil]
  · next envelope rest htaken => rw [Mesh.mailbox_of_takeFirst htaken, List.head?_cons]

end Endpoint

/-! ### Traffic -/

/-- A message as it was sent. -/
structure Sending where
  sender : Endpoint
  target : Nat
  payload : Payload

/-- What the receiver of a message is to find. -/
def Sending.envelope (s : Sending) : Envelope := ⟨s.sender.rank, s.payload⟩

/-- A message as it was taken. -/
structure Receipt where
  receiver : Endpoint
  envelope : Envelope

/-- A fabric with all that came of the operations on it, oldest first. -/
structure Traffic where
  fabric : Fabric
  communicators : List Communicator := []
  endpoints : List Endpoint := []
  sent : List Sending := []
  received : List Receipt := []

namespace Traffic

/-- A communicator is made. Its number need not be its own. -/
def create (id size : Nat) (t : Traffic) : Traffic :=
  { t with
    fabric := (t.fabric.allocate id size).2
    communicators := t.communicators ++ [(t.fabric.allocate id size).1] }

/-- The endpoint of a rank is asked for. -/
def enter (c : Communicator) (rank : Nat) (t : Traffic) : Traffic :=
  match c.endpoint rank with
  | .ok e => { t with endpoints := t.endpoints ++ [e] }
  | .error _ => t

/-- A message is sent, or refused. -/
def send (e : Endpoint) (target : Nat) (payload : Payload) (t : Traffic) : Traffic :=
  match e.send target payload t.fabric with
  | (.ok (), fabric) => { t with fabric, sent := t.sent ++ [⟨e, target, payload⟩] }
  | (.error _, fabric) => { t with fabric }

/-- A message is taken, or there is none, or it is refused. -/
def receive (e : Endpoint) (t : Traffic) : Traffic :=
  match e.receive t.fabric with
  | (.ok (some envelope), fabric) => { t with fabric, received := t.received ++ [⟨e, envelope⟩] }
  | (.ok none, fabric) | (.error _, fabric) => { t with fabric }

/-- A communicator is closed. -/
def close (c : Communicator) (t : Traffic) : Traffic := { t with fabric := t.fabric.close c }

/-- What may happen next. -/
inductive Step : Traffic → Traffic → Prop
  | create {t} (id size : Nat) : Step t (t.create id size)
  | enter {t c} (made : c ∈ t.communicators) (rank : Nat) : Step t (t.enter c rank)
  | send {t e} (had : e ∈ t.endpoints) (target : Nat) (payload : Payload) :
      Step t (t.send e target payload)
  | receive {t e} (had : e ∈ t.endpoints) : Step t (t.receive e)
  | close {t c} (made : c ∈ t.communicators) : Step t (t.close c)

/-- What runs come to that begin on any fabric. -/
inductive Reachable : Traffic → Prop
  | start (fabric : Fabric) : Reachable { fabric }
  | step {t t'} (h : Reachable t) (next : Step t t') : Reachable t'

variable {t t' : Traffic} {c d : Communicator} {e : Endpoint}

/-- What was sent to a rank, as it is to be received. -/
def sentTo (t : Traffic) (c : Communicator) (rank : Nat) : List Envelope :=
  (t.sent.filter fun s => s.sender.communicator = c ∧ s.target = rank).map Sending.envelope

/-- What endpoints of a rank have taken. -/
def receivedAt (t : Traffic) (c : Communicator) (rank : Nat) : List Envelope :=
  (t.received.filter fun r => r.receiver.communicator = c ∧ r.receiver.rank = rank).map
    Receipt.envelope

/-- What is under way to a rank. -/
def queued (t : Traffic) (c : Communicator) (rank : Nat) : List Envelope :=
  (t.fabric.meshOf c).mailbox rank

theorem sentTo_append_singleton (t : Traffic) (fabric : Fabric) (s : Sending) (c : Communicator)
    (rank : Nat) : sentTo { t with fabric, sent := t.sent ++ [s] } c rank =
      t.sentTo c rank ++
        if s.sender.communicator = c ∧ s.target = rank then [s.envelope] else [] := by
  rw [sentTo, List.filter_append, List.map_append, sentTo]
  congr 1
  by_cases hto : s.sender.communicator = c ∧ s.target = rank <;> simp [hto]

theorem receivedAt_append_singleton (t : Traffic) (fabric : Fabric) (r : Receipt)
    (c : Communicator) (rank : Nat) :
    receivedAt { t with fabric, received := t.received ++ [r] } c rank =
      t.receivedAt c rank ++
        if r.receiver.communicator = c ∧ r.receiver.rank = rank then [r.envelope] else [] := by
  rw [receivedAt, List.filter_append, List.map_append, receivedAt]
  congr 1
  by_cases hby : r.receiver.communicator = c ∧ r.receiver.rank = rank <;> simp [hby]

/-! ### Steps -/

/-- Communicators do not share mailboxes, endpoints are of ranks there are, and messages come in
order. -/
structure InOrder (t : Traffic) : Prop where
  apart : (t.communicators.map Communicator.mesh).Nodup
  made : ∀ c ∈ t.communicators, c.mesh < t.fabric.meshes.size
  had : ∀ e ∈ t.endpoints, e.communicator ∈ t.communicators ∧ e.rank < e.communicator.size
  senders : ∀ s ∈ t.sent, s.sender ∈ t.endpoints ∧ s.target < s.sender.communicator.size
  receivers : ∀ r ∈ t.received, r.receiver ∈ t.endpoints
  whole : ∀ c ∈ t.communicators, t.fabric.isClosed c = false → ∀ rank,
    t.receivedAt c rank ++ t.queued c rank = t.sentTo c rank
  taken : ∀ c ∈ t.communicators, ∀ rank, t.receivedAt c rank <+: t.sentTo c rank

namespace InOrder

theorem eq_of_mesh (h : t.InOrder) (hc : c ∈ t.communicators) (hd : d ∈ t.communicators)
    (hmesh : c.mesh = d.mesh) : c = d :=
  List.inj_on_of_nodup_map h.apart hc hd hmesh

/-- What is done to the mailboxes of one communicator is nothing to the others. -/
theorem mailbox_setMesh (h : t.InOrder) (hc : c ∈ t.communicators) (hd : d ∈ t.communicators)
    (m : Mesh) (rank : Nat) : ((t.fabric.setMesh d m).meshOf c).mailbox rank =
      if c = d then m.mailbox rank else t.queued c rank := by
  rw [Fabric.meshOf_setMesh (h.made d hd)]
  by_cases hcd : c = d
  · simp [hcd]
  · have hmesh : c.mesh ≠ d.mesh := fun heq => hcd (h.eq_of_mesh hc hd heq)
    rw [if_neg hmesh, if_neg hcd, queued]

theorem made_setMesh (h : t.InOrder) (d : Communicator) (m : Mesh) :
    ∀ c ∈ t.communicators, c.mesh < (t.fabric.setMesh d m).meshes.size := by
  intro c hc
  show c.mesh < (t.fabric.meshes.setIfInBounds _ _).size
  rw [Array.size_setIfInBounds]
  exact h.made c hc

theorem create (h : t.InOrder) (id size : Nat) : (t.create id size).InOrder := by
  -- Nothing was sent or taken yet on the mailboxes that are new.
  have hnew : ∀ e ∈ t.endpoints, e.communicator ≠ (t.fabric.allocate id size).1 := by
    intro e he heq
    have hlt := h.made _ (h.had e he).1
    rw [heq] at hlt
    exact Nat.lt_irrefl _ hlt
  have hsent : ∀ rank, (t.create id size).sentTo (t.fabric.allocate id size).1 rank = [] := by
    intro rank
    rw [sentTo, List.map_eq_nil_iff, List.filter_eq_nil_iff]
    intro s hs
    simp [hnew _ (h.senders s hs).1]
  have hreceived : ∀ rank, (t.create id size).receivedAt (t.fabric.allocate id size).1 rank = [] := by
    intro rank
    rw [receivedAt, List.map_eq_nil_iff, List.filter_eq_nil_iff]
    intro r hr
    simp [hnew _ (h.receivers r hr)]
  refine
    { apart := ?_, made := ?_, had := ?_, senders := h.senders, receivers := h.receivers
      whole := ?_, taken := ?_ }
  · apply nodup_map_concat h.apart
    intro c hc
    exact Nat.ne_of_lt (h.made c hc)
  · intro c hc
    show c.mesh < (t.fabric.meshes.push _).size
    rw [Array.size_push]
    cases List.mem_append.1 hc with
    | inl hc => exact Nat.lt_succ_of_lt (h.made c hc)
    | inr hc =>
      rw [List.mem_singleton.1 hc]
      exact Nat.lt_succ_self _
  · exact fun e he => ⟨List.mem_append_left _ (h.had e he).1, (h.had e he).2⟩
  · intro c hc hopen rank
    cases List.mem_append.1 hc with
    | inl hc =>
      have hmesh : (t.create id size).fabric.meshOf c = t.fabric.meshOf c :=
        Fabric.meshOf_allocate id size (h.made c hc)
      rw [Fabric.isClosed, hmesh] at hopen
      rw [queued, hmesh]
      exact h.whole c hc hopen rank
    | inr hc =>
      rw [List.mem_singleton.1 hc, hsent, hreceived, queued]
      exact congrArg (Mesh.mailbox rank) (Fabric.meshOf_allocate_self id size)
  · intro c hc rank
    cases List.mem_append.1 hc with
    | inl hc => exact h.taken c hc rank
    | inr hc =>
      rw [List.mem_singleton.1 hc, hreceived]
      exact List.nil_prefix

theorem enter (h : t.InOrder) (hc : c ∈ t.communicators) (rank : Nat) :
    (t.enter c rank).InOrder := by
  unfold Traffic.enter Communicator.endpoint
  split
  · next e he =>
    split at he
    · next hrank =>
      obtain rfl := Except.ok.inj he
      refine { h with had := ?_, senders := ?_, receivers := ?_ }
      · intro e he
        cases List.mem_append.1 he with
        | inl he => exact h.had e he
        | inr he =>
          rw [List.mem_singleton.1 he]
          exact ⟨hc, hrank⟩
      · exact fun s hs => ⟨List.mem_append_left _ (h.senders s hs).1, (h.senders s hs).2⟩
      · exact fun r hr => List.mem_append_left _ (h.receivers r hr)
    · simp at he
  · exact h

theorem send (h : t.InOrder) (he : e ∈ t.endpoints) (target : Nat) (payload : Payload) :
    (t.send e target payload).InOrder := by
  unfold Traffic.send
  split
  · next fabric hsend =>
    obtain ⟨htarget, pending, hmesh, rfl⟩ := Endpoint.send_eq_ok hsend
    have hmade := (h.had e he).1
    refine
      { apart := h.apart, made := h.made_setMesh _ _, had := h.had, senders := ?_
        receivers := h.receivers, whole := ?_, taken := ?_ }
    · intro s hs
      cases List.mem_append.1 hs with
      | inl hs => exact h.senders s hs
      | inr hs =>
        rw [List.mem_singleton.1 hs]
        exact ⟨he, htarget⟩
    · intro c hc hopen rank
      rw [sentTo_append_singleton, queued, h.mailbox_setMesh hc hmade]
      rw [Fabric.isClosed_setMesh_live hmesh] at hopen
      have hwhole := h.whole c hc hopen rank
      by_cases hsame : c = e.communicator
      · subst hsame
        rw [queued, hmesh] at hwhole
        rw [if_pos rfl, ← hwhole, List.append_assoc]
        congr 1
        by_cases hto : target = rank <;> simp [Mesh.mailbox, Sending.envelope, hto]
      · rw [if_neg hsame, if_neg fun hto => hsame hto.1.symm, List.append_nil]
        exact hwhole
    · intro c hc rank
      rw [sentTo_append_singleton]
      exact (h.taken c hc rank).trans (List.prefix_append _ _)
  · next fault fabric hsend =>
    rw [Endpoint.eq_of_send_eq_error hsend]
    exact h

theorem receive (h : t.InOrder) (he : e ∈ t.endpoints) : (t.receive e).InOrder := by
  have hmade := (h.had e he).1
  unfold Traffic.receive
  split
  · next envelope fabric hreceive =>
    obtain ⟨pending, rest, hmesh, htaken, rfl⟩ := Endpoint.receive_eq_some hreceive
    have hwhole : ∀ c ∈ t.communicators, t.fabric.isClosed c = false → ∀ rank,
        (t.receivedAt c rank ++ if e.communicator = c ∧ e.rank = rank then [envelope] else []) ++
          ((t.fabric.setMesh e.communicator (.live rest)).meshOf c).mailbox rank = t.sentTo c rank := by
      intro c hc hopen rank
      rw [h.mailbox_setMesh hc hmade]
      have hwhole := h.whole c hc hopen rank
      by_cases hsame : c = e.communicator
      · subst hsame
        rw [queued, hmesh] at hwhole
        rw [if_pos rfl, ← hwhole, List.append_assoc]
        congr 1
        by_cases hrank : e.rank = rank
        · subst hrank
          rw [if_pos ⟨rfl, rfl⟩, Mesh.mailbox_of_takeFirst htaken]
          rfl
        · rw [if_neg fun hby => hrank hby.2, Mesh.mailbox_of_takeFirst_of_ne htaken (Ne.symm hrank)]
          rfl
      · rw [if_neg hsame, if_neg fun hby => hsame hby.1.symm, List.append_nil]
        exact hwhole
    refine
      { apart := h.apart, made := h.made_setMesh _ _, had := h.had, senders := h.senders
        receivers := ?_, whole := ?_, taken := ?_ }
    · intro r hr
      cases List.mem_append.1 hr with
      | inl hr => exact h.receivers r hr
      | inr hr =>
        rw [List.mem_singleton.1 hr]
        exact he
    · intro c hc hopen rank
      rw [Fabric.isClosed_setMesh_live hmesh] at hopen
      rw [receivedAt_append_singleton]
      exact hwhole c hc hopen rank
    · intro c hc rank
      rw [receivedAt_append_singleton]
      by_cases hsame : e.communicator = c ∧ e.rank = rank
      · -- It could be taken, so the communicator is open.
        have hopen := Fabric.isClosed_eq_false_iff.2 ⟨pending, hmesh⟩
        exact ⟨_, hwhole c hc (hsame.1 ▸ hopen) rank⟩
      · rw [if_neg hsame, List.append_nil]
        exact h.taken c hc rank
  · next fabric hreceive =>
    rw [Endpoint.eq_of_receive_of_ne hreceive (by simp)]
    exact h
  · next fault fabric hreceive =>
    rw [Endpoint.eq_of_receive_of_ne hreceive (by simp)]
    exact h

theorem close (h : t.InOrder) (c : Communicator) : (t.close c).InOrder where
  apart := h.apart
  made d hd := Nat.lt_of_lt_of_le (h.made d hd) (Nat.le_of_eq Fabric.size_close.symm)
  had := h.had
  senders := h.senders
  receivers := h.receivers
  whole d hd hopen rank := by
    have hopen : (t.fabric.close c).isClosed d = false := hopen
    rw [Fabric.isClosed_close, Bool.or_eq_false_iff, decide_eq_false_iff_not] at hopen
    show _ ++ ((t.fabric.close c).meshOf d).mailbox rank = _
    rw [Fabric.meshOf_close_of_ne (Ne.symm hopen.1)]
    exact h.whole d hd hopen.2 rank
  taken := h.taken

theorem step (h : t.InOrder) (next : Step t t') : t'.InOrder := by
  cases next with
  | create id size => exact h.create id size
  | enter made rank => exact h.enter made rank
  | send had target payload => exact h.send had target payload
  | receive had => exact h.receive had
  | close made => exact h.close _

end InOrder

/-- A step makes some use of the fabric. -/
theorem Step.use (next : Step t t') : Fabric.Use [] t.fabric t'.fabric := by
  cases next with
  | create id size => exact .allocate id size
  | @enter c made rank =>
    unfold Traffic.enter
    split <;> exact .none
  | @send e had target payload =>
    have hfabric : (t.send e target payload).fabric = (e.send target payload t.fabric).2 := by
      unfold Traffic.send
      split <;> next hsend => rw [hsend]
    rw [hfabric]
    exact .send e target payload
  | @receive e had =>
    have hfabric : (t.receive e).fabric = (e.receive t.fabric).2 := by
      unfold Traffic.receive
      split <;> next hreceive => rw [hreceive]
    rw [hfabric]
    exact .receive e
  | @close c made => exact .close c (by simp)

/-! ### Runs -/

theorem Reachable.inOrder (h : Reachable t) : t.InOrder := by
  induction h with
  | start => constructor <;> simp
  | step _ next ih => exact ih.step next

/-- A communicator that was closed stays closed. -/
theorem isClosed_run (run : Relation.ReflTransGen Step t t')
    (hc : c.mesh < t.fabric.meshes.size) (hclosed : t.fabric.isClosed c = true) :
    t'.fabric.isClosed c = true := by
  have hkept : c.mesh < t'.fabric.meshes.size ∧ t'.fabric.isClosed c = true := by
    induction run with
    | refl => exact ⟨hc, hclosed⟩
    | tail _ next ih =>
      obtain ⟨hsize, hstays, _⟩ := next.use.keeps
      exact ⟨Nat.lt_of_lt_of_le ih.1 hsize, hstays c ih.1 ih.2⟩
  exact hkept.2

/-- In every run, communicators have mailboxes of their own, and endpoints are of their ranks. On an
open communicator, what endpoints of a rank have taken and what is under way to it are what was sent
there, in order and with the rank of the sender; a send is refused for a rank there is not, and for
nothing else; and the oldest message is to be had. Whatever was taken anywhere was sent there, in this
order. To close a communicator leaves it closed and the others as they were. A closed communicator
stays closed, and refuses every send and every receipt, whatever was under way. -/
theorem Reachable.in_order (h : Reachable t) :
    (t.communicators.map Communicator.mesh).Nodup ∧
    (∀ e ∈ t.endpoints, e.communicator ∈ t.communicators ∧ e.rank < e.communicator.size) ∧
    (∀ c ∈ t.communicators, ∀ rank, t.receivedAt c rank <+: t.sentTo c rank) ∧
    (∀ c ∈ t.communicators, ∀ d ∈ t.communicators,
      (t.close c).fabric.isClosed d = true ↔ d = c ∨ t.fabric.isClosed d = true) ∧
    (∀ c ∈ t.communicators, t.fabric.isClosed c = false →
      (∀ rank, t.receivedAt c rank ++ t.queued c rank = t.sentTo c rank) ∧
      ∀ e : Endpoint, e.communicator = c →
        (∀ target payload,
          (target < c.size → (e.send target payload t.fabric).1 = .ok ()) ∧
          (c.size ≤ target →
            e.send target payload t.fabric = (.error (.invalidRank target c.size), t.fabric))) ∧
        (e.receive t.fabric).1 = .ok (t.queued c e.rank).head?) ∧
    ∀ c ∈ t.communicators, t.fabric.isClosed c = true →
      ∀ t', Relation.ReflTransGen Step t t' → t'.fabric.isClosed c = true ∧
        ∀ e : Endpoint, e.communicator = c →
          (∀ target payload,
            e.send target payload t'.fabric = (.error (.closed c.id), t'.fabric)) ∧
          e.receive t'.fabric = (.error (.closed c.id), t'.fabric) := by
  have horder := h.inOrder
  refine ⟨horder.apart, horder.had, horder.taken, ?_, ?_, ?_⟩
  · intro c hc d hd
    have hmesh : c.mesh = d.mesh ↔ d = c :=
      ⟨fun heq => (List.inj_on_of_nodup_map horder.apart hc hd heq).symm, fun heq => by rw [heq]⟩
    show (t.fabric.close c).isClosed d = true ↔ _
    rw [Fabric.isClosed_close, Bool.or_eq_true, decide_eq_true_iff, hmesh]
  · intro c hc hopen
    refine ⟨horder.whole c hc hopen, ?_⟩
    rintro e rfl
    exact ⟨e.send_of_open hopen, e.receive_of_open hopen⟩
  · intro c hc hclosed t' run
    have hstays := isClosed_run run (horder.made c hc) hclosed
    refine ⟨hstays, ?_⟩
    rintro e rfl
    exact ⟨e.send_of_closed hstays, e.receive_of_closed hstays⟩

/-- Three communicators of one number. On the first, two messages are sent to the second rank and one
of them is taken; the second is closed with a message under way, the third without any. -/
def dialogue : Traffic :=
  let first : Communicator := ⟨7, 2, 0⟩
  let second : Communicator := ⟨7, 2, 1⟩
  let third : Communicator := ⟨7, 2, 2⟩
  close third (close second (receive ⟨1, first⟩ (send ⟨0, second⟩ 1 [3] (send ⟨1, first⟩ 1 [2]
    (send ⟨0, first⟩ 1 [1] (enter second 0 (enter first 1 (enter first 0
      (create 7 2 (create 7 2 (create 7 2 { fabric := {} })))))))))))

theorem reachable_dialogue : Reachable dialogue := by
  have hmade := (((Reachable.start {}).step (.create 7 2)).step (.create 7 2)).step (.create 7 2)
  have hentered := ((hmade.step (.enter (c := ⟨7, 2, 0⟩) (by decide) 0)).step
    (.enter (c := ⟨7, 2, 0⟩) (by decide) 1)).step (.enter (c := ⟨7, 2, 1⟩) (by decide) 0)
  have hsent := ((hentered.step (.send (e := ⟨0, ⟨7, 2, 0⟩⟩) (by decide) 1 [1])).step
    (.send (e := ⟨1, ⟨7, 2, 0⟩⟩) (by decide) 1 [2])).step
    (.send (e := ⟨0, ⟨7, 2, 1⟩⟩) (by decide) 1 [3])
  exact ((hsent.step (.receive (e := ⟨1, ⟨7, 2, 0⟩⟩) (by decide))).step
    (.close (c := ⟨7, 2, 1⟩) (by decide))).step (.close (c := ⟨7, 2, 2⟩) (by decide))

theorem in_order_dialogue :
    dialogue.receivedAt ⟨7, 2, 0⟩ 1 = [⟨0, [1]⟩] ∧ dialogue.queued ⟨7, 2, 0⟩ 1 = [⟨1, [2]⟩] ∧
    dialogue.receivedAt ⟨7, 2, 0⟩ 1 ++ dialogue.queued ⟨7, 2, 0⟩ 1 =
      dialogue.sentTo ⟨7, 2, 0⟩ 1 ∧
    (dialogue.close ⟨7, 2, 0⟩).fabric.isClosed ⟨7, 2, 0⟩ = true ∧
    ∀ t', Relation.ReflTransGen Step dialogue t' → ∀ mesh, mesh = 1 ∨ mesh = 2 → ∀ target payload,
      Endpoint.send ⟨0, ⟨7, 2, mesh⟩⟩ target payload t'.fabric =
        (.error (.closed 7), t'.fabric) := by
  obtain ⟨_, _, _, hclose, hopen, hclosed⟩ := Reachable.in_order reachable_dialogue
  refine ⟨by decide, by decide, (hopen ⟨7, 2, 0⟩ (by decide) (by decide)).1 1,
    (hclose ⟨7, 2, 0⟩ (by decide) ⟨7, 2, 0⟩ (by decide)).2 (Or.inl rfl), ?_⟩
  rintro t' run mesh (rfl | rfl) target payload
  · exact ((hclosed ⟨7, 2, 1⟩ (by decide) (by decide) t' run).2 ⟨0, ⟨7, 2, 1⟩⟩ rfl).1 target payload
  · exact ((hclosed ⟨7, 2, 2⟩ (by decide) (by decide) t' run).2 ⟨0, ⟨7, 2, 2⟩⟩ rfl).1 target payload

end Traffic

end VirtualTopology
