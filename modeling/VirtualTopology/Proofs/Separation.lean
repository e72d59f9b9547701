import Mathlib.Order.Monotone.Basic
import VirtualTopology.Proofs.Campus
import VirtualTopology.Proofs.Mirroring
import VirtualTopology.Proofs.Sparing

/-!
# Registries with transports of their own

The registries of a process share the counts of VM ids and of threads, and the threads themselves.
If one of them has a transport that no other registry uses, then that is all they share, and what is
done to the others cannot be told from what the one does: taking it out of a run changes no answer of
the one registry, nor anything it keeps, nor the VM of any thread, but for the ids of VMs and the
numbers of threads, which close up.

## Main definitions

- `Move`: what can happen in a process of which one registry has a transport of its own.
- `Premises`: all registries of a process, with the count of threads.
- `Premises.play`, `Premises.answers`, `Premises.taken`: a run, with the answers of one registry and
  the ids and numbers that are given out.
- `Move.own`: what is left of a move when the other registries are taken out of the run.
- `Premises.Undisturbed`: a run and what is left of it are the same for the registry.

## Main statements

- `Premises.undisturbed`: taking the other registries out of a run disturbs nothing.
- `Premises.not_by_ids_alone`: ids of VMs are not all that changes.
-/

namespace VirtualTopology

variable {σ τ : Type}

/-! ### Ids that close up -/

/-- Ids that go up can be moved together from `first` on, with those below left alone. -/
theorem exists_renumbering {ids : List Nat} {first : Nat} (sorted : ids.Pairwise (· < ·))
    (hfirst : ∀ id ∈ ids, first ≤ id) : ∃ f : Nat → Nat, Function.Injective f ∧
      (∀ id < first, f id = id) ∧ ids.map f = List.range' first ids.length := by
  refine ⟨fun id => if id ∈ ids then first + ids.idxOf id else
    if id < first then id else first + ids.length + id, ?_, ?_, ?_⟩
  · intro x y hxy
    dsimp only at hxy
    by_cases hx : x ∈ ids <;> by_cases hy : y ∈ ids
    · rw [if_pos hx, if_pos hy] at hxy
      exact (List.idxOf_inj hx).1 (Nat.add_left_cancel hxy)
    · have hlt := List.idxOf_lt_length_iff.2 hx
      rw [if_pos hx, if_neg hy] at hxy
      split at hxy <;> omega
    · have hlt := List.idxOf_lt_length_iff.2 hy
      rw [if_neg hx, if_pos hy] at hxy
      split at hxy <;> omega
    · rw [if_neg hx, if_neg hy] at hxy
      split at hxy <;> split at hxy <;> omega
  · intro id hid
    have hnot : id ∉ ids := fun hmem => Nat.not_lt.2 (hfirst id hmem) hid
    simp only [if_neg hnot, if_pos hid]
  · have hnodup : ids.Nodup := sorted.imp Nat.ne_of_lt
    apply List.ext_getElem
    · simp
    · intro n hn _
      rw [List.length_map] at hn
      simp [hnodup.idxOf_getElem n hn]

/-- Ids that close up keep their order, also with respect to those below. -/
theorem strictMonoOn_of_map_eq {ids : List Nat} {f : Nat → Nat} {first : Nat}
    (sorted : ids.Pairwise (· < ·)) (hfirst : ∀ id ∈ ids, first ≤ id)
    (hlow : ∀ id < first, f id = id) (h : ids.map f = List.range' first ids.length) :
    StrictMonoOn f {id | id < first ∨ id ∈ ids} := by
  have hplace : ∀ n (hn : n < ids.length), f ids[n] = first + n := by
    intro n hn
    have hget : (ids.map f)[n]? = (List.range' first ids.length)[n]? := by rw [h]
    simpa [hn] using hget
  rintro x (hx | hx) y (hy | hy) hxy
  · rwa [hlow x hx, hlow y hy]
  · obtain ⟨n, hn, rfl⟩ := List.getElem_of_mem hy
    rw [hlow x hx, hplace n hn]
    omega
  · exact absurd (Nat.lt_trans hxy hy) (Nat.not_lt.2 (hfirst x hx))
  · obtain ⟨m, hm, rfl⟩ := List.getElem_of_mem hx
    obtain ⟨n, hn, rfl⟩ := List.getElem_of_mem hy
    have hmn : m < n := by
      by_contra hle
      rcases Nat.lt_or_eq_of_le (Nat.le_of_not_lt hle) with hlt | rfl
      · exact Nat.lt_asymm hxy (List.pairwise_iff_getElem.1 sorted n m hn hm hlt)
      · exact Nat.lt_irrefl _ hxy
    rw [hplace m hm, hplace n hn]
    omega

/-- The ids that are given out first are renamed to those that come first. -/
theorem renumbers_of_map_eq {f : Nat → Nat} {first first' n : Nat} {rest : List Nat}
    (h : (List.range' first n ++ rest).map f = List.range' first' (n + rest.length)) :
    Site.Renumbers f first first' (first + n) ∧
      rest.map f = List.range' (first' + n) rest.length := by
  rw [List.map_append, ← List.range'_append_1] at h
  obtain ⟨hfirst, hrest⟩ := List.append_inj h (by simp)
  refine ⟨fun i hi => ?_, hrest⟩
  have hget : ((List.range' first n).map f)[i]? = (List.range' first' n)[i]? := by rw [hfirst]
  have hlt : i < n := by omega
  simpa [hlt] using hget

/-! ### Moves -/

/-- What can happen in a process of which one registry has a transport of its own. -/
inductive Move (σ τ : Type) where
  /-- An operation is performed on the registry at a position. -/
  | act (i : Nat) (op : Operation)
  /-- The program starts a thread. -/
  | begins (number : Nat) (name : Option String)
  /-- A thread ends. -/
  | ended (c : ExecutionContext)
  /-- What the transports live in changes, as when messages are sent: that of the one registry, and
  that of the others. -/
  | meanwhile (own : σ → σ) (others : τ → τ)

namespace Move

/-- Whether a move is an operation on another registry than the one at a position. -/
def isForeign (i : Nat) : Move σ τ → Bool
  | act j _ => j != i
  | _ => false

/-- What is left of a move when all other registries are taken out of the run, with ids and numbers
renamed. Of the threads, those of PETs of VMs that are `gone` do not exist either. -/
noncomputable def own (i : Nat) (gone : List Nat) (f : Renaming) : Move σ τ → Option (Move σ τ)
  | act j op => if j = i then some (act i (op.rename f)) else none
  | begins number name => some (begins (f.thread number) name)
  | ended c => if ∃ vm ∈ gone, c.child? = some vm then none else some (ended (c.rename f))
  | meanwhile own _ => some (meanwhile own id)

end Move

/-- A process with its registries, and the number that the next thread gets. -/
structure Premises (σ : Type) where
  campus : Campus σ
  nextThread : Nat

namespace Premises

def nextVm (a : Premises σ) : Nat := a.campus.process.nextVm

/-- A move is made. -/
def move (m : Move σ τ) (a : Premises (σ × τ)) : Premises (σ × τ) :=
  match m with
  | .act i op =>
    { campus := a.campus.perform i op
      nextThread := a.nextThread + (a.campus.chronicle? i).elim 0 (·.threadsOf op) }
  | .begins _ _ => { a with nextThread := a.nextThread + 1 }
  | .ended c => { a with campus := a.campus.endThread c }
  | .meanwhile own others =>
    { a with campus := a.campus.within (a.campus.process.net.map own others) }

/-- Moves are made one after the other. -/
def play : List (Move σ τ) → Premises (σ × τ) → Premises (σ × τ)
  | [], a => a
  | m :: moves, a => play moves (a.move m)

/-- What the registry at a position answers to a move. -/
def heard (i : Nat) (m : Move σ τ) (a : Premises (σ × τ)) : List (Operation × Answer) :=
  match m with
  | .act j op =>
    if j = i then (a.campus.chronicle? i).toList.map fun k => (op, k.answer op) else []
  | _ => []

/-- The operations on the registry at a position with their answers, in a run. -/
def answers (i : Nat) : List (Move σ τ) → Premises (σ × τ) → List (Operation × Answer)
  | [], _ => []
  | m :: moves, a => a.heard i m ++ answers i moves (a.move m)

/-- What a move uses up of the numbers that the process gives out, be it to VMs or to threads. -/
def used (counter : Premises (σ × τ) → Nat) (m : Move σ τ) (a : Premises (σ × τ)) : List Nat :=
  List.range' (counter a) (counter (a.move m) - counter a)

/-- What those moves of a run use up that are of some kind. -/
def taken (counter : Premises (σ × τ) → Nat) (kind : Move σ τ → Bool) :
    List (Move σ τ) → Premises (σ × τ) → List Nat
  | [], _ => []
  | m :: moves, a =>
    (if kind m then a.used counter m else []) ++ taken counter kind moves (a.move m)

/-- Whether a move can be made: operations have to be such as can be performed, and a new thread has
the number that is next. -/
def Allows (a : Premises (σ × τ)) : Move σ τ → Prop
  | .act i op => ∀ k, a.campus.chronicle? i = some k → k.Allows op
  | .begins number _ => number = a.nextThread
  | _ => True

/-- Whether every move of a run can be made when it is its turn. -/
def Permits : List (Move σ τ) → Premises (σ × τ) → Prop
  | [], _ => True
  | m :: moves, a => a.Allows m ∧ Permits moves (a.move m)

/-! ### The numbers of a run -/

section Numbers

variable {a a' b' : Premises (σ × τ)} {m : Move σ τ} {moves : List (Move σ τ)}
  {kind : Move σ τ → Bool} {counter : Premises (σ × τ) → Nat} {id i : Nat} {g : Nat → Nat}

theorem nextVm_le_move (m : Move σ τ) (a : Premises (σ × τ)) : a.nextVm ≤ (a.move m).nextVm := by
  cases m with
  | act i op =>
    show _ ≤ (a.campus.perform i op).process.nextVm
    unfold Campus.perform
    cases hk : a.campus.chronicle? i with
    | none => exact Nat.le_refl _
    | some k =>
      have hle := (k.leaves op).next
      rwa [Campus.toProcess_of_chronicle? hk] at hle
  | begins number name => exact Nat.le_refl _
  | ended c => exact Nat.le_refl _
  | meanwhile own others => exact Nat.le_refl _

theorem nextThread_le_move (m : Move σ τ) (a : Premises (σ × τ)) :
    a.nextThread ≤ (a.move m).nextThread := by
  cases m with
  | act i op => exact Nat.le_add_right _ _
  | begins number name => exact Nat.le_succ _
  | ended c => exact Nat.le_refl _
  | meanwhile own others => exact Nat.le_refl _

theorem mem_used (climbs : counter a ≤ counter (a.move m)) :
    id ∈ a.used counter m ↔ counter a ≤ id ∧ id < counter (a.move m) := by
  rw [used, List.mem_range'_1, Nat.add_sub_of_le climbs]

theorem taken_cons_of_pos (h : kind m = true) :
    a.taken counter kind (m :: moves) = a.used counter m ++ (a.move m).taken counter kind moves := by
  rw [taken, if_pos h]

theorem taken_cons_of_neg (h : kind m = false) :
    a.taken counter kind (m :: moves) = (a.move m).taken counter kind moves := by
  rw [taken, h]
  rfl

section Climbing

variable (climbs : ∀ (m : Move σ τ) (a : Premises (σ × τ)), counter a ≤ counter (a.move m))

include climbs

theorem le_of_mem_taken (h : id ∈ a.taken counter kind moves) : counter a ≤ id := by
  induction moves generalizing a with
  | nil => cases h
  | cons m moves ih =>
    rcases List.mem_append.1 h with h | h
    · split at h
      · exact ((mem_used (climbs m a)).1 h).1
      · cases h
    · exact Nat.le_trans (climbs m a) (ih h)

/-- The numbers of a run go up. -/
theorem pairwise_taken (kind : Move σ τ → Bool) (moves : List (Move σ τ))
    (a : Premises (σ × τ)) : (a.taken counter kind moves).Pairwise (· < ·) := by
  induction moves generalizing a with
  | nil => exact .nil
  | cons m moves ih =>
    refine List.pairwise_append.2 ⟨?_, ih _, fun x hx y hy => ?_⟩
    · split
      · exact List.pairwise_lt_range'
      · exact .nil
    · split at hx
      · exact Nat.lt_of_lt_of_le ((mem_used (climbs m a)).1 hx).2 (le_of_mem_taken climbs hy)
      · cases hx

/-- A number is used up once. -/
theorem not_mem_taken_not (h : id ∈ a.taken counter (!kind ·) moves) :
    id ∉ a.taken counter kind moves := by
  induction moves generalizing a with
  | nil => cases h
  | cons m moves ih =>
    intro h'
    have hused : id ∈ a.used counter m ↔ _ := mem_used (climbs m a)
    rcases List.mem_append.1 h with h | h <;> rcases List.mem_append.1 h' with h' | h'
    · cases hm : kind m <;> simp [hm] at h h'
    · split at h
      · exact Nat.not_lt.2 (le_of_mem_taken climbs h') (hused.1 h).2
      · cases h
    · split at h'
      · exact Nat.not_lt.2 (le_of_mem_taken climbs h) (hused.1 h').2
      · cases h'
    · exact ih h h'

end Climbing

/-- What is taken in the rest of a run, but not by other registries, is renamed to what is next in
another process. -/
def ClosesUp (g : Nat → Nat) (i : Nat) (counter : Premises (σ × τ) → Nat)
    (moves : List (Move σ τ)) (a a' : Premises (σ × τ)) : Prop :=
  (a.taken counter (!Move.isForeign i ·) moves).map g =
    List.range' (counter a') (a.taken counter (!Move.isForeign i ·) moves).length

/-- A move is counted in another process, unless it is foreign. -/
def InStep (i : Nat) (counter : Premises (σ × τ) → Nat) (m : Move σ τ)
    (a a' b' : Premises (σ × τ)) : Prop :=
  if m.isForeign i then counter b' = counter a'
  else counter b' + counter a = counter a' + counter (a.move m)

/-- The numbers of the first move are renamed to those that are next. -/
theorem ClosesUp.renumbers (h : ClosesUp g i counter (m :: moves) a a')
    (climbs : counter a ≤ counter (a.move m)) (hm : m.isForeign i = false) :
    Site.Renumbers g (counter a) (counter a') (counter (a.move m)) := by
  rw [ClosesUp, taken_cons_of_pos (by rw [hm]; rfl), used, List.length_append,
    List.length_range'] at h
  obtain ⟨hnumbers, _⟩ := renumbers_of_map_eq h
  rwa [Nat.add_sub_of_le climbs] at hnumbers

theorem ClosesUp.next (h : ClosesUp g i counter (m :: moves) a a')
    (climbs : counter a ≤ counter (a.move m)) (hstep : InStep i counter m a a' b') :
    ClosesUp g i counter moves (a.move m) b' := by
  unfold InStep at hstep
  cases hm : m.isForeign i with
  | true =>
    rw [if_pos hm] at hstep
    rw [ClosesUp, taken_cons_of_neg (by rw [hm]; rfl), ← hstep] at h
    exact h
  | false =>
    rw [hm, if_neg Bool.false_ne_true] at hstep
    rw [ClosesUp, taken_cons_of_pos (by rw [hm]; rfl), used, List.length_append,
      List.length_range'] at h
    obtain ⟨_, hrest⟩ := renumbers_of_map_eq h
    rwa [show counter a' + (counter (a.move m) - counter a) = counter b' by omega] at hrest

end Numbers

end Premises

namespace Campus

/-! ### A run and what is left of it -/

/-- States that agree in the part of the one registry's transport. -/
def SameOwn (n n' : σ × τ) : Prop := n.1 = n'.1

/-- A transport beside another answers by its own part. -/
theorem alike_left (t : Transport σ) :
    Transport.Alike (SameOwn : σ × τ → σ × τ → Prop) t.left t.left := by
  constructor <;> rintro ⟨n, rest⟩ ⟨_, rest'⟩ rfl <;> intros <;> exact ⟨rfl, rfl⟩

/-- The registry at a position in a run, and the same registry in what is left of the run. The
threads of PETs of VMs that are gone have nothing to do with it, and all other ids that were given
out were given out again. -/
structure Echoes (i : Nat) (f : Renaming) (gone : List Nat) (a a' : Campus (σ × τ))
    (k k' : Chronicle (σ × τ)) : Prop where
  here : a.chronicle? i = some k
  there : a'.chronicle? i = some k'
  mirrors : k.Mirrors SameOwn f a.process.nextVm a'.process.nextVm k'
  transport : k'.stage.site.registry.transport = k.stage.site.registry.transport
  others : ∀ j ≠ i, ∀ k₁, a.chronicle? j = some k₁ →
    k₁.stage.site.registry.id ≠ k.stage.site.registry.id ∧
      k₁.stage.site.registry.transport.Spares Prod.fst
  bound : ∀ b ∈ a.process.bindings, b.registry = k.stage.site.registry.id →
    ∀ vm ∈ gone, b.context.child? ≠ some vm
  begun : ∀ vm < a.process.nextVm, vm ∉ gone → f.vm vm < a'.process.nextVm

namespace Echoes

variable {i j : Nat} {f : Renaming} {gone : List Nat} {a a' : Campus (σ × τ)}
  {k k' k₁ : Chronicle (σ × τ)}

theorem nextVm_eq (h : Echoes i f gone a a' k k') : k.stage.site.nextVm = a.process.nextVm :=
  congrArg Process.nextVm (toProcess_of_chronicle? h.here)

theorem nextVm_eq' (h : Echoes i f gone a a' k k') : k'.stage.site.nextVm = a'.process.nextVm :=
  congrArg Process.nextVm (toProcess_of_chronicle? h.there)

/-- An operation on the registry is performed in both runs. -/
theorem act (h : Echoes i f gone a a' k k') (op : Operation)
    (hids : Site.Renumbers f.vm a.process.nextVm a'.process.nextVm (k.act op).stage.site.nextVm)
    (hnew : ∀ vm, a.process.nextVm ≤ vm → vm < (k.act op).stage.site.nextVm → vm ∉ gone)
    (hcaller : ∀ c ∈ op.caller?, ∀ vm ∈ gone, c.child? ≠ some vm) :
    Echoes i f gone (a.enter i (k.act op) (k.news op))
      (a'.enter i (k'.act (op.rename f)) (k'.news (op.rename f))) (k.act op)
      (k'.act (op.rename f)) := by
  obtain ⟨_, hmirrors⟩ := h.mirrors.act hids op (Nat.le_refl _)
  have hleaves := k.leaves op
  have hleaves' := k'.leaves (op.rename f)
  have hprocess := toProcess_of_chronicle? h.here
  refine
    { here := chronicle?_enter_self h.here _ _
      there := chronicle?_enter_self h.there _ _
      mirrors := { hmirrors with site := { hmirrors.site with ids := ⟨0, rfl, rfl⟩ } }
      transport := by rw [hleaves.transport, hleaves'.transport, h.transport]
      others := ?_, bound := ?_, begun := ?_ }
  · intro j hj k₂ hk₂
    rw [chronicle?_enter_of_ne hj.symm] at hk₂
    obtain ⟨k₀, hk₀, rfl⟩ := Option.map_eq_some_iff.1 hk₂
    rw [hleaves.id]
    exact h.others j hj k₀ hk₀
  · intro b hb hregistry vm hvm
    rw [hleaves.id] at hregistry
    rcases Chronicle.mem_bindings_act hb with hold | hown | ⟨vm', hvm', hlow, hhigh⟩
    · rw [hprocess] at hold
      exact h.bound b hold hregistry vm hvm
    · exact hcaller _ hown vm hvm
    · intro heq
      obtain rfl := Option.some.inj (hvm'.symm.trans heq)
      exact hnew _ (h.nextVm_eq ▸ hlow) hhigh hvm
  · intro vm hvm hkept
    change vm < (k.act op).stage.site.nextVm at hvm
    show f.vm vm < (k'.act (op.rename f)).stage.site.nextVm
    obtain ⟨used, hnext, hnext'⟩ := hmirrors.site.ids
    rcases Nat.lt_or_ge vm a.process.nextVm with hold | hnew
    · have hle := h.begun vm hold hkept
      omega
    · have hnumber := hids (vm - a.process.nextVm) (by omega)
      rw [Nat.add_sub_of_le hnew] at hnumber
      omega

/-- An operation on another registry goes unnoticed. -/
theorem act_other (h : Echoes i f gone a a' k k') (hj : j ≠ i) (hk₁ : a.chronicle? j = some k₁)
    (op : Operation)
    (hnew : ∀ vm, a.process.nextVm ≤ vm → vm < (k₁.act op).stage.site.nextVm → vm ∈ gone) :
    Echoes i f gone (a.enter j (k₁.act op) (k₁.news op)) a'
      (k.within (k₁.act op).stage.site.toProcess) k' := by
  obtain ⟨hid, hcalls⟩ := h.others j hj k₁ hk₁
  have hspares := Chronicle.spares_act hcalls op
  have hprocess := toProcess_of_chronicle? h.here
  have hprocess₁ := toProcess_of_chronicle? hk₁
  have hown := hspares.others k.stage.site.registry.id hid.symm
  rw [hprocess₁] at hown
  refine
    { here := by rw [chronicle?_enter_of_ne hj, h.here]; rfl
      there := h.there
      mirrors := { h.mirrors with site := { h.mirrors.site with bindings := ?_, net := ?_, ids := ?_ } }
      transport := h.transport
      others := ?_, bound := ?_, begun := ?_ }
  · show k'.stage.site.bindings.ofRegistry k.stage.site.registry.id =
      (Bindings.ofRegistry (k₁.act op).stage.site.bindings k.stage.site.registry.id).map _
    rw [hown, h.mirrors.site.bindings, hprocess]
  · have hnet := h.mirrors.site.net
    rw [hprocess] at hnet
    exact (hspares.net.trans (by rw [hprocess₁])).trans hnet
  · exact ⟨0, rfl, h.nextVm_eq'⟩
  · intro j₂ hj₂ k₂ hk₂
    rcases chronicle?_enter hk₁ hk₂ with ⟨rfl, rfl⟩ | ⟨_, k₀, hk₀, rfl⟩
    · exact ⟨hspares.id ▸ hid, hspares.calls hcalls⟩
    · exact h.others j₂ hj₂ k₀ hk₀
  · intro b hb hregistry
    have hmem : b ∈ (k₁.act op).stage.site.bindings.ofRegistry k.stage.site.registry.id :=
      List.mem_filter.2 ⟨hb, decide_eq_true hregistry⟩
    rw [hown] at hmem
    exact h.bound b (List.mem_filter.1 hmem).1 hregistry
  · intro vm hvm hkept
    rcases Nat.lt_or_ge vm a.process.nextVm with hold | hge
    · exact h.begun vm hold hkept
    · exact absurd (hnew vm hge hvm) hkept

/-- What is said of the other registries still holds when a thread has ended. -/
theorem others_endThread (h : Echoes i f gone a a' k k') (c : ExecutionContext) :
    ∀ j ≠ i, ∀ k₁, (a.endThread c).chronicle? j = some k₁ →
      k₁.stage.site.registry.id ≠ k.stage.site.registry.id ∧
        k₁.stage.site.registry.transport.Spares Prod.fst := by
  intro j hj k₂ hk₂
  rw [chronicle?_endThread] at hk₂
  obtain ⟨k₀, hk₀, rfl⟩ := Option.map_eq_some_iff.1 hk₂
  exact h.others j hj k₀ hk₀

theorem bound_endThread (h : Echoes i f gone a a' k k') (c : ExecutionContext) :
    ∀ b ∈ (a.endThread c).process.bindings, b.registry = k.stage.site.registry.id →
      ∀ vm ∈ gone, b.context.child? ≠ some vm :=
  fun b hb => h.bound b (List.mem_filter.1 hb).1

/-- A thread ends in both runs. -/
theorem endThread (h : Echoes i f gone a a' k k')
    (c : ExecutionContext) : Echoes i f gone (a.endThread c) (a'.endThread (c.rename f))
      (k.endThread c) (k'.endThread (c.rename f)) := by
  refine
    { here := by rw [chronicle?_endThread, h.here]; rfl
      there := by rw [chronicle?_endThread, h.there]; rfl
      mirrors := { h.mirrors with site := h.mirrors.site.rebind ?_ }
      transport := h.transport
      others := h.others_endThread c, bound := h.bound_endThread c, begun := h.begun }
  rw [Bindings.ofRegistry_forget, Bindings.ofRegistry_forget, h.mirrors.site.bindings,
    Bindings.forget_rename]

/-- A thread that is gone has no bindings for the registry to lose. -/
theorem endThread_gone (h : Echoes i f gone a a' k k') {c : ExecutionContext} {vm : Nat}
    (hvm : vm ∈ gone) (hc : c.child? = some vm) :
    Echoes i f gone (a.endThread c) a' (k.endThread c) k' := by
  have hprocess := toProcess_of_chronicle? h.here
  refine
    { here := by rw [chronicle?_endThread, h.here]; rfl
      there := h.there
      mirrors := { h.mirrors with site := { h.mirrors.site with bindings := ?_ } }
      transport := h.transport
      others := h.others_endThread c, bound := h.bound_endThread c, begun := h.begun }
  show k'.stage.site.bindings.ofRegistry k.stage.site.registry.id =
    (Bindings.ofRegistry (k.stage.site.bindings.forget c) k.stage.site.registry.id).map _
  rw [Bindings.ofRegistry_forget, h.mirrors.site.bindings, Bindings.forget, List.filter_eq_self.2]
  intro b hb
  obtain ⟨hb, hown⟩ := List.mem_filter.1 hb
  refine decide_eq_true fun heq => ?_
  exact h.bound b (hprocess ▸ hb) (of_decide_eq_true hown) vm hvm (heq ▸ hc)

/-- The transports are used otherwise. -/
theorem within (h : Echoes i f gone a a' k k') {net net' : σ × τ} (hnet : SameOwn net net') :
    Echoes i f gone (a.within net) (a'.within net') (k.within { a.process with net })
      (k'.within { a'.process with net := net' }) := by
  have hprocess := toProcess_of_chronicle? h.here
  have hprocess' := toProcess_of_chronicle? h.there
  refine
    { here := by rw [chronicle?_within, h.here]; rfl
      there := by rw [chronicle?_within, h.there]; rfl
      mirrors := { h.mirrors with
        site := { h.mirrors.site with bindings := ?_, net := hnet, ids := ⟨0, rfl, rfl⟩ } }
      transport := h.transport
      others := ?_, bound := h.bound, begun := h.begun }
  · have hbindings := h.mirrors.site.bindings
    rwa [hprocess, hprocess'] at hbindings
  · intro j hj k₂ hk₂
    rw [chronicle?_within] at hk₂
    obtain ⟨k₀, hk₀, rfl⟩ := Option.map_eq_some_iff.1 hk₂
    exact h.others j hj k₀ hk₀

/-- The registry has kept the same up to ids, and every context has the same VM in it. -/
theorem same (h : Echoes i f gone a a' k k') :
    k'.stage.site.registry = k.stage.site.registry.rename f k.stage.site.registry.transport ∧
      ∀ c, Answers f c (VmHandle.rename f) (k.stage.site.current c)
        (k'.stage.site.current (c.rename f)) :=
  ⟨h.transport ▸ h.mirrors.site.registry, fun c => h.mirrors.site.current c⟩

end Echoes

end Campus

/-! ### Whole runs -/

namespace Premises

/-- To the registry at a position, a run from `a` and what is left of it from `a'` are the same up
to ids of VMs and numbers of threads. -/
structure Undisturbed (i : Nat) (f : Renaming) (gone : List Nat) (moves : List (Move σ τ))
    (a a' : Premises (σ × τ)) : Prop where
  /-- If the run can be made, so can what is left of it. -/
  permitted : a.Permits moves → a'.Permits (moves.filterMap (Move.own i gone f))
  /-- Every operation on the registry gives the same answer. -/
  answers : List.Forall₂ (Answer.Echo f) (a.answers i moves)
    (a'.answers i (moves.filterMap (Move.own i gone f)))
  /-- At every time, the registry has come to the same, and every context has the same VM. -/
  states : ∀ before, before <+: moves → ∃ k k', (a.play before).campus.chronicle? i = some k ∧
    (a'.play (before.filterMap (Move.own i gone f))).campus.chronicle? i = some k' ∧
    k'.stage.site.registry = k.stage.site.registry.rename f k.stage.site.registry.transport ∧
    ∀ c, Answers f c (VmHandle.rename f) (k.stage.site.current c)
      (k'.stage.site.current (c.rename f))

/-- A move and what is left of it come to the same for the registry at a position. -/
structure Follows (i : Nat) (f : Renaming) (gone : List Nat) (m : Move σ τ)
    (a a' : Premises (σ × τ)) : Prop where
  permitted : a.Allows m → a'.Permits (m.own i gone f).toList
  heard : List.Forall₂ (Answer.Echo f) (a.heard i m) (a'.answers i (m.own i gone f).toList)
  vms : InStep i nextVm m a a' (a'.play (m.own i gone f).toList)
  threads : InStep i nextThread m a a' (a'.play (m.own i gone f).toList)
  echoes : ∃ k k', Campus.Echoes i f gone (a.move m).campus
    (a'.play (m.own i gone f).toList).campus k k'

variable {i : Nat} {f : Renaming} {gone : List Nat} {a a' : Premises (σ × τ)}
  {k k' : Chronicle (σ × τ)} {m : Move σ τ} {moves : List (Move σ τ)}

theorem play_append (before moves : List (Move σ τ)) (a : Premises (σ × τ)) :
    a.play (before ++ moves) = (a.play before).play moves := by
  induction before generalizing a with
  | nil => rfl
  | cons m before ih => exact ih (a.move m)

theorem answers_append (i : Nat) (before moves : List (Move σ τ)) (a : Premises (σ × τ)) :
    a.answers i (before ++ moves) = a.answers i before ++ (a.play before).answers i moves := by
  induction before generalizing a with
  | nil => rfl
  | cons m before ih =>
    rw [List.cons_append, answers, answers, ih, List.append_assoc]
    rfl

theorem permits_append {before moves : List (Move σ τ)} {a : Premises (σ × τ)} :
    a.Permits (before ++ moves) ↔ a.Permits before ∧ (a.play before).Permits moves := by
  induction before generalizing a with
  | nil => simp [Permits, play]
  | cons m before ih => simp only [List.cons_append, Permits, play, ih, and_assoc]

theorem filterMap_own_cons (i : Nat) (gone : List Nat) (f : Renaming) (m : Move σ τ)
    (moves : List (Move σ τ)) : (m :: moves).filterMap (Move.own i gone f) =
      (m.own i gone f).toList ++ moves.filterMap (Move.own i gone f) := by
  cases h : m.own i gone f <;> simp [h]

/-- A move before the others. -/
theorem Undisturbed.cons (h : Campus.Echoes i f gone a.campus a'.campus k k')
    (first : Follows i f gone m a a')
    (rest : Undisturbed i f gone moves (a.move m) (a'.play (m.own i gone f).toList)) :
    Undisturbed i f gone (m :: moves) a a' where
  permitted hrun := by
    rw [filterMap_own_cons, permits_append]
    exact ⟨first.permitted hrun.1, rest.permitted hrun.2⟩
  answers := by
    rw [filterMap_own_cons, answers_append]
    exact List.rel_append first.heard rest.answers
  states before hbefore := by
    rcases List.prefix_cons_iff.1 hbefore with rfl | ⟨later, rfl, hlater⟩
    · exact ⟨k, k', h.here, h.there, h.same⟩
    · rw [filterMap_own_cons, play_append]
      exact rest.states later hlater

/-! ### One move -/

theorem campus_act (hk : a.campus.chronicle? i = some k) (op : Operation) :
    (a.move (.act i op)).campus = a.campus.enter i (k.act op) (k.news op) := by
  show a.campus.perform i op = _
  rw [Campus.perform, hk]

theorem nextThread_act (hk : a.campus.chronicle? i = some k) (op : Operation) :
    (a.move (.act i op)).nextThread = a.nextThread + k.threadsOf op := by
  show _ + (a.campus.chronicle? i).elim 0 _ = _
  rw [hk]
  rfl

theorem nextVm_act (hk : a.campus.chronicle? i = some k) (op : Operation) :
    (a.move (.act i op)).nextVm = (k.act op).stage.site.nextVm := by
  rw [nextVm, campus_act hk]
  rfl

/-- What can be performed in the run can be performed in what is left of it. -/
theorem permits_act (h : Campus.Echoes i f gone a.campus a'.campus k k') {op : Operation}
    (hcaller : ∀ c ∈ op.caller?, ∀ vm ∈ gone, c.child? ≠ some vm)
    (allowed : a.Allows (.act i op)) : a'.Permits [.act i (op.rename f)] := by
  refine ⟨fun k₁ hk₁ => ?_, trivial⟩
  obtain rfl := Option.some.inj (h.there.symm.trans hk₁)
  refine h.mirrors.allows (fun c hc hbegun => ?_) (allowed k h.here)
  cases c with
  | pet vm number =>
    rw [h.nextVm_eq']
    exact h.begun vm (h.nextVm_eq ▸ hbegun) fun hvm => hcaller _ hc vm hvm rfl
  | main => trivial
  | thread number name => trivial

/-- An operation on the registry. -/
theorem follows_act (h : Campus.Echoes i f gone a.campus a'.campus k k') (op : Operation)
    (hids : Site.Renumbers f.vm a.nextVm a'.nextVm (a.move (.act i op)).nextVm)
    (hnew : ∀ id ∈ a.used nextVm (.act i op), id ∉ gone)
    (hcaller : ∀ c ∈ op.caller?, ∀ vm ∈ gone, c.child? ≠ some vm) :
    Follows i f gone (.act i op) a a' := by
  have hown : (Move.act i op).own i gone f = some (Move.act i (op.rename f) : Move σ τ) := if_pos rfl
  have hforeign : (Move.act i op : Move σ τ).isForeign i = false := bne_self_eq_false i
  have hclimbs := nextVm_le_move (.act i op) a
  rw [nextVm_act h.here] at hids
  obtain ⟨hanswer, hmirrors⟩ := h.mirrors.act hids op (Nat.le_refl _)
  have hthreads := h.mirrors.threadsOf_eq hids op (Nat.le_refl _)
  constructor
  · rw [hown]
    exact permits_act h hcaller
  · rw [hown]
    simpa [heard, answers, h.here, h.there] using hanswer
  · obtain ⟨used, hnext, hnext'⟩ := hmirrors.site.ids
    rw [InStep, hforeign, if_neg Bool.false_ne_true, hown]
    show (a'.move _).nextVm + _ = _
    rw [nextVm_act h.here, nextVm_act h.there, hnext, hnext']
    show a'.nextVm + used + a.nextVm = a'.nextVm + (a.nextVm + used)
    omega
  · rw [InStep, hforeign, if_neg Bool.false_ne_true, hown]
    show (a'.move _).nextThread + _ = _
    rw [nextThread_act h.here, nextThread_act h.there, hthreads]
    omega
  · rw [hown]
    refine ⟨k.act op, k'.act (op.rename f), ?_⟩
    show Campus.Echoes i f gone _ (a'.move (.act i (op.rename f))).campus _ _
    rw [campus_act h.here, campus_act h.there]
    refine h.act op hids (fun vm hlow hhigh => hnew vm ((mem_used hclimbs).2 ⟨hlow, ?_⟩)) hcaller
    rwa [nextVm_act h.here]

/-- An operation on another registry is left out. -/
theorem follows_foreign (h : Campus.Echoes i f gone a.campus a'.campus k k') {j : Nat} (hj : j ≠ i)
    (op : Operation) (hgone : ∀ id ∈ a.used nextVm (.act j op), id ∈ gone) :
    Follows i f gone (.act j op) a a' := by
  have hown : (Move.act j op).own i gone f = (none : Option (Move σ τ)) := if_neg hj
  have hforeign : (Move.act j op : Move σ τ).isForeign i = true := bne_iff_ne.2 hj
  have hclimbs := nextVm_le_move (.act j op) a
  constructor
  · rw [hown]
    exact fun _ => trivial
  · rw [hown, heard, if_neg hj]
    exact .nil
  · rw [hown, InStep, if_pos hforeign]
    rfl
  · rw [hown, InStep, if_pos hforeign]
    rfl
  · rw [hown]
    cases hk : a.campus.chronicle? j with
    | none =>
      refine ⟨k, k', ?_⟩
      show Campus.Echoes i f gone (a.campus.perform j op) a'.campus k k'
      rwa [Campus.perform, hk]
    | some k₁ =>
      rw [nextVm_act hk] at hclimbs
      rw [campus_act hk]
      refine ⟨_, k', h.act_other hj hk op fun vm hlow hhigh => hgone vm ?_⟩
      rw [mem_used (nextVm_le_move _ a), nextVm_act hk]
      exact ⟨hlow, hhigh⟩

/-- A thread that the program starts has a new number. -/
theorem follows_begins (h : Campus.Echoes i f gone a.campus a'.campus k k') (number : Nat)
    (name : Option String) (hnumber : f.thread a.nextThread = a'.nextThread) :
    Follows i f gone (.begins number name) a a' where
  permitted hallowed := ⟨hallowed ▸ hnumber, trivial⟩
  heard := .nil
  vms := rfl
  threads := by
    show a'.nextThread + 1 + a.nextThread = a'.nextThread + (a.nextThread + 1)
    omega
  echoes := ⟨k, k', h⟩

/-- A thread ends that has to do with the registry, or one that has nothing to do with it. -/
theorem follows_ended (h : Campus.Echoes i f gone a.campus a'.campus k k') (c : ExecutionContext) :
    Follows i f gone (.ended c) a a' := by
  by_cases hc : ∃ vm ∈ gone, c.child? = some vm
  · have hown : (Move.ended c).own i gone f = (none : Option (Move σ τ)) := if_pos hc
    constructor <;> rw [hown]
    · exact fun _ => trivial
    · exact .nil
    · rfl
    · rfl
    · obtain ⟨vm, hvm, hc⟩ := hc
      exact ⟨_, k', h.endThread_gone hvm hc⟩
  · have hown : (Move.ended c).own i gone f = some (Move.ended (c.rename f) : Move σ τ) := if_neg hc
    constructor <;> rw [hown]
    · exact fun _ => ⟨trivial, trivial⟩
    · exact .nil
    · rfl
    · rfl
    · exact ⟨_, _, h.endThread c⟩

/-- The transports are used otherwise. -/
theorem follows_meanwhile (h : Campus.Echoes i f gone a.campus a'.campus k k') (own : σ → σ)
    (others : τ → τ) : Follows i f gone (.meanwhile own others) a a' where
  permitted _ := ⟨trivial, trivial⟩
  heard := .nil
  vms := rfl
  threads := rfl
  echoes := by
    refine ⟨_, _, h.within ?_⟩
    have hnet := h.mirrors.site.net
    rw [Campus.toProcess_of_chronicle? h.here, Campus.toProcess_of_chronicle? h.there] at hnet
    exact congrArg own hnet

/-- Every move and what is left of it come to the same. -/
theorem follows (h : Campus.Echoes i f gone a.campus a'.campus k k')
    (vms : ClosesUp f.vm i nextVm (m :: moves) a a')
    (threads : ClosesUp f.thread i nextThread (m :: moves) a a')
    (hkept : ∀ id ∈ a.taken nextVm (!Move.isForeign i ·) (m :: moves), id ∉ gone)
    (hgone : ∀ id ∈ a.taken nextVm (Move.isForeign i) (m :: moves), id ∈ gone)
    (callers : ∀ op, .act i op = m → ∀ c ∈ op.caller?, ∀ vm ∈ gone, c.child? ≠ some vm) :
    Follows i f gone m a a' := by
  cases m with
  | act j op =>
    by_cases hj : j = i
    · subst hj
      have hown : (Move.act j op : Move σ τ).isForeign j = false := bne_self_eq_false j
      rw [taken_cons_of_pos (by rw [hown]; rfl)] at hkept
      exact follows_act h op (vms.renumbers (nextVm_le_move _ a) hown)
        (fun id hid => hkept id (List.mem_append_left _ hid)) (callers op rfl)
    · have hforeign : (Move.act j op : Move σ τ).isForeign i = true := bne_iff_ne.2 hj
      rw [taken_cons_of_pos hforeign] at hgone
      exact follows_foreign h hj op fun id hid => hgone id (List.mem_append_left _ hid)
  | begins number name =>
    exact follows_begins h number name
      (threads.renumbers (nextThread_le_move _ a) rfl 0 (Nat.lt_succ_self _))
  | ended c => exact follows_ended h c
  | meanwhile own others => exact follows_meanwhile h own others

/-- A run and what is left of it, from where they are the same for the registry. -/
theorem undisturbed_from (h : Campus.Echoes i f gone a.campus a'.campus k k')
    (vms : ClosesUp f.vm i nextVm moves a a')
    (threads : ClosesUp f.thread i nextThread moves a a')
    (hkept : ∀ id ∈ a.taken nextVm (!Move.isForeign i ·) moves, id ∉ gone)
    (hgone : ∀ id ∈ a.taken nextVm (Move.isForeign i) moves, id ∈ gone)
    (callers : ∀ op, .act i op ∈ moves → ∀ c ∈ op.caller?, ∀ vm ∈ gone, c.child? ≠ some vm) :
    Undisturbed i f gone moves a a' := by
  induction moves generalizing a a' k k' with
  | nil =>
    refine ⟨fun _ => trivial, .nil, fun before hbefore => ?_⟩
    obtain rfl := List.prefix_nil.1 hbefore
    exact ⟨k, k', h.here, h.there, h.same⟩
  | cons m moves ih =>
    have first := follows h vms threads hkept hgone fun op hop =>
      callers op (hop ▸ List.mem_cons_self)
    obtain ⟨k₁, k₁', hnext⟩ := first.echoes
    refine .cons h first (ih hnext ?_ ?_ ?_ ?_ ?_)
    · exact vms.next (nextVm_le_move m a) first.vms
    · exact threads.next (nextThread_le_move m a) first.threads
    · exact fun id hid => hkept id (List.mem_append_right _ hid)
    · exact fun id hid => hgone id (List.mem_append_right _ hid)
    · exact fun op hop => callers op (List.mem_cons_of_mem _ hop)

/-! ### Registries of their own -/

/-- The registry at a position is new, and no other registry uses its transport. -/
structure Apart (i : Nat) (t : Transport σ) (id : Nat) (a : Premises (σ × τ)) : Prop where
  new : ∃ config detected,
    a.campus.dossiers[i]? = some { registry := { id, transport := t.left, config, detected } }
  unbound : a.campus.process.bindings.ofRegistry id = []
  others : ∀ j ≠ i, ∀ d, a.campus.dossiers[j]? = some d →
    d.registry.id ≠ id ∧ ∃ u : Transport τ, d.registry.transport = u.right

/-- A new registry is the same in both runs before the first move. -/
theorem Apart.echoes {id : Nat} {t : Transport σ} {start : Premises (σ × τ)}
    (h : start.Apart i t id) (hlow : ∀ id < start.nextVm, f.vm id = id) (gone : List Nat) :
    ∃ k, Campus.Echoes i f gone start.campus start.campus k k := by
  obtain ⟨config, detected, hnew⟩ := h.new
  have hunbound := h.unbound
  refine ⟨_, Option.map_eq_some_iff.2 ⟨_, hnew, rfl⟩, Option.map_eq_some_iff.2 ⟨_, hnew, rfl⟩,
    ⟨⟨Campus.alike_left t, rfl, ?_, rfl, 0, rfl, rfl⟩, rfl, rfl⟩, rfl, ?_, ?_, ?_⟩
  · show start.campus.process.bindings.ofRegistry id =
      (start.campus.process.bindings.ofRegistry id).map _
    rw [hunbound]
    rfl
  · intro j hj k hk
    obtain ⟨d, hd, rfl⟩ := Option.map_eq_some_iff.1 hk
    obtain ⟨hid, u, hu⟩ := h.others j hj d hd
    refine ⟨hid, ?_⟩
    show d.registry.transport.Spares Prod.fst
    rw [hu]
    exact u.spares_right
  · exact fun b hb hregistry => absurd hregistry (Bindings.ofRegistry_eq_nil_iff.1 hunbound b hb)
  · intro vm hvm _
    rwa [hlow vm hvm]

/-- **A registry with a transport of its own is not disturbed by the others.** Take any run in which
no operation on it is performed by an entry that was launched through another registry, though the
others may be used from any thread, also from its own PETs. If all their operations are taken out of
the run, with the threads of their PETs, every operation on it gives the same answer, and at every
time it has the same state, holders, children and topology and every context has the same VM in
it, up to a renaming that keeps the order of its VM ids and of the numbers of those threads that are
not PETs of the others. -/
theorem undisturbed {i id : Nat} {t : Transport σ} {start : Premises (σ × τ)}
    {moves : List (Move σ τ)} (apart : start.Apart i t id)
    (callers : ∀ op, .act i op ∈ moves → ∀ c ∈ op.caller?,
      ∀ vm ∈ start.taken nextVm (Move.isForeign i) moves, c.child? ≠ some vm) :
    ∃ f : Renaming,
      (∀ id < start.nextVm, f.vm id = id) ∧
      StrictMonoOn f.vm
        {id | id < start.nextVm ∨ id ∈ start.taken nextVm (!Move.isForeign i ·) moves} ∧
      (∀ number < start.nextThread, f.thread number = number) ∧
      StrictMonoOn f.thread
        {number | number < start.nextThread ∨
          number ∈ start.taken nextThread (!Move.isForeign i ·) moves} ∧
      Undisturbed i f (start.taken nextVm (Move.isForeign i) moves) moves start start := by
  have hvms := pairwise_taken nextVm_le_move (!Move.isForeign i ·) moves start
  have hvm : ∀ id ∈ start.taken nextVm (!Move.isForeign i ·) moves, start.nextVm ≤ id :=
    fun _ => le_of_mem_taken nextVm_le_move
  have hthreads := pairwise_taken nextThread_le_move (!Move.isForeign i ·) moves start
  have hthread : ∀ number ∈ start.taken nextThread (!Move.isForeign i ·) moves,
      start.nextThread ≤ number := fun _ => le_of_mem_taken nextThread_le_move
  obtain ⟨vm, hvmInjective, hvmLow, hvmMap⟩ := exists_renumbering hvms hvm
  obtain ⟨thread, hthreadInjective, hthreadLow, hthreadMap⟩ := exists_renumbering hthreads hthread
  let f : Renaming := ⟨vm, thread, hvmInjective, hthreadInjective⟩
  obtain ⟨k, hstart⟩ : ∃ k, Campus.Echoes i f (start.taken nextVm (Move.isForeign i) moves)
    start.campus start.campus k k := apart.echoes hvmLow _
  exact ⟨f, hvmLow, strictMonoOn_of_map_eq hvms hvm hvmLow hvmMap,
    hthreadLow, strictMonoOn_of_map_eq hthreads hthread hthreadLow hthreadMap,
    undisturbed_from hstart hvmMap hthreadMap (fun _ => not_mem_taken_not nextVm_le_move)
      (fun _ hid => hid) callers⟩

/-- Two registries side by side, in a process whose only thread is the main one. -/
def sideBySide (t : Transport σ) (u : Transport τ) (net : σ × τ) : Premises (σ × τ) where
  campus := ({ process := { net } } : Campus (σ × τ)) |>.found t.left {} 4 |>.found u.right {} 4
  nextThread := 2

theorem apart_sideBySide (t : Transport σ) (u : Transport τ) (net : σ × τ) :
    (sideBySide t u net).Apart 0 t 1 where
  new := ⟨{}, 4, rfl⟩
  unbound := rfl
  others := by
    intro j hj d hd
    match j, hj, hd with
    | 1, _, hd =>
      obtain rfl := Option.some.inj hd
      exact ⟨Nat.succ_ne_self 1, u, rfl⟩
    | _ + 2, _, hd => cases hd

/-- The plan of a registry with four PEs for children that get equally many. -/
def shares (global : Nat) (slots : List ChildSlot) : SpawnPlan :=
  ⟨⟨.ofTopology global (.uniform 1 4) ⟨0, 4, 0⟩, 0⟩, .maxThreads, slots⟩

def halves : List ChildSlot :=
  [{ partition := ⟨0, [⟨0, 0⟩, ⟨0, 1⟩]⟩ }, { partition := ⟨1, [⟨0, 2⟩, ⟨0, 3⟩]⟩ }]

def whole : ChildSlot := { partition := ⟨0, [⟨0, 0⟩, ⟨0, 1⟩, ⟨0, 2⟩, ⟨0, 3⟩]⟩ }

/-- The other registry is brought up first and again by a PET of the one registry's first child,
which then ends and is retired. A thread is started while the children run, one after a child of the
other registry got its threads. -/
def crossing : List (Move Nat Nat) :=
  [.act 1 (.bringUp .main), .act 0 (.bringUp .main), .act 1 (.takeDown .main),
    .act 0 (.startup .ample .main (shares 2 halves)), .begins 6 none,
    .act 1 (.bringUp (.pet 3 0)), .act 1 (.startup .ample (.pet 3 0) (shares 5 halves)),
    .begins 11 none, .ended (.pet 3 0), .ended (.pet 3 1), .act 0 (.retire 0),
    .act 0 (.takeDown .main)]

theorem undisturbed_crossing :
    let start := sideBySide (.limited 9) (.limited 9) (0, 0)
    start.taken nextVm (!Move.isForeign 0 ·) crossing = [2, 3, 4] ∧
    start.taken nextVm (Move.isForeign 0) crossing = [1, 5, 6, 7] ∧
    start.taken nextThread (!Move.isForeign 0 ·) crossing = [2, 3, 4, 5, 6, 11] ∧
    ∃ f : Renaming,
      (∀ id < start.nextVm, f.vm id = id) ∧
      StrictMonoOn f.vm
        {id | id < start.nextVm ∨ id ∈ start.taken nextVm (!Move.isForeign 0 ·) crossing} ∧
      (∀ number < start.nextThread, f.thread number = number) ∧
      StrictMonoOn f.thread
        {number | number < start.nextThread ∨
          number ∈ start.taken nextThread (!Move.isForeign 0 ·) crossing} ∧
      Undisturbed 0 f (start.taken nextVm (Move.isForeign 0) crossing) crossing start start := by
  refine ⟨by decide +kernel, by decide +kernel, by decide +kernel,
    undisturbed (apart_sideBySide _ _ _) ?_⟩
  intro op hop c hc vm _
  -- Whoever performs an operation on the registry is the main thread.
  have hmain : c = .main := by
    simp [crossing] at hop
    rcases hop with rfl | rfl | rfl | rfl <;> simp_all [Operation.caller?]
  subst hmain
  simp [ExecutionContext.child?]

/-- Both registries get children, and then a thread is started. -/
def overtaken : List (Move Nat Nat) :=
  [.act 1 (.bringUp .main), .act 0 (.bringUp .main),
    .act 1 (.startup .ample .main (shares 1 [whole])),
    .act 0 (.startup .ample .main (shares 2 halves)), .begins 10 none]

/-- The same without the other registry. -/
def alone : List (Move Nat Nat) :=
  [.act 0 (.bringUp .main), .act 0 (.startup .ample .main (shares 1 halves)), .begins 6 none]

/-- The VM ids are not all that changes. A thread without a name is told that it has no VM by its
number, and an operation that asks for a VM by an id may be given the id of a VM that is gone. -/
theorem not_by_ids_alone :
    let start := sideBySide (.limited 9) (.limited 9) (0, 0)
    let ids := fun (moves : List (Move Nat Nat)) => start.taken nextVm (!Move.isForeign 0 ·) moves
    let registry := fun (moves : List (Move Nat Nat)) => (start.play moves).campus.chronicle? 0
    start.Permits overtaken ∧ start.Permits alone ∧
      ids overtaken = [2, 4, 5] ∧ ids alone = [1, 2, 3] ∧
      (registry overtaken).map (·.stage.site.current (.thread 10 none)) =
        some (.error (.noContext "ThreadId(10)")) ∧
      (registry alone).map (·.stage.site.current (.thread 6 none)) =
        some (.error (.noContext "ThreadId(6)")) ∧
      (registry overtaken).map (·.stage.site.registry.childState? 3) = some none ∧
      (registry alone).map (·.stage.site.registry.childState? 3) = some (some .running) ∧
      ¬ ∃ g : Nat → Nat, StrictMono g ∧ (ids overtaken).map g = ids alone := by
  refine ⟨⟨fun _ _ => trivial, fun _ _ => trivial, ?_, ?_, rfl, trivial⟩,
    ⟨fun _ _ => trivial, ?_, rfl, trivial⟩, by decide +kernel, by decide +kernel, rfl, rfl,
    by decide +kernel, by decide +kernel, ?_⟩
  · rintro _ ⟨⟩
    exact ⟨(shares 1 [whole]).parent, 1, .maxThreads, rfl, Or.inl List.mem_cons_self⟩
  · rintro _ ⟨⟩
    exact ⟨(shares 2 halves).parent, 2, .maxThreads, rfl, Or.inl List.mem_cons_self⟩
  · rintro _ ⟨⟩
    exact ⟨(shares 1 halves).parent, 2, .maxThreads, rfl, Or.inl List.mem_cons_self⟩
  · -- No number is left for the id between those of the registry and of its first child.
    rintro ⟨g, hg, hmap⟩
    change [g 2, g 4, g 5] = [1, 2, 3] at hmap
    obtain ⟨h2, h4, -⟩ : g 2 = 1 ∧ g 4 = 2 ∧ g 5 = 3 := by simpa using hmap
    have hlow : g 2 < g 3 := hg (by decide)
    have hhigh : g 3 < g 4 := hg (by decide)
    omega

end Premises

end VirtualTopology
