import VirtualTopology.Registry.Ownership

/-!
# Claims on processing elements

What a claim does to the table of holders. A claim that is granted moves exactly the elements
asked for; a claim that is refused names the first element in the way, and after what it took is
given back the table is the one there was before.

## Main statements

- `Owners.claim_eq_ok_iff`: when a claim is granted.
- `Owners.claimFrom_eq_ok`: the table after a claim that is granted.
- `Owners.claim_eq_error`, `Owners.eq_of_claim_eq_error`: the refusal, and the table after it.
- `Owners.claim_all_or_none`: claims and releases on any table with one entry for each element.
-/

namespace VirtualTopology

/-- The refusal of an element that has this holder. -/
def ClaimRefusal.ofOwner (pe : Pe) : Option Nat → ClaimRefusal
  | some owner => held pe owner
  | none => unknown pe

namespace Owners

variable {parent child : Nat} {taken pes : List Pe} {o o' : Owners} {refusal : ClaimRefusal}

/-- The elements without a holder are those that are not in the table. -/
theorem owner?_eq_none_iff {q : Pe} : o.owner? q = none ↔ q ∉ o.pes := by
  rw [owner?, List.lookup_eq_none_iff]
  simp only [Owners.pes, List.mem_map, not_exists, not_and, bne_iff_ne]
  exact forall₂_congr fun x _ => ne_comm

/-- The elements of the table are those that have a holder. -/
theorem mem_pes_iff {q : Pe} : q ∈ o.pes ↔ ∃ owner, o.owner? q = some owner := by
  rw [← Option.ne_none_iff_exists', Ne, owner?_eq_none_iff, Classical.not_not]

/-- In one hand, every element has the same holder. -/
theorem owner?_allHeldBy (vm : Nat) (pes : List Pe) (q : Pe) :
    (allHeldBy vm pes).owner? q = if q ∈ pes then some vm else none := by
  induction pes with
  | nil => rfl
  | cons p pes ih =>
    by_cases hq : q = p
    · simp [allHeldBy, owner?, hq]
    · simpa [allHeldBy, owner?, List.lookup_cons, beq_eq_false_iff_ne.2 hq, hq] using ih

/-- Two tables over the same distinct elements are equal if all holders are. -/
theorem ext_of_nodup (hp : o.pes = o'.pes) (hn : o.pes.Nodup)
    (hq : ∀ q, o.owner? q = o'.owner? q) : o = o' := by
  induction o generalizing o' with
  | nil => exact (List.map_eq_nil_iff.1 hp.symm).symm
  | cons x o ih =>
    cases o' with
    | nil => simp [Owners.pes] at hp
    | cons y o' =>
      obtain ⟨p, v⟩ := x
      obtain ⟨p', v'⟩ := y
      change p :: Owners.pes o = p' :: Owners.pes o' at hp
      change (p :: Owners.pes o).Nodup at hn
      obtain ⟨rfl, hrest⟩ := List.cons.inj hp
      obtain ⟨hpo, hn⟩ := List.nodup_cons.1 hn
      have hv : v = v' := by simpa [owner?] using hq p
      subst hv
      refine congrArg _ (ih hrest hn fun q => ?_)
      -- The first element is in neither rest, so there it has no holder.
      by_cases hpq : q = p
      · subst hpq
        exact (owner?_eq_none_iff.2 hpo).trans (owner?_eq_none_iff.2 (hrest ▸ hpo)).symm
      · simpa [owner?, List.lookup_cons, beq_eq_false_iff_ne.2 hpq] using hq q

/-! ### Claims that are granted -/

/-- What a granted claim found and what it left. -/
theorem claimFrom_eq_ok (hne : parent ≠ child)
    (h : claimFrom parent child taken pes o = (.ok (), o')) :
    pes.Nodup ∧ (∀ q ∈ pes, o.owner? q = some parent) ∧ o'.pes = o.pes ∧
      ∀ q, o'.owner? q = if q ∈ pes then some child else o.owner? q := by
  induction pes generalizing o taken with
  | nil =>
    obtain rfl : o = o' := by simpa [claimFrom] using h
    simp
  | cons pe pes ih =>
    rw [claimFrom] at h
    split at h
    · next owner hpe =>
      split at h
      · next howner =>
        subst howner
        obtain ⟨hn, hall, hkeys, hafter⟩ := ih h
        -- The rest is claimed when `pe` is the child's already, and is all the parent's.
        have hmem : pe ∉ pes := by
          intro hmem
          have hchild := hall pe hmem
          rw [owner?_assign, if_pos rfl, hpe] at hchild
          exact hne (Option.some.inj hchild).symm
        refine ⟨List.nodup_cons.2 ⟨hmem, hn⟩, ?_, hkeys.trans (pes_assign _ _ _), ?_⟩
        · intro q hq
          rcases List.mem_cons.1 hq with rfl | hq
          · exact hpe
          · have hqpe : q ≠ pe := fun h => hmem (h ▸ hq)
            simpa [owner?_assign, hqpe] using hall q hq
        · intro q
          rw [hafter, owner?_assign]
          by_cases hq : q = pe
          · subst hq
            simp [hpe]
          · simp [hq]
      · simp at h
    · simp at h

/-- A claim is granted if all elements are the parent's and none is asked for twice. -/
theorem exists_claimFrom_eq_ok (taken : List Pe) (hn : pes.Nodup)
    (hall : ∀ q ∈ pes, o.owner? q = some parent) :
    ∃ o', claimFrom parent child taken pes o = (.ok (), o') := by
  induction pes generalizing o taken with
  | nil => exact ⟨o, rfl⟩
  | cons pe pes ih =>
    obtain ⟨hpe, hn⟩ := List.nodup_cons.1 hn
    have hrest : ∀ q ∈ pes, (o.assign pe child).owner? q = some parent := by
      intro q hq
      have hqpe : q ≠ pe := fun h => hpe (h ▸ hq)
      rw [owner?_assign, if_neg hqpe]
      exact hall q (List.mem_cons_of_mem _ hq)
    obtain ⟨o', ho'⟩ := ih (pe :: taken) hn hrest
    exact ⟨o', by rw [claimFrom, hall pe List.mem_cons_self]; simpa using ho'⟩

/-- A claim is granted exactly if all elements are the parent's and none is asked for twice. -/
theorem claim_eq_ok_iff (hne : parent ≠ child) :
    (∃ o', claim parent child pes o = (.ok (), o')) ↔
      pes.Nodup ∧ ∀ q ∈ pes, o.owner? q = some parent := by
  constructor
  · rintro ⟨o', h⟩
    obtain ⟨hn, hall, _⟩ := claimFrom_eq_ok hne h
    exact ⟨hn, hall⟩
  · rintro ⟨hn, hall⟩
    exact exists_claimFrom_eq_ok [] hn hall

/-! ### Claims that are refused -/

/-- A refused claim takes what comes before the element in the way, and gives it back. -/
theorem claimFrom_eq_error (h : claimFrom parent child taken pes o = (.error refusal, o')) :
    ∃ before pe after o₁, pes = before ++ pe :: after ∧
      claimFrom parent child taken before o = (.ok (), o₁) ∧ o₁.owner? pe ≠ some parent ∧
      refusal = .ofOwner pe (o₁.owner? pe) ∧
      o' = o₁.release child parent (before.reverse ++ taken) := by
  induction pes generalizing o taken with
  | nil => simp [claimFrom] at h
  | cons pe pes ih =>
    rw [claimFrom] at h
    split at h
    · next owner hpe =>
      split at h
      · next howner =>
        obtain ⟨before, pe', after, o₁, rfl, hok, hparent, hrefusal, hafter⟩ := ih h
        refine ⟨pe :: before, pe', after, o₁, rfl, ?_, hparent, hrefusal, ?_⟩
        · rw [claimFrom, hpe]
          simpa [howner] using hok
        · simpa using hafter
      · next howner =>
        obtain ⟨rfl, rfl⟩ :
            ClaimRefusal.held pe owner = refusal ∧ o.release child parent taken = o' := by
          simpa using h
        exact ⟨[], pe, pes, o, rfl, rfl, by simpa [hpe] using howner, by rw [hpe]; rfl, rfl⟩
    · next hpe =>
      obtain ⟨rfl, rfl⟩ :
          ClaimRefusal.unknown pe = refusal ∧ o.release child parent taken = o' := by
        simpa using h
      exact ⟨[], pe, pes, o, rfl, rfl, by simp [hpe], by rw [hpe]; rfl, rfl⟩

/-- The refusal is about the first element that is not the parent's once those before it were
taken, and leaves every holder as it was. -/
theorem claim_eq_error (hne : parent ≠ child)
    (h : claim parent child pes o = (.error refusal, o')) :
    (∃ before pe after, pes = before ++ pe :: after ∧ before.Nodup ∧
      (∀ q ∈ before, o.owner? q = some parent) ∧
      (pe ∈ before ∨ o.owner? pe ≠ some parent) ∧
      refusal = .ofOwner pe (if pe ∈ before then some child else o.owner? pe)) ∧
    o'.pes = o.pes ∧ ∀ q, o'.owner? q = o.owner? q := by
  obtain ⟨before, pe, after, o₁, hpes, hok, hparent, hrefusal, rfl⟩ := claimFrom_eq_error h
  obtain ⟨hn, hall, hkeys, hafter⟩ := claimFrom_eq_ok hne hok
  rw [hafter] at hparent hrefusal
  refine ⟨⟨before, pe, after, hpes, hn, hall, ?_, hrefusal⟩, ?_, ?_⟩
  · by_cases hpe : pe ∈ before
    · exact Or.inl hpe
    · exact Or.inr (by simpa [hpe] using hparent)
  · simpa using hkeys
  · intro q
    rw [owner?_release, hafter]
    -- What was taken was the parent's and goes back to it.
    by_cases hq : q ∈ before
    · simp [hq, hall q hq]
    · simp [hq]

/-- A refused claim leaves the table as it was. -/
theorem eq_of_claim_eq_error (hne : parent ≠ child) (hn : o.pes.Nodup)
    (h : claim parent child pes o = (.error refusal, o')) : o' = o := by
  obtain ⟨_, hkeys, hafter⟩ := claim_eq_error hne h
  exact ext_of_nodup hkeys (hkeys ▸ hn) hafter

/-- Giving back all that a claim took restores the table. -/
theorem release_of_claim_eq_ok (hne : parent ≠ child) (hn : o.pes.Nodup)
    (h : claim parent child pes o = (.ok (), o')) : o'.release child parent pes = o := by
  obtain ⟨_, hall, hkeys, hafter⟩ := claimFrom_eq_ok hne h
  refine ext_of_nodup (by simpa using hkeys) (by simpa [hkeys] using hn) fun q => ?_
  rw [owner?_release, hafter]
  by_cases hq : q ∈ pes
  · simp [hq, hall q hq]
  · simp [hq]

/-! ### Claims and releases together -/

/-- On a table with one entry for each element, a claim is granted if and only if all elements are
the parent's and none is asked for twice. Then they are the child's, all others stay where they are,
and giving them back restores the table. Any other claim leaves the table as it was; it is refused
for the first element that is not in the table, or that is not the parent's once those before it
were taken. A release moves those elements of its list that `holder` has, and no entry comes or
goes. -/
theorem claim_all_or_none (keys : o.pes.Nodup) (hne : parent ≠ child) (pes : List Pe) :
    ((∃ o', claim parent child pes o = (.ok (), o')) ↔
      pes.Nodup ∧ ∀ q ∈ pes, o.owner? q = some parent) ∧
    (∀ o', claim parent child pes o = (.ok (), o') →
      o'.pes = o.pes ∧ (∀ q, o'.owner? q = if q ∈ pes then some child else o.owner? q) ∧
        o'.release child parent pes = o) ∧
    (∀ refusal o', claim parent child pes o = (.error refusal, o') →
      o' = o ∧ ∃ before pe after, pes = before ++ pe :: after ∧ before.Nodup ∧
        (∀ q ∈ before, o.owner? q = some parent) ∧ (pe ∈ before ∨ o.owner? pe ≠ some parent) ∧
        refusal = .ofOwner pe (if pe ∈ before then some child else o.owner? pe)) ∧
    ∀ holder heir list, (o.release holder heir list).pes = o.pes ∧
      ∀ q, (o.release holder heir list).owner? q =
        if q ∈ list ∧ o.owner? q = some holder then some heir else o.owner? q := by
  refine ⟨claim_eq_ok_iff hne, fun o' h => ?_, fun refusal o' h => ?_, fun holder heir list => ?_⟩
  · obtain ⟨_, _, hkeys, hafter⟩ := claimFrom_eq_ok hne h
    exact ⟨hkeys, hafter, release_of_claim_eq_ok hne keys h⟩
  · obtain ⟨hrefusal, _, _⟩ := claim_eq_error hne h
    exact ⟨eq_of_claim_eq_error hne keys h, hrefusal⟩
  · exact ⟨pes_release holder heir list o, owner?_release holder heir list o⟩

/-- Two elements in one hand, and one in another. -/
def twoHands : Owners := [(⟨0, 0⟩, 1), (⟨0, 1⟩, 1), (⟨1, 0⟩, 7)]

theorem claim_all_or_none_twoHands : twoHands.pes.Nodup ∧ (1 : Nat) ≠ 2 ∧
    (∃ o', claim 1 2 [⟨0, 1⟩, ⟨0, 0⟩] twoHands = (.ok (), o') ∧
      o'.release 2 1 [⟨0, 1⟩, ⟨0, 0⟩] = twoHands) ∧
    claim 1 2 [⟨0, 1⟩, ⟨0, 0⟩, ⟨0, 1⟩] twoHands = (.error (.held ⟨0, 1⟩ 2), twoHands) := by
  have hkeys : twoHands.pes.Nodup := by decide
  have hne : (1 : Nat) ≠ 2 := by decide
  refine ⟨hkeys, hne, ?_, ?_⟩
  · obtain ⟨hgranted, hback, _⟩ := claim_all_or_none hkeys hne [⟨0, 1⟩, ⟨0, 0⟩]
    obtain ⟨o', ho'⟩ := hgranted.2 (by decide)
    exact ⟨o', ho', (hback o' ho').2.2⟩
  · obtain ⟨_, _, hrefused, _⟩ := claim_all_or_none hkeys hne [⟨0, 1⟩, ⟨0, 0⟩, ⟨0, 1⟩]
    exact Prod.ext rfl (hrefused _ _ rfl).1

end Owners

end VirtualTopology
