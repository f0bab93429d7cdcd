import Litentry.Staking.Consistency

/-!
# The shape of a candidate's delegation lists

The candidate methods of `types.rs` edit two lists of bonds per candidate, its
`TopDelegations` and `BottomDelegations`, and cache what they read of them in the
candidate's metadata. `CandidateShape` is what every method keeps of a candidate:
both lists heaviest first, every top bond at least every bottom bond, a bottom list
only under a full top one, no delegator twice, the top list's `total` its sum, and the
metadata's capacities, lowest top and highest bottom amounts and counted total read off
the lists. It is `CandidateLists` of `Staking.Consistency` without the bottom list's
`total` (which `decrease_bottom_delegation` leaves stale) and the length bounds, and
with the capacities, which `rm_delegation_if_exists` and its siblings branch on.

This module has the list operations the methods are made of: where a bond is
(`amountIn`), insertion by `insert_sorted_greatest_to_least`, the re-sort, and the
removals and updates by owner, with how each moves the bonds of a list. The insertion is
described exactly (`insertSortedGreatestToLeast_delegations`): the new bond goes after every
bond at least as heavy and before the lighter ones, on each of the code's three paths, and
whichever bond of its amount the bisection lands on (`insertAfterEqual_of_match`).
-/

set_option autoImplicit false

namespace Litentry
namespace Staking

variable {A : Type}

open SortedVec

/-! ## 1. Where a delegator's bond is -/

/-- The owners of a list of bonds. -/
def owners (l : List (Bond A)) : List A := l.map (·.owner)

@[simp] theorem owners_nil : owners ([] : List (Bond A)) = [] := rfl

@[simp] theorem owners_cons (b : Bond A) (l : List (Bond A)) :
    owners (b :: l) = b.owner :: owners l := rfl

@[simp] theorem owners_append (l₁ l₂ : List (Bond A)) :
    owners (l₁ ++ l₂) = owners l₁ ++ owners l₂ := List.map_append

theorem mem_owners {l : List (Bond A)} {d : A} : d ∈ owners l ↔ ∃ a, ⟨d, a⟩ ∈ l := by
  simp only [owners, List.mem_map]
  constructor
  · rintro ⟨⟨o, a⟩, hb, rfl⟩
    exact ⟨a, hb⟩
  · rintro ⟨a, hb⟩
    exact ⟨_, hb, rfl⟩

section Amount

variable [LinearOrder A]

/-- The amount of the first bond of `d` in `l`. -/
def amountIn (l : List (Bond A)) (d : A) : Option Nat :=
  (l.find? (·.owner = d)).map (·.amount)

theorem amountIn_eq_none {l : List (Bond A)} {d : A} : amountIn l d = none ↔ d ∉ owners l := by
  simp [amountIn, owners, List.find?_eq_none]

/-- With no owner twice, the amount of `d` is the one bond of `d`. -/
theorem amountIn_eq_some {l : List (Bond A)} (h : (owners l).Nodup) {d : A} {a : Nat} :
    amountIn l d = some a ↔ ⟨d, a⟩ ∈ l := by
  induction l with
  | nil => simp [amountIn]
  | cons b l ih =>
    rw [owners_cons, List.nodup_cons] at h
    by_cases hb : b.owner = d
    · subst hb
      have hnot : ∀ a', (⟨b.owner, a'⟩ : Bond A) ∉ l := fun a' hm =>
        h.1 (mem_owners.2 ⟨a', hm⟩)
      obtain ⟨o, a'⟩ := b
      simp [amountIn, hnot, eq_comm]
    · have hne : ∀ a', (⟨d, a'⟩ : Bond A) ≠ b := fun a' he => hb (by rw [← he])
      rw [List.mem_cons, ← ih h.2]
      simp [amountIn, hb, hne]

end Amount

/-! ## 2. Heaviest first -/

/-- A list of bonds heaviest first. -/
abbrev DescBonds (l : List (Bond A)) : Prop := Desc Bond.amount l

theorem DescBonds.sublist {l l' : List (Bond A)} (h : DescBonds l') (hs : l.Sublist l') :
    DescBonds l :=
  List.Pairwise.sublist hs h

/-- On a list heaviest first, the last bond is the lightest. -/
theorem DescBonds.getLast_le {l : List (Bond A)} (h : DescBonds l) {z : Bond A}
    (hz : l.getLast? = some z) : ∀ b ∈ l, z.amount ≤ b.amount := by
  obtain ⟨ys, rfl⟩ := List.getLast?_eq_some_iff.1 hz
  intro b hb
  rcases List.mem_append.1 hb with hb | hb
  · exact (List.pairwise_append.1 h).2.2 b hb z (List.mem_singleton_self _)
  · rw [List.mem_singleton.1 hb]

/-- On a list heaviest first, the head is the heaviest. -/
theorem DescBonds.le_head {b₀ : Bond A} {l : List (Bond A)} (h : DescBonds (b₀ :: l)) :
    ∀ b ∈ b₀ :: l, b.amount ≤ b₀.amount := by
  intro b hb
  rcases List.mem_cons.1 hb with rfl | hb
  · exact le_rfl
  · exact (List.pairwise_cons.1 h).1 b hb

theorem lowestDelegationAmount_le {d : Delegations A} (h : DescBonds d.delegations) :
    ∀ b ∈ d.delegations, d.lowestDelegationAmount ≤ b.amount := by
  intro b hb
  cases hz : d.delegations.getLast? with
  | none => simp [List.getLast?_eq_none_iff.1 hz] at hb
  | some z =>
    simp only [Delegations.lowestDelegationAmount, hz, Option.map_some, Option.getD_some]
    exact h.getLast_le hz b hb

theorem le_highestDelegationAmount {d : Delegations A} (h : DescBonds d.delegations) :
    ∀ b ∈ d.delegations, b.amount ≤ d.highestDelegationAmount := by
  intro b hb
  cases hd : d.delegations with
  | nil => simp [hd] at hb
  | cons b₀ l =>
    rw [hd] at h hb
    simp only [Delegations.highestDelegationAmount, hd, List.head?_cons, Option.map_some,
      Option.getD_some]
    exact h.le_head b hb

/-! ## 3. `insert_sorted_greatest_to_least` and the re-sort -/

@[simp] theorem insertSortedGreatestToLeast_total (d : Delegations A) (x : Bond A) :
    (d.insertSortedGreatestToLeast x).total = d.total + x.amount := by
  unfold Delegations.insertSortedGreatestToLeast
  split
  · rfl
  · split <;> rfl

theorem sortGreatestToLeast_spec (d : Delegations A) :
    DescBonds d.sortGreatestToLeast.delegations ∧
      d.sortGreatestToLeast.delegations.Perm d.delegations := by
  have htot : Std.Total (fun a b : Bond A => b.amount ≤ a.amount) := ⟨fun a b => le_total _ _⟩
  have htrans : IsTrans (Bond A) (fun a b => b.amount ≤ a.amount) :=
    ⟨fun _ _ _ hab hbc => le_trans hbc hab⟩
  exact ⟨List.pairwise_insertionSort _ _, List.perm_insertionSort _ _⟩

@[simp] theorem sortGreatestToLeast_total (d : Delegations A) :
    d.sortGreatestToLeast.total = d.total := rfl

/-- The forward scan of the `Ok` arm, over bonds none heavier than `x`: it steps over those
    of `x`'s amount and puts `x` before the first lighter one. -/
theorem insertAfterEqual_eq (x : Bond A) :
    ∀ {l : List (Bond A)}, (∀ b ∈ l, b.amount ≤ x.amount) →
      Delegations.insertAfterEqual x l =
        l.takeWhile (fun b => x.amount ≤ b.amount) ++ x :: l.dropWhile (fun b => x.amount ≤ b.amount)
  | [], _ => rfl
  | y :: ys, hle => by
    rw [Delegations.insertAfterEqual]
    split_ifs with hy
    · -- `y` weighs what `x` does: the scan and the split both pass it
      have hxy : x.amount ≤ y.amount := hy.ge
      rw [List.takeWhile_cons_of_pos (by simpa using hxy),
        List.dropWhile_cons_of_pos (by simpa using hxy),
        insertAfterEqual_eq x fun b hb => hle b (List.mem_cons_of_mem _ hb), List.cons_append]
    · -- `y` is lighter: `x` goes before it
      have hxy : ¬ x.amount ≤ y.amount := fun h => hy (le_antisymm (hle y (by simp)) h)
      rw [List.takeWhile_cons_of_neg (by simpa using hxy),
        List.dropWhile_cons_of_neg (by simpa using hxy), List.nil_append]

/-- Whichever bond of `x`'s amount the search lands on, scanning forward from it puts `x`
    right after the last bond at least as heavy. -/
theorem insertAfterEqual_of_match {l pre rest : List (Bond A)} {x y : Bond A}
    (h : DescBonds l) (hl : l = pre ++ y :: rest) (hy : y.amount = x.amount) :
    pre ++ y :: Delegations.insertAfterEqual x rest =
      l.takeWhile (fun b => x.amount ≤ b.amount) ++ x :: l.dropWhile (fun b => x.amount ≤ b.amount) := by
  rw [hl] at h ⊢
  obtain ⟨-, hrest, hcross⟩ := List.pairwise_append.1 h
  -- up to `y` every bond weighs at least `x`, after it none more
  have hheavy : ∀ b ∈ pre ++ [y], x.amount ≤ b.amount := by
    intro b hb
    rcases List.mem_append.1 hb with hb | hb
    · exact hy ▸ hcross b hb y (by simp)
    · rw [List.mem_singleton.1 hb, hy]
  have hlight : ∀ b ∈ rest, b.amount ≤ x.amount := fun b hb =>
    hy ▸ (List.pairwise_cons.1 hrest).1 b hb
  have hsplit : pre ++ y :: rest = (pre ++ [y]) ++ rest := by simp
  rw [hsplit, List.takeWhile_append_of_pos (by simpa using hheavy),
    List.dropWhile_append_of_pos (by simpa using hheavy), insertAfterEqual_eq x hlight]
  simp

/-- What `insert_sorted_greatest_to_least` makes of a list heaviest first: the bonds at least
    as heavy as `x`, then `x`, then the lighter ones. -/
theorem insertSortedGreatestToLeast_delegations {d : Delegations A} (h : DescBonds d.delegations)
    (x : Bond A) :
    (d.insertSortedGreatestToLeast x).delegations =
      d.delegations.takeWhile (fun b => x.amount ≤ b.amount) ++
        x :: d.delegations.dropWhile (fun b => x.amount ≤ b.amount) := by
  unfold Delegations.insertSortedGreatestToLeast
  split
  · -- a tie with the last bond: every bond weighs at least `x`, and `x` is pushed
    rename_i hlast
    obtain ⟨z, hz, hzx⟩ := Option.map_eq_some_iff.1 hlast
    have hheavy : ∀ b ∈ d.delegations, x.amount ≤ b.amount := fun b hb =>
      hzx ▸ h.getLast_le hz b hb
    rw [List.takeWhile_eq_self_iff.2 (by simpa using hheavy),
      List.dropWhile_eq_nil_iff.2 (by simpa using hheavy)]
  · split
    · -- a match: the scan from the bond found
      rename_i i hi
      obtain ⟨pre, y, rest, hl, rfl, hy, -⟩ := binarySearchBy_ok hi
      rw [← insertAfterEqual_of_match h hl (compare_eq_iff_eq.1 hy).symm, hl]
      simp [List.take_append]
    · -- a miss: the heavier bonds before the insertion point, the lighter after
      rename_i i hi
      obtain ⟨pre, rest, hl, rfl, hpre, hrest⟩ := binarySearchBy_error hi
      have hheavy : ∀ p ∈ pre, x.amount ≤ p.amount := fun p hp =>
        (compare_lt_iff_lt.1 (hpre p hp)).le
      have hfirst : rest.takeWhile (fun b => x.amount ≤ b.amount) = [] ∧
          rest.dropWhile (fun b => x.amount ≤ b.amount) = rest := by
        cases rest with
        | nil => exact ⟨rfl, rfl⟩
        | cons z zs =>
          have hz : ¬ x.amount ≤ z.amount := not_le.2 (compare_gt_iff_gt.1 (hrest z rfl))
          exact ⟨List.takeWhile_cons_of_neg (by simpa using hz),
            List.dropWhile_cons_of_neg (by simpa using hz)⟩
      simp only [hl, insertIdx_length_append]
      rw [List.takeWhile_append_of_pos (by simpa using hheavy),
        List.dropWhile_append_of_pos (by simpa using hheavy), hfirst.1, hfirst.2, List.append_nil]

-- The bisection lands on the first bond of amount `3`; the scan carries the new one past both.
example : (Delegations.insertSortedGreatestToLeast ⟨[⟨1, 5⟩, ⟨2, 3⟩, ⟨3, 3⟩, ⟨4, 1⟩], 12⟩
    (⟨5, 3⟩ : Bond ℕ)).delegations = [⟨1, 5⟩, ⟨2, 3⟩, ⟨3, 3⟩, ⟨5, 3⟩, ⟨4, 1⟩] := by decide

/-- `insert_sorted_greatest_to_least` adds the bond and keeps the list heaviest first: `x`
    sits below the bonds at least as heavy and above the lighter ones. -/
theorem insertSortedGreatestToLeast_spec {d : Delegations A} (h : DescBonds d.delegations)
    (x : Bond A) :
    DescBonds (d.insertSortedGreatestToLeast x).delegations ∧
      (d.insertSortedGreatestToLeast x).delegations.Perm (x :: d.delegations) := by
  rw [insertSortedGreatestToLeast_delegations h x]
  have hsplit := List.takeWhile_append_dropWhile (p := fun b : Bond A => x.amount ≤ b.amount)
    (l := d.delegations)
  refine ⟨?_, List.perm_middle.trans (List.Perm.of_eq (by rw [hsplit]))⟩
  have hl : DescBonds (d.delegations.takeWhile (fun b => x.amount ≤ b.amount) ++
      d.delegations.dropWhile (fun b => x.amount ≤ b.amount)) := by rw [hsplit]; exact h
  obtain ⟨hheavy, hlight, hcross⟩ := List.pairwise_append.1 hl
  refine List.pairwise_append.2 ⟨hheavy, List.pairwise_cons.2
    ⟨fun b hb => (Desc.lt_of_mem_dropWhile h b hb).le, hlight⟩, ?_⟩
  intro a ha b hb
  rcases List.mem_cons.1 hb with rfl | hb
  · simpa using List.mem_takeWhile_imp ha
  · exact hcross a ha b hb

/-- **`insert_sorted_greatest_to_least` is a stable sorted insertion.** On a list heaviest
    first, the result is the list cut into the bonds at least as heavy as `x` and the lighter
    ones, with `x` between them: after every bond of its own amount, first come first served.
    The list stays heaviest first, and the total grows by `x`'s amount. -/
theorem insertSortedGreatestToLeast_stable {d : Delegations A} (h : DescBonds d.delegations)
    (x : Bond A) :
    ∃ heavier lighter, d.delegations = heavier ++ lighter ∧
      (∀ b ∈ heavier, x.amount ≤ b.amount) ∧ (∀ b ∈ lighter, b.amount < x.amount) ∧
      (d.insertSortedGreatestToLeast x).delegations = heavier ++ x :: lighter ∧
      (d.insertSortedGreatestToLeast x).total = d.total + x.amount ∧
      DescBonds (d.insertSortedGreatestToLeast x).delegations := by
  refine ⟨_, _, List.takeWhile_append_dropWhile.symm, fun b hb => ?_,
    Desc.lt_of_mem_dropWhile h, insertSortedGreatestToLeast_delegations h x,
    insertSortedGreatestToLeast_total d x, (insertSortedGreatestToLeast_spec h x).1⟩
  simpa using List.mem_takeWhile_imp hb

/-- A bond of amount `3` joining `5, 3, 3, 1` goes after both `3`s. -/
theorem insertSortedGreatestToLeast_stable_after_ties :
    ∃ heavier lighter,
      [(⟨1, 5⟩ : Bond ℕ), ⟨2, 3⟩, ⟨3, 3⟩, ⟨4, 1⟩] = heavier ++ lighter ∧
      (∀ b ∈ heavier, 3 ≤ b.amount) ∧ (∀ b ∈ lighter, b.amount < 3) ∧
      (Delegations.insertSortedGreatestToLeast ⟨[⟨1, 5⟩, ⟨2, 3⟩, ⟨3, 3⟩, ⟨4, 1⟩], 12⟩
        ⟨5, 3⟩).delegations = heavier ++ ⟨5, 3⟩ :: lighter ∧
      (Delegations.insertSortedGreatestToLeast ⟨[⟨1, 5⟩, ⟨2, 3⟩, ⟨3, 3⟩, ⟨4, 1⟩], 12⟩
        ⟨5, 3⟩).total = 12 + 3 ∧
      DescBonds (Delegations.insertSortedGreatestToLeast ⟨[⟨1, 5⟩, ⟨2, 3⟩, ⟨3, 3⟩, ⟨4, 1⟩], 12⟩
        ⟨5, 3⟩).delegations :=
  insertSortedGreatestToLeast_stable (d := ⟨[⟨1, 5⟩, ⟨2, 3⟩, ⟨3, 3⟩, ⟨4, 1⟩], 12⟩)
    (by unfold DescBonds Desc; decide) ⟨5, 3⟩

/-! ## 4. A delegator's bond taken out, or changed in place -/

section ByOwner

variable [LinearOrder A]

/-- With no owner twice, a list is its bond of `d` and the bonds of the others. -/
theorem perm_cons_filter {l : List (Bond A)} (h : (owners l).Nodup) {d : A} {a : Nat}
    (hm : ⟨d, a⟩ ∈ l) : l.Perm (⟨d, a⟩ :: l.filter (·.owner ≠ d)) := by
  induction l with
  | nil => simp at hm
  | cons b l ih =>
    rw [owners_cons, List.nodup_cons] at h
    by_cases hb : b.owner = d
    · -- `b` is the bond of `d`, and no other bond is
      have hbd : b = ⟨d, a⟩ := by
        rcases List.mem_cons.1 hm with hm | hm
        · exact hm.symm
        · exact absurd (mem_owners.2 ⟨a, hm⟩) (hb ▸ h.1)
      have hl : l.filter (·.owner ≠ d) = l := List.filter_eq_self.2 fun x hx => by
        have : x.owner ≠ d := fun hx' => h.1 (hb ▸ hx' ▸ List.mem_map_of_mem hx)
        simpa using this
      subst hbd
      rw [List.filter_cons_of_neg (by simp), hl]
    · have hm' : ⟨d, a⟩ ∈ l := by
        rcases List.mem_cons.1 hm with hm | hm
        · exact absurd (by rw [← hm]) hb
        · exact hm
      have hperm := (ih h.2 hm').cons b
      simpa [hb] using hperm.trans (List.Perm.swap _ _ _)

/-- The bonds of `d` in a list with no owner twice: its one bond. -/
theorem filter_owner_eq {l : List (Bond A)} (h : (owners l).Nodup) {d : A} {a : Nat}
    (hm : ⟨d, a⟩ ∈ l) : l.filter (·.owner = d) = [⟨d, a⟩] := by
  have hperm := (perm_cons_filter h hm).filter (·.owner = d)
  rw [List.filter_cons_of_pos (by simp), List.filter_filter] at hperm
  have hnil : (l.filter fun x => decide (x.owner = d) && decide (x.owner ≠ d)) = [] :=
    List.filter_eq_nil_iff.2 fun x _ => by simp
  rw [hnil] at hperm
  exact List.perm_singleton.1 hperm

theorem sum_amounts_filter {l : List (Bond A)} (h : (owners l).Nodup) {d : A} {a : Nat}
    (hm : ⟨d, a⟩ ∈ l) : (amounts l).sum = a + (amounts (l.filter (·.owner ≠ d))).sum := by
  rw [amounts, ((perm_cons_filter h hm).map _).sum_eq]
  simp [amounts]

theorem filter_owner_ne_of_not_mem {l : List (Bond A)} {d : A} (h : d ∉ owners l) :
    l.filter (·.owner ≠ d) = l :=
  List.filter_eq_self.2 fun x hx => by
    have : x.owner ≠ d := fun hx' => h (hx' ▸ List.mem_map_of_mem hx)
    simpa using this

omit [LinearOrder A] in
/-- With no owner twice across two lists, an owner of the first is none of the second. -/
theorem not_mem_owners_right {l₁ l₂ : List (Bond A)} (h : (owners (l₁ ++ l₂)).Nodup) {d : A}
    (hd : d ∈ owners l₁) : d ∉ owners l₂ := by
  rw [owners_append, List.nodup_append] at h
  exact fun hd' => h.2.2 d hd d hd' rfl

omit [LinearOrder A] in
theorem not_mem_owners_left {l₁ l₂ : List (Bond A)} (h : (owners (l₁ ++ l₂)).Nodup) {d : A}
    (hd : d ∈ owners l₂) : d ∉ owners l₁ := by
  rw [owners_append, List.nodup_append] at h
  exact fun hd' => h.2.2 d hd' d hd rfl

/-- `takeOut` of a delegator with a bond: the others, and the bond's amount. -/
theorem takeOut_eq {l : List (Bond A)} (h : (owners l).Nodup) {d : A} {a : Nat}
    (hm : ⟨d, a⟩ ∈ l) :
    CandidateMetadata.takeOut l d = (l.filter (·.owner ≠ d), some a) := by
  simp [CandidateMetadata.takeOut, filter_owner_eq h hm]

/-- What `takeOut` answers is a bond of the list. -/
theorem mem_of_takeOut {l : List (Bond A)} {d : A} {a : Nat}
    (h : (CandidateMetadata.takeOut l d).2 = some a) : ⟨d, a⟩ ∈ l := by
  simp only [CandidateMetadata.takeOut, Option.map_eq_some_iff] at h
  obtain ⟨b, hb, rfl⟩ := h
  have hb' := List.mem_of_getLast? hb
  rw [List.mem_filter] at hb'
  obtain ⟨o, a⟩ := b
  simp only [decide_eq_true_eq] at hb'
  rw [← hb'.2]
  exact hb'.1

/-- `mapOwner` of a delegator with a bond: the bond changed, the others as they were. -/
theorem mapOwner_perm {l : List (Bond A)} (h : (owners l).Nodup) {d : A} {a : Nat}
    (hm : ⟨d, a⟩ ∈ l) (f : Nat → Nat) :
    (CandidateMetadata.mapOwner l d f).1.Perm (⟨d, f a⟩ :: l.filter (·.owner ≠ d)) ∧
      (CandidateMetadata.mapOwner l d f).2 = true := by
  refine ⟨?_, List.any_eq_true.2 ⟨_, hm, by simp⟩⟩
  have hp := (perm_cons_filter h hm).map
    (fun x : Bond A => if x.owner = d then (⟨x.owner, f x.amount⟩ : Bond A) else x)
  have hid : (l.filter (·.owner ≠ d)).map
      (fun x : Bond A => if x.owner = d then (⟨x.owner, f x.amount⟩ : Bond A) else x) =
      l.filter (·.owner ≠ d) := by
    conv_rhs => rw [← List.map_id (l.filter _)]
    exact List.map_congr_left fun x hx => by
      rw [List.mem_filter] at hx
      simp only [decide_eq_true_eq] at hx
      simp [hx.2]
  rw [List.map_cons, hid] at hp
  simpa [CandidateMetadata.mapOwner] using hp

end ByOwner

/-- A list with a last bond is the others and that bond. -/
theorem perm_cons_dropLast {l : List (Bond A)} {z : Bond A} (hz : l.getLast? = some z) :
    l.Perm (z :: l.dropLast) := by
  conv_lhs => rw [← List.dropLast_append_getLast? z hz]
  exact List.perm_append_singleton _ _

/-! ## 5. The shape of a candidate -/

theorem bottomCapacity_eq_empty {cfg : Config} {d : Delegations A}
    (h : d.bottomCapacity cfg = .empty) : d.delegations = [] := by
  unfold Delegations.bottomCapacity at h
  split_ifs at h with h₁ h₂
  · exact List.isEmpty_iff.1 h₂

/-- What the candidate methods keep of a candidate's two lists. -/
structure ListsShape (cfg : Config) (top bottom : List (Bond A)) : Prop where
  topDesc : DescBonds top
  bottomDesc : DescBonds bottom
  topAboveBottom : ∀ x ∈ top, ∀ y ∈ bottom, y.amount ≤ x.amount
  topFull : bottom ≠ [] → cfg.maxTopDelegationsPerCandidate ≤ top.length
  ownersNodup : (owners (top ++ bottom)).Nodup

/-- The figures the metadata caches of the top list. -/
structure TopCaches (cfg : Config) (m : CandidateMetadata) (top : Delegations A) : Prop where
  topCapacity : m.topCapacity = top.topCapacity cfg
  lowestTop : m.lowestTopDelegationAmount = top.lowestDelegationAmount
  totalCounted : m.totalCounted = m.bond + top.total

/-- The figures the metadata caches of the bottom list. -/
structure BottomCaches (cfg : Config) (m : CandidateMetadata) (bottom : Delegations A) : Prop where
  bottomCapacity : m.bottomCapacity = bottom.bottomCapacity cfg
  highestBottom : m.highestBottomDelegationAmount = bottom.highestDelegationAmount

/-- What every candidate method keeps of a candidate: the shape of its lists, the top
    list's sum as its total, and the metadata read off the lists. -/
structure CandidateShape (cfg : Config) (m : CandidateMetadata) (top bottom : Delegations A) :
    Prop where
  lists : ListsShape cfg top.delegations bottom.delegations
  topTotal : top.total = (amounts top.delegations).sum
  topCaches : TopCaches cfg m top
  bottomCaches : BottomCaches cfg m bottom

/-- Under a top list that is not empty, the highest bottom bond is at most the lowest top
    one. -/
theorem ListsShape.highest_le_lowest {cfg : Config} {top bottom : Delegations A}
    (h : ListsShape cfg top.delegations bottom.delegations) (hne : top.delegations ≠ []) :
    bottom.highestDelegationAmount ≤ top.lowestDelegationAmount := by
  obtain ⟨z, hz⟩ := Option.ne_none_iff_exists'.1 (mt List.getLast?_eq_none_iff.1 hne)
  cases hb : bottom.delegations with
  | nil => simp [Delegations.highestDelegationAmount, hb]
  | cons y ys =>
    simp only [Delegations.highestDelegationAmount, Delegations.lowestDelegationAmount, hb, hz,
      List.head?_cons, Option.map_some, Option.getD_some]
    exact h.topAboveBottom z (List.mem_of_getLast? hz) y (hb ▸ List.mem_cons_self)

section Resets

variable [LinearOrder A] {C : Type} (cfg : Config)

theorem resetTopData_fst (s : State A C) (m : CandidateMetadata) (c : A) (top : Delegations A) :
    (CandidateMetadata.resetTopData cfg s m c top).1 =
      { m with
        lowestTopDelegationAmount := top.lowestDelegationAmount
        topCapacity := top.topCapacity cfg
        totalCounted := m.bond + top.total } := by
  unfold CandidateMetadata.resetTopData
  dsimp only
  split <;> rfl

section Frame

variable (s : State A C) (m : CandidateMetadata) (c : A) (top : Delegations A)

@[simp] theorem resetTopData_topDelegations :
    (CandidateMetadata.resetTopData cfg s m c top).2.topDelegations = s.topDelegations := by
  unfold CandidateMetadata.resetTopData
  dsimp only
  split <;> rfl

@[simp] theorem resetTopData_bottomDelegations :
    (CandidateMetadata.resetTopData cfg s m c top).2.bottomDelegations = s.bottomDelegations := by
  unfold CandidateMetadata.resetTopData
  dsimp only
  split <;> rfl

@[simp] theorem resetTopData_candidateInfo :
    (CandidateMetadata.resetTopData cfg s m c top).2.candidateInfo = s.candidateInfo := by
  unfold CandidateMetadata.resetTopData
  dsimp only
  split <;> rfl

@[simp] theorem resetTopData_delegatorState :
    (CandidateMetadata.resetTopData cfg s m c top).2.delegatorState = s.delegatorState := by
  unfold CandidateMetadata.resetTopData
  dsimp only
  split <;> rfl

@[simp] theorem resetTopData_delegationScheduledRequests :
    (CandidateMetadata.resetTopData cfg s m c top).2.delegationScheduledRequests =
      s.delegationScheduledRequests := by
  unfold CandidateMetadata.resetTopData
  dsimp only
  split <;> rfl

end Frame

/-- `reset_top_data` reads the top list off, and keeps what was read off the bottom. -/
theorem caches_resetTopData {s : State A C} {m : CandidateMetadata} {c : A}
    {top bottom : Delegations A} (hb : BottomCaches cfg m bottom) :
    TopCaches cfg (CandidateMetadata.resetTopData cfg s m c top).1 top ∧
      BottomCaches cfg (CandidateMetadata.resetTopData cfg s m c top).1 bottom := by
  rw [resetTopData_fst]
  exact ⟨⟨rfl, rfl, rfl⟩, ⟨hb.bottomCapacity, hb.highestBottom⟩⟩

omit [LinearOrder A] in
/-- `reset_bottom_data` reads the bottom list off, and keeps what was read off the top. -/
theorem caches_resetBottomData {m : CandidateMetadata} {top bottom : Delegations A}
    (ht : TopCaches cfg m top) :
    TopCaches cfg (CandidateMetadata.resetBottomData cfg m bottom) top ∧
      BottomCaches cfg (CandidateMetadata.resetBottomData cfg m bottom) bottom :=
  ⟨⟨ht.topCapacity, ht.lowestTop, ht.totalCounted⟩, ⟨rfl, rfl⟩⟩

omit [LinearOrder A] in
theorem TopCaches.withCount {m : CandidateMetadata} {top : Delegations A}
    (h : TopCaches cfg m top) (n : Nat) : TopCaches cfg { m with delegationCount := n } top :=
  ⟨h.topCapacity, h.lowestTop, h.totalCounted⟩

omit [LinearOrder A] in
theorem BottomCaches.withCount {m : CandidateMetadata} {bottom : Delegations A}
    (h : BottomCaches cfg m bottom) (n : Nat) :
    BottomCaches cfg { m with delegationCount := n } bottom :=
  ⟨h.bottomCapacity, h.highestBottom⟩

end Resets

end Staking
end Litentry
