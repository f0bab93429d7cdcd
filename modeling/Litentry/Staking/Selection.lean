import Litentry.Staking.PoolCalls

/-!
# `compute_top_candidates`: the collators of a round

At each new round the pallet sorts the candidate pool by amount, takes the
`TotalSelected` largest, drops those below `MinCollatorStk`, and returns their owners in
account order. The take comes before the filter, so the count comes out right only
because the list is sorted: every bond under the minimum ranks below every bond over it
(`SortedVec.Desc.filter_take`).

Rust's `sort_by` is stable, and so is `List.insertionSort`. The pool is kept in account
order, so on equal amounts the smaller account comes first in the ascending sort and last
after `rev()`: a tie at the `TotalSelected`-th place goes to the larger account.
-/

set_option autoImplicit false

namespace Litentry
namespace Staking

variable {A : Type}

/-- `compute_top_candidates`, over the pool, `TotalSelected` and `MinCollatorStk`. -/
def computeTopCandidates [LinearOrder A] (totalSelected minCollatorStk : Nat)
    (candidatePool : List (Bond A)) : List A :=
  let candidates := candidatePool.insertionSort fun a b => a.amount ≤ b.amount
  let collators := ((candidates.reverse.take totalSelected).filter
    fun x => minCollatorStk ≤ x.amount).map Bond.owner
  collators.insertionSort (· ≤ ·)

example : computeTopCandidates 1 0 [⟨1, 20⟩, ⟨2, 20⟩, ⟨3, 10⟩] = [2] := by decide

/-- The pool heaviest first, as `rev()` leaves it. -/
def rankedPool (pool : List (Bond A)) : List (Bond A) :=
  (pool.insertionSort fun a b => a.amount ≤ b.amount).reverse

/-- The bonds `compute_top_candidates` keeps, before their owners are sorted. -/
def topBonds (totalSelected minCollatorStk : Nat) (pool : List (Bond A)) : List (Bond A) :=
  ((rankedPool pool).take totalSelected).filter fun x => minCollatorStk ≤ x.amount

section

variable {n t : Nat} {pool : List (Bond A)}

theorem desc_rankedPool (pool : List (Bond A)) : SortedVec.Desc Bond.amount (rankedPool pool) :=
  SortedVec.desc_reverse_insertionSort pool

theorem perm_rankedPool (pool : List (Bond A)) : (rankedPool pool).Perm pool :=
  (List.reverse_perm _).trans (List.perm_insertionSort _ _)

theorem topBonds_sublist : (topBonds n t pool).Sublist (rankedPool pool) :=
  List.filter_sublist.trans (List.take_sublist _ _)

theorem mem_topBonds {b : Bond A} :
    b ∈ topBonds n t pool ↔ b ∈ (rankedPool pool).take n ∧ t ≤ b.amount := by
  simp [topBonds]

theorem mem_pool_of_mem_topBonds {b : Bond A} (hb : b ∈ topBonds n t pool) :
    b ∈ pool ∧ t ≤ b.amount :=
  ⟨(perm_rankedPool pool).mem_iff.1 (topBonds_sublist.subset hb), (mem_topBonds.1 hb).2⟩

variable [LinearOrder A]

theorem computeTopCandidates_eq (n t : Nat) (pool : List (Bond A)) :
    computeTopCandidates n t pool = ((topBonds n t pool).map Bond.owner).insertionSort (· ≤ ·) :=
  rfl

theorem mem_computeTopCandidates {c : A} :
    c ∈ computeTopCandidates n t pool ↔ ∃ b ∈ topBonds n t pool, b.owner = c := by
  rw [computeTopCandidates_eq, (List.perm_insertionSort _ _).mem_iff, List.mem_map]

/-- With distinct owners in the pool, no account is chosen twice. -/
theorem nodup_computeTopCandidates (hpool : (pool.map Bond.owner).Nodup) :
    (computeTopCandidates n t pool).Nodup := by
  rw [computeTopCandidates_eq, (List.perm_insertionSort _ _).nodup_iff]
  have hranked : ((rankedPool pool).map Bond.owner).Nodup :=
    ((perm_rankedPool pool).map Bond.owner).nodup_iff.2 hpool
  exact (topBonds_sublist.map Bond.owner).nodup hranked

theorem sorted_computeTopCandidates (hpool : (pool.map Bond.owner).Nodup) :
    (computeTopCandidates n t pool).Pairwise (· < ·) := by
  have hle : (computeTopCandidates n t pool).SortedLE := List.sortedLE_insertionSort
  exact (hle.sortedLT_of_nodup (nodup_computeTopCandidates hpool)).pairwise

/-- The take before the filter loses nothing: the count is the smaller of the two. -/
theorem length_computeTopCandidates :
    (computeTopCandidates n t pool).length =
      min n (pool.filter fun b => t ≤ b.amount).length := by
  have hfilter : ((rankedPool pool).filter fun b => t ≤ b.amount).length =
      (pool.filter fun b => t ≤ b.amount).length :=
    ((perm_rankedPool pool).filter _).length_eq
  rw [computeTopCandidates_eq, List.length_insertionSort, List.length_map, topBonds,
    (desc_rankedPool pool).length_filter_take, hfilter]

/-- A bond of the pool that is not chosen weighs no more than one that is. -/
theorem amount_le_of_not_mem_computeTopCandidates (hpool : (pool.map Bond.owner).Nodup)
    {b b' : Bond A} (hb : b ∈ pool) (hb' : b' ∈ pool)
    (hout : b.owner ∉ computeTopCandidates n t pool)
    (hin : b'.owner ∈ computeTopCandidates n t pool) : b.amount ≤ b'.amount := by
  -- the chosen owner is chosen through its own bond, the only one it has
  obtain ⟨b'', hb'', howner⟩ := mem_computeTopCandidates.1 hin
  have hsame : b'' = b' :=
    List.inj_on_of_nodup_map hpool (mem_pool_of_mem_topBonds hb'').1 hb' howner
  subst hsame
  obtain ⟨htake', hmin'⟩ := mem_topBonds.1 hb''
  have hranked : b ∈ (rankedPool pool).take n ++ (rankedPool pool).drop n := by
    rw [List.take_append_drop]
    exact (perm_rankedPool pool).mem_iff.2 hb
  rcases List.mem_append.1 hranked with htake | hdrop
  · -- taken but not chosen: the minimum turned it away
    have hlow : ¬ t ≤ b.amount := fun hmin =>
      hout (mem_computeTopCandidates.2 ⟨b, mem_topBonds.2 ⟨htake, hmin⟩, rfl⟩)
    omega
  · exact (desc_rankedPool pool).le_of_mem_take_of_mem_drop htake' hdrop

end

theorem computeTopCandidates_spec [LinearOrder A] (pool : List (Bond A))
    (hpool : (pool.map Bond.owner).Nodup) (totalSelected minCollatorStk : Nat) :
    let selected := computeTopCandidates totalSelected minCollatorStk pool
    selected.Pairwise (· < ·) ∧
      (∀ c ∈ selected, ∃ b ∈ pool, b.owner = c ∧ minCollatorStk ≤ b.amount) ∧
      (∀ b ∈ pool, ∀ b' ∈ pool, b.owner ∉ selected → b'.owner ∈ selected →
        b.amount ≤ b'.amount) ∧
      selected.length =
        min totalSelected (pool.filter fun b => minCollatorStk ≤ b.amount).length := by
  intro selected
  refine ⟨sorted_computeTopCandidates hpool, ?_, ?_, length_computeTopCandidates⟩
  · intro c hc
    obtain ⟨b, hb, rfl⟩ := mem_computeTopCandidates.1 hc
    obtain ⟨hpb, hmin⟩ := mem_pool_of_mem_topBonds hb
    exact ⟨b, hpb, rfl, hmin⟩
  · intro b hb b' hb' hout hin
    exact amount_le_of_not_mem_computeTopCandidates hpool hb hb' hout hin

theorem computeTopCandidates_spec_three :
    ([(⟨1, 30⟩ : Bond Nat), ⟨2, 10⟩, ⟨3, 20⟩].map Bond.owner).Nodup ∧
      (computeTopCandidates 2 15 [(⟨1, 30⟩ : Bond Nat), ⟨2, 10⟩, ⟨3, 20⟩]).length =
        min 2 ([(⟨1, 30⟩ : Bond Nat), ⟨2, 10⟩, ⟨3, 20⟩].filter fun b => 15 ≤ b.amount).length :=
  ⟨by decide, (computeTopCandidates_spec _ (by decide) 2 15).2.2.2⟩

end Staking
end Litentry
