import Litentry.Staking.Calls

/-!
# The consistency the storage is meant to keep

Three properties of every reachable state that the pallet's code is written to
maintain, each with the mutators that adjust cached figures by hand:

* `CandidateDelegationsInv`: a candidate's two delegation lists are sorted, split
  at one amount, bounded, free of repeated delegators, and agree with their
  cached `total`s and with the candidate's metadata;
* `TotalStakeConserved`: `Total` is the sum of all stake, counted once from the
  delegators' side and once from the candidates' cached totals;
* `DelegatorMirror`: each delegator's bonds mirror the candidates' lists, and the
  auto-compounding entries follow the bonds.

Each fails on a short run of the test runtime. The first two fail after one
executed `Decrease` request of a bottom delegation: `decrease_bottom_delegation`
shrinks the bond and leaves `total` of the bottom list as it was. The third fails
after a delegation with auto-compounding kicks the lowest bottom delegation:
`delegate_with_auto_compound` read the auto-compounding vector before the kick
removed the kicked delegator's entry, and writes that old vector back.
-/

set_option autoImplicit false

namespace Litentry
namespace Staking

variable {A C : Type} [LinearOrder A]

/-! ## 1. The delegation lists of a candidate -/

/-- The amounts of a list of bonds, in order. -/
def amounts (l : List (Bond A)) : List Nat := l.map (·.amount)

/-- What holds of one candidate's metadata `m` and delegation lists. -/
structure CandidateLists (cfg : Config) (m : CandidateMetadata) (top bottom : Delegations A) :
    Prop where
  topSorted : top.delegations.Pairwise fun a b => b.amount ≤ a.amount
  bottomSorted : bottom.delegations.Pairwise fun a b => b.amount ≤ a.amount
  topTotal : top.total = (amounts top.delegations).sum
  bottomTotal : bottom.total = (amounts bottom.delegations).sum
  topAboveBottom : ∀ x ∈ top.delegations, ∀ y ∈ bottom.delegations, y.amount ≤ x.amount
  topLength : top.delegations.length ≤ cfg.maxTopDelegationsPerCandidate
  bottomLength : bottom.delegations.length ≤ cfg.maxBottomDelegationsPerCandidate
  topFullOfBottom : bottom.delegations ≠ [] →
    top.delegations.length = cfg.maxTopDelegationsPerCandidate
  ownersNodup : ((top.delegations ++ bottom.delegations).map (·.owner)).Nodup
  totalCounted : m.totalCounted = m.bond + top.total
  lowestTop : m.lowestTopDelegationAmount = top.lowestDelegationAmount
  highestBottom : m.highestBottomDelegationAmount = bottom.highestDelegationAmount

/-- Every candidate has both lists, and they agree with its metadata. -/
def CandidateDelegationsInv (cfg : Config) (s : State A C) : Prop :=
  ∀ c m, s.candidateInfo c = some m → ∃ top bottom, s.topDelegations c = some top ∧
    s.bottomDelegations c = some bottom ∧ CandidateLists cfg m top bottom

omit [LinearOrder A] in
/-- Where the lists are consistent, a candidate's bottom list carries its sum as
    its total. -/
theorem CandidateDelegationsInv.bottom_total {cfg : Config} {s : State A C}
    (h : CandidateDelegationsInv cfg s) {c : A} {m : CandidateMetadata} {bottom : Delegations A}
    (hm : s.candidateInfo c = some m) (hb : s.bottomDelegations c = some bottom) :
    bottom.total = (amounts bottom.delegations).sum := by
  obtain ⟨top, bottom', -, hb', hl⟩ := h c m hm
  rw [hb] at hb'
  cases hb'
  exact hl.bottomTotal

/-- Candidate `1` joins with `20`, four delegators fill its top list with `10`
    each, a fifth delegates `8` into the bottom list and has a decrease of `2`
    executed two rounds later. -/
def bottomDecreaseRun : List (Call Nat (Nat → Nat × Nat)) :=
  [.joinCandidates 1 20, .delegate 2 1 10, .delegate 3 1 10, .delegate 4 1 10, .delegate 5 1 10,
    .delegate 6 1 8, .scheduleDelegatorBondLess 6 1 2, .newRound, .newRound,
    .executeDelegationRequest 6 1]

/-- Where `bottomDecreaseRun` ends: the bottom list holds `6` under the total `8`,
    candidate `1` counts `20 + 40 + 8` while `Total` is `66`. -/
def bottomDecreaseCheck (s : State Nat (Nat → Nat × Nat)) : Bool :=
  match s.candidateInfo 1, s.topDelegations 1, s.bottomDelegations 1 with
  | some m, some top, some bottom =>
    m.bond == 20 && top.total == 40 && bottom.total == 8 &&
      (amounts bottom.delegations).sum == 6 && s.total == 66
  | _, _, _ => false

theorem bottomDecreaseRun_checks :
    Reach.runChecks (step mockConfig mockBalances) (genesis [1] fun _ => (100, 0))
      bottomDecreaseRun bottomDecreaseCheck = true := by
  decide

/-- The state `bottomDecreaseRun` reaches, with what it holds. -/
theorem bottomDecreaseRun_reaches : ∃ s, Reachable mockConfig mockBalances s ∧
    ∃ m top bottom, s.candidateInfo 1 = some m ∧ s.topDelegations 1 = some top ∧
      s.bottomDelegations 1 = some bottom ∧ m.bond = 20 ∧ top.total = 40 ∧ bottom.total = 8 ∧
      (amounts bottom.delegations).sum = 6 ∧ s.total = 66 := by
  obtain ⟨s, hs, hp⟩ :=
    Reach.Reachable.of_runChecks (Genesis.genesis (by decide) _) bottomDecreaseRun_checks
  refine ⟨s, hs, ?_⟩
  unfold bottomDecreaseCheck at hp
  split at hp
  · rename_i m top bottom hm ht hb
    simp only [Bool.and_eq_true, beq_iff_eq] at hp
    obtain ⟨⟨⟨⟨h₁, h₂⟩, h₃⟩, h₄⟩, h₅⟩ := hp
    exact ⟨m, top, bottom, hm, ht, hb, h₁, h₂, h₃, h₄, h₅⟩
  · exact absurd hp (by simp)

theorem candidateDelegationsInv_fails_after_bottom_decrease :
    ∃ s, Reachable mockConfig mockBalances s ∧ ¬ CandidateDelegationsInv mockConfig s := by
  obtain ⟨s, hs, m, top, bottom, hm, -, hb, -, -, h₈, h₆, -⟩ := bottomDecreaseRun_reaches
  refine ⟨s, hs, fun h => ?_⟩
  have := h.bottom_total hm hb
  omega

/-! ## 2. `Total` -/

/-- The self bond of `c`, `0` for an account that is not a candidate. -/
def State.bondOf (s : State A C) (c : A) : Nat := ((s.candidateInfo c).map (·.bond)).getD 0

/-- The stake backing `c` by its cached figures: bond and both list totals. -/
def State.backingOf (s : State A C) (c : A) : Nat :=
  s.bondOf c + ((s.topDelegations c).map (·.total)).getD 0 +
    ((s.bottomDelegations c).map (·.total)).getD 0

/-- The total bonded by delegator `d`, `0` for an account that is not one. -/
def State.delegatorTotal (s : State A C) (d : A) : Nat :=
  ((s.delegatorState d).map (·.total)).getD 0

/-- `Total` counts all stake: the self bonds and the delegators' totals, and equally
    the candidates' bonds with their cached list totals. -/
def TotalStakeConserved (s : State A C) : Prop :=
  s.total = (∑ᶠ c, s.bondOf c) + ∑ᶠ d, s.delegatorTotal d ∧ s.total = ∑ᶠ c, s.backingOf c

omit [LinearOrder A] in
/-- A positive figure below one term of a sum over all accounts is not the sum:
    with finite support the sum is at least the term, and otherwise it is `0`. -/
theorem ne_finsum_of_lt {f : A → Nat} {n : Nat} (c : A) (hn : 0 < n) (hc : n < f c) :
    n ≠ ∑ᶠ x, f x := by
  intro h
  by_cases hfin : (Function.support f).Finite
  · have := single_le_finsum c hfin fun _ => Nat.zero_le _
    omega
  · rw [finsum_of_infinite_support hfin] at h
    omega

theorem totalStakeConserved_fails_after_bottom_decrease :
    ∃ s, Reachable mockConfig mockBalances s ∧ ¬ TotalStakeConserved s := by
  obtain ⟨s, hs, m, top, bottom, hm, ht, hb, h₂₀, h₄₀, h₈, -, h₆₆⟩ := bottomDecreaseRun_reaches
  refine ⟨s, hs, fun h => ?_⟩
  -- candidate `1` alone is backed by `68` by the cached figures
  have h68 : s.backingOf 1 = 68 := by
    simp only [State.backingOf, State.bondOf, hm, ht, hb, Option.map_some, Option.getD_some]
    omega
  exact ne_finsum_of_lt 1 (by omega) (by omega) h.2

/-! ## 3. The delegator side -/

/-- `b` is in candidate `c`'s top list. -/
def State.inTop (s : State A C) (c : A) (b : Bond A) : Prop :=
  ∃ top, s.topDelegations c = some top ∧ b ∈ top.delegations

/-- `b` is in candidate `c`'s bottom list. -/
def State.inBottom (s : State A C) (c : A) (b : Bond A) : Prop :=
  ∃ bottom, s.bottomDelegations c = some bottom ∧ b ∈ bottom.delegations

/-- The delegators' bonds mirror the candidates' lists, and the auto-compounding
    configuration follows the bonds. -/
structure DelegatorMirror (cfg : Config) (s : State A C) : Prop where
  mirror : ∀ d st, s.delegatorState d = some st → ∀ c a,
    (⟨c, a⟩ ∈ st.delegations ↔ Xor (s.inTop c ⟨d, a⟩) (s.inBottom c ⟨d, a⟩))
  candidateExists : ∀ d st, s.delegatorState d = some st → ∀ b ∈ st.delegations,
    (s.candidateInfo b.owner).isSome
  total : ∀ d st, s.delegatorState d = some st → st.total = (amounts st.delegations).sum
  nonempty : ∀ d st, s.delegatorState d = some st → st.delegations ≠ []
  length : ∀ d st, s.delegatorState d = some st →
    st.delegations.length ≤ cfg.maxDelegationsPerDelegator
  notBoth : ∀ a, ¬ (s.isCandidate a ∧ s.isDelegator a)
  autoSorted : ∀ c, SortedVec.StrictKey AutoCompoundConfig.delegator (s.autoCompoundingDelegations c)
  autoNonzero : ∀ c, ∀ x ∈ s.autoCompoundingDelegations c, x.value ≠ 0
  autoBonded : ∀ c, ∀ x ∈ s.autoCompoundingDelegations c,
    ∃ st, s.delegatorState x.delegator = some st ∧ ∃ b ∈ st.delegations, b.owner = c

/-- Candidate `1` joins with `20`; four delegators fill its top list with `10`
    each, three more put `8` each into the bottom list, delegator `9` the lowest
    `5` with auto-compounding at `50%`; then delegator `10` delegates `7` with
    auto-compounding, which kicks delegator `9`. -/
def kickRun : List (Call Nat (Nat → Nat × Nat)) :=
  [.joinCandidates 1 20, .delegate 2 1 10, .delegate 3 1 10, .delegate 4 1 10, .delegate 5 1 10,
    .delegate 6 1 8, .delegate 7 1 8, .delegate 8 1 8, .delegateWithAutoCompound 9 1 5 50,
    .delegateWithAutoCompound 10 1 7 50]

/-- Where `kickRun` ends: delegator `9` is gone, its auto-compounding entry is not. -/
def kickCheck (s : State Nat (Nat → Nat × Nat)) : Bool :=
  (s.autoCompoundingDelegations 1).any (·.delegator == 9) && (s.delegatorState 9).isNone

theorem kickRun_checks :
    Reach.runChecks (step mockConfig mockBalances) (genesis [1] fun _ => (100, 0))
      kickRun kickCheck = true := by
  decide

theorem delegatorMirror_fails_after_kick :
    ∃ s, Reachable mockConfig mockBalances s ∧ ¬ DelegatorMirror mockConfig s := by
  obtain ⟨s, hs, hp⟩ := Reach.Reachable.of_runChecks (Genesis.genesis (by decide) _) kickRun_checks
  refine ⟨s, hs, fun h => ?_⟩
  simp only [kickCheck, Bool.and_eq_true, List.any_eq_true, beq_iff_eq,
    Option.isNone_iff_eq_none] at hp
  obtain ⟨⟨x, hx, h9⟩, hnone⟩ := hp
  obtain ⟨st, hst, -⟩ := h.autoBonded 1 x hx
  rw [h9, hnone] at hst
  exact absurd hst (by simp)

end Staking
end Litentry
