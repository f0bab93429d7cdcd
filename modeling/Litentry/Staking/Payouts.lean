import Litentry.Staking.Rewards

/-!
# Delayed payouts: what they mint and what they leave behind

Two facts about `pay_one_collator_reward` and its round.

**The split mints more than it splits.** An author's `total_paid` is shared between the
collator (its commission, then its stake's share of the rest) and its delegators, each
share a `Perbill::from_rational` of the snapshot's total, rounded down, times the amount,
rounded to nearest. The shares sum to at most one whole, but each product may round up
by just under half a unit; the collator's reward and the dues together exceed `total_paid`
by less than half a unit per share (`rewardSplit_le`), and do exceed it: a collator of `30`
with delegations of `30` and `40` splitting `2` mints `1 + 1 + 1`
(`payout_exceeds_staking_reward`).

**A snapshot outlives its round.** `AtStake(r, c)` is taken only when `c` is drained as an
author of round `r`; the round's last payout clears `DelayedPayouts(r)` and `Points(r)`
and nothing else. A collator selected for a round in which it authors nothing keeps its
snapshot after the round's payouts are done (`atStake_outlives_payouts`).

Both are shown on the test runtime of `mock.rs`, with `pallet_balances` keeping its
`TotalIssuance` beside the accounts (`Currency.withIssuance`).
-/

set_option autoImplicit false

namespace Litentry
namespace Staking

variable {A C F : Type} [LinearOrder A]

/-! ## One author's split -/

theorem perbillAccuracy_pos : 0 < perbillAccuracy := by decide

omit [LinearOrder A] in
/-- The shares of a snapshot whose total covers its bond and delegations sum to at most
    one whole. -/
theorem sum_shares_le (state : CollatorSnapshot A) (htotal : 0 < state.total)
    (hcover : state.bond + (state.delegations.map (·.amount)).sum ≤ state.total) :
    (perbillFromRational state.bond state.total ::
      state.delegations.map fun d => perbillFromRational d.amount state.total).sum ≤
        perbillAccuracy := by
  have h := PerThing.sum_fromRational_le perbillAccuracy_pos
    (state.bond :: state.delegations.map (·.amount)) htotal (by simpa using hcover)
  simpa [perbillFromRational, List.map_map, Function.comp_def] using h

omit [LinearOrder A] in
/-- **The split overshoots by less than half a unit per share.** For a snapshot whose total
    covers its stake, and a commission issuance within the staking reward, the collator's
    reward and the dues exceed `total_paid` by less than half a unit for each of the
    collator's and delegations' shares. -/
theorem rewardSplit_le (info : DelayedPayout) (totalPoints pts : Nat) (state : CollatorSnapshot A)
    (htotal : 0 < state.total)
    (hcover : state.bond + (state.delegations.map (·.amount)).sum ≤ state.total)
    (hcomm : perbillMul info.collatorCommission info.roundIssuance ≤ info.totalStakingReward) :
    2 * ((rewardSplit info totalPoints pts state).collatorReward +
        ((rewardSplit info totalPoints pts state).dues.map (·.2)).sum) ≤
      2 * (rewardSplit info totalPoints pts state).totalPaid + state.delegations.length + 1 := by
  unfold rewardSplit
  split
  · -- a solo collator takes `total_paid` whole
    simp only [List.map_nil, List.sum_nil, Nat.add_zero]
    omega
  · dsimp only
    set pctDue := perbillFromRational pts totalPoints
    set totalPaid := perbillMul pctDue info.totalStakingReward
    set commission := perbillMul pctDue (perbillMul info.collatorCommission info.roundIssuance)
    set amtDue := totalPaid - commission
    -- the commission is the same share of less
    have hle : commission ≤ totalPaid := PerThing.mul_mono perbillAccuracy_pos pctDue hcomm
    -- the shares' products, the collator's first
    have hsplit := PerThing.two_mul_sum_mul_le perbillAccuracy_pos _ (sum_shares_le state htotal hcover)
      amtDue
    simp only [List.map_cons, List.map_map, List.sum_cons, List.length_cons, List.length_map,
      Function.comp_def] at hsplit
    simp only [List.map_map, Function.comp_def]
    unfold perbillMul at hle ⊢
    omega

/-- A collator of `30` with delegations of `30` and `40`: every share rounds up. -/
def splitSnapshot : CollatorSnapshot Nat := ⟨30, [⟨2, 30, 0⟩, ⟨3, 40, 0⟩], 100⟩

/-- Splitting `2` over `splitSnapshot`: the shares come to `3`, within the bound. -/
theorem rewardSplit_le_at_splitSnapshot :
    2 * ((rewardSplit ⟨2, 2, 0⟩ 1 1 splitSnapshot).collatorReward +
        ((rewardSplit ⟨2, 2, 0⟩ 1 1 splitSnapshot).dues.map (·.2)).sum) ≤
      2 * (rewardSplit ⟨2, 2, 0⟩ 1 1 splitSnapshot).totalPaid +
        splitSnapshot.delegations.length + 1 :=
  rewardSplit_le _ 1 1 splitSnapshot (by decide) (by decide) (by decide)

/-! ## The test runtime -/

/-- `pallet_balances` with its `TotalIssuance`: a deposit into an existing account raises it,
    and moving balance between free and reserved does not. -/
def Currency.withIssuance (cur : Currency A C) : Currency A (C × Nat) where
  freeBalance c a := cur.freeBalance c.1 a
  reserve c a n := (cur.reserve c.1 a n).map fun c' => (c', c.2)
  unreserve c a n := (cur.unreserve c.1 a n, c.2)
  depositIntoExisting c a n := (cur.depositIntoExisting c.1 a n).map fun c' => (c', c.2 + n)

/-- The round constants of the test runtime `Test`. -/
def mockRewards : RewardConfig where
  rewardPaymentDelay := 2
  minSelectedCandidates := 5
  minCollatorStk := 10
  minBlocksPerRound := 3

/-- The test runtime, with `I64F64` left out: no run here changes the round length or the
    annual inflation. -/
def mockRuntime : Runtime Nat ((Nat → Nat × Nat) × Nat) Int :=
  ⟨mockConfig, mockRewards, mockBalances.withIssuance, Prod.snd, intFixed fun _ _ => none⟩

/-- The genesis of `ExtBuilder` with no candidates: rounds of `DefaultBlocksPerRound = 5`
    blocks from block `0`, `TotalSelected = MinSelectedCandidates`, the default commission
    of `20%` and bond reserve of `30%` to the zero account. -/
def mockChain (whitelist : List Nat) (balances : Nat → Nat × Nat) (issuance : Nat)
    (inflation : InflationInfo) : Chain Nat ((Nat → Nat × Nat) × Nat) where
  staking := genesis whitelist (balances, issuance)
  block := 0
  first := 0
  length := 5
  totalSelected := 5
  collatorCommission := 200000000
  parachainBondInfo := ⟨0, 30⟩
  inflationConfig := inflation
  selectedCandidates := []
  atStake _ := ∅
  delayedPayouts _ := none
  staked r := if r = 1 then some 0 else none
  points _ := none
  awardedPts _ := ∅

theorem mockChain_genesis {whitelist : List Nat} (h : whitelist.Pairwise (· < ·))
    (balances : Nat → Nat × Nat) (issuance : Nat) (inflation : InflationInfo) :
    ChainGenesis mockRuntime (mockChain whitelist balances issuance inflation) :=
  ⟨Genesis.genesis h _, rfl, rfl, by show 3 ≤ 5; decide, rfl,
    by show 200000000 ≤ perbillAccuracy; decide, rfl, fun _ => rfl, fun _ => rfl,
    fun _ => rfl, fun _ => rfl, fun _ => rfl⟩

/-! ## Over-minting -/

/-- Balances of `400`, `300` and `300`, so a total issuance of `1000`, and a round
    inflation of `0.2%`: a round's issuance is `2`. -/
def splitChain : Chain Nat ((Nat → Nat × Nat) × Nat) :=
  mockChain [1] (fun a => if a = 1 then (400, 0) else if a = 2 ∨ a = 3 then (300, 0) else (0, 0))
    1000 ⟨⟨0, 0, 0⟩, ⟨0, 0, 0⟩, ⟨2000000, 2000000, 2000000⟩⟩

/-- Collator `1` bonds `30`, delegators `2` and `3` bond `30` and `40`, and `1` authors the
    fourteen blocks before the round-`2` payout. -/
def splitRun : List (ChainCall Nat ((Nat → Nat × Nat) × Nat)) :=
  [.extrinsic (.joinCandidates 1 30) rfl, .extrinsic (.delegate 2 1 30) rfl,
    .extrinsic (.delegate 3 1 40) rfl] ++ List.replicate 14 (.block 1)

/-- The split of author `1` of round `2` at `c`, with the payout `p`. -/
def splitOfOne (c : Chain Nat ((Nat → Nat × Nat) × Nat)) (p : DelayedPayout) : Split Nat :=
  rewardSplit p ((c.points 2).getD 0) (((c.awardedPts 2).lookup 1).getD 0)
    (((c.atStake 2).lookup 1).getD .empty)

/-- At the end of `splitRun` the next block starts round `4`, records the round-`2` payout
    `p` and pays author `1`: its split mints `3` against a `total_paid` and a staking reward
    of `2`, and the issuance rises by those `3`. -/
def splitCheck (c : Chain Nat ((Nat → Nat × Nat) × Nat)) : Bool :=
  match chainStep mockRuntime c (.block 1) with
  | .ok c' =>
    match c'.delayedPayouts 2 with
    | some p =>
      let sp := splitOfOne c p
      decide (perbillMul p.collatorCommission p.roundIssuance ≤ p.totalStakingReward) &&
        sp.totalPaid == 2 && p.totalStakingReward == 2 &&
        sp.collatorReward + (sp.dues.map (·.2)).sum == 3 &&
        c'.staking.currency.2 == c.staking.currency.2 + 3
    | none => false
  | .error _ => false

theorem splitRun_checks : Reach.runChecks (chainStep mockRuntime) splitChain splitRun splitCheck =
    true := by
  decide

/-- A reachable chain whose next block pays author `1` of round `2` more than its
    `total_paid` and more than the round's staking reward, though the commission issuance is
    within it. -/
theorem payout_exceeds_staking_reward :
    ∃ c, ChainReachable mockRuntime c ∧ ∃ c' p, chainStep mockRuntime c (.block 1) = .ok c' ∧
      c'.delayedPayouts 2 = some p ∧
      perbillMul p.collatorCommission p.roundIssuance ≤ p.totalStakingReward ∧
      (splitOfOne c p).totalPaid < (splitOfOne c p).collatorReward +
        ((splitOfOne c p).dues.map (·.2)).sum ∧
      p.totalStakingReward < (splitOfOne c p).collatorReward +
        ((splitOfOne c p).dues.map (·.2)).sum ∧
      c'.staking.currency.2 = c.staking.currency.2 + ((splitOfOne c p).collatorReward +
        ((splitOfOne c p).dues.map (·.2)).sum) := by
  obtain ⟨c, hc, hp⟩ := Reach.Reachable.of_runChecks (mockChain_genesis (by decide) _ _ _)
    splitRun_checks
  refine ⟨c, hc, ?_⟩
  unfold splitCheck at hp
  split at hp
  · next c' hstep =>
    split at hp
    · next p hpay =>
      simp only [Bool.and_eq_true, decide_eq_true_eq, beq_iff_eq] at hp
      obtain ⟨⟨⟨⟨hcomm, hpaid⟩, hreward⟩, hsum⟩, hissuance⟩ := hp
      refine ⟨c', p, hstep, hpay, hcomm, ?_, ?_, ?_⟩ <;> omega
    · cases hp
  · cases hp

/-! ## Snapshots left behind -/

/-- Candidates `1` and `2` with balances of `100`, an issuance of `200`, and a round
    inflation of `0.5%`. -/
def leakChain : Chain Nat ((Nat → Nat × Nat) × Nat) :=
  mockChain [1, 2] (fun a => if a = 1 ∨ a = 2 then (100, 0) else (0, 0)) 200
    ⟨⟨0, 0, 0⟩, ⟨0, 0, 0⟩, ⟨5000000, 5000000, 5000000⟩⟩

/-- Both join, and `1` authors every block up to the first block of round `5`. -/
def leakRun : List (ChainCall Nat ((Nat → Nat × Nat) × Nat)) :=
  [.extrinsic (.joinCandidates 1 20) rfl, .extrinsic (.joinCandidates 2 20) rfl] ++
    List.replicate 20 (.block 1)

/-- In the first block of round `5`, round `2`'s payout is done and cleared, and the
    snapshot of `2`, selected for round `2` but no author in it, is still there. -/
def leakCheck (c : Chain Nat ((Nat → Nat × Nat) × Nat)) : Bool :=
  c.staking.round == 5 && c.first == c.block && (c.delayedPayouts 2).isNone &&
    (c.points 2).isNone && ((c.atStake 2).lookup 2).isSome

theorem leakRun_checks : Reach.runChecks (chainStep mockRuntime) leakChain leakRun leakCheck =
    true := by
  decide

/-- A reachable chain at the first block of round `2 + RewardPaymentDelay + 1`, after the
    payouts of round `2` are done, that still holds a round-`2` snapshot. -/
theorem atStake_outlives_payouts :
    ∃ c, ChainReachable mockRuntime c ∧
      c.staking.round = 2 + mockRewards.rewardPaymentDelay + 1 ∧ c.first = c.block ∧
      c.delayedPayouts 2 = none ∧ c.points 2 = none ∧ ((c.atStake 2).lookup 2).isSome := by
  obtain ⟨c, hc, hp⟩ := Reach.Reachable.of_runChecks (mockChain_genesis (by decide) _ _ _)
    leakRun_checks
  simp only [leakCheck, Bool.and_eq_true, beq_iff_eq, Option.isNone_iff_eq_none] at hp
  obtain ⟨⟨⟨⟨hround, hfirst⟩, hpayout⟩, hpoints⟩, hleft⟩ := hp
  exact ⟨c, hc, hround, hfirst, hpayout, hpoints, hleft⟩

end Staking
end Litentry
