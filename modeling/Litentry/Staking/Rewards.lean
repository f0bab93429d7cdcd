import Litentry.Staking.Selection
import Litentry.Staking.Inflation
import Litentry.Lib.PerThing

/-!
# Rounds and rewards: the chain around the extrinsics

The staking machine of `Calls.lean` changes rounds and pays rewards through two abstract
transitions. This module puts the hooks that make them around it: per block,
`pallet_authorship` notes the author (`note_author`, which awards points in the current
round), then `on_initialize` of the pallet turns the round when it is due, and then pays
one collator of the round `RewardPaymentDelay` back. A round change

* prepares the payout of the round `RewardPaymentDelay` back (`prepare_staking_payouts`):
  the round's issuance from the inflation range and the staked total, less the parachain
  bond reserve, is recorded in `DelayedPayouts`;
* snapshots every selected collator's stake in `AtStake` (`select_top_candidates`), with
  each top delegation's amount reduced by its pending request (`get_rewardable_delegators`);
  with nobody selectable it copies the last round's snapshots instead;
* records `Staked`.

`pay_one_collator_reward` drains one author's points, takes its snapshot, and splits its
share of the reward between it and its delegators (`rewardSplit`); the last call, which
finds no author left, clears `DelayedPayouts` and `Points` of the round.

The chain's state is the staking state with the round and reward storage beside it; its
steps are the extrinsics of `Call` (the hook transitions excepted), the root calls on the
round storage, and blocks. Each chain step moves the staking state by steps of `step`
(`ChainReachable.staking`), so every invariant of the staking machine holds of the chains.

Balances are `Nat`, `Perbill` and `Percent` their parts (`Lib/PerThing.lean`). Storage
maps with a prefix iterated by the code (`AtStake`, `AwardedPts`) are association lists
per round; the code drains the entry its hashed keys put first, the model the head of the
list, and no result here depends on which one that is.
-/

set_option autoImplicit false

namespace Litentry
namespace Staking

/-! ## Storage and configuration -/

/-- `BondWithAutoCompound`. -/
structure BondWithAutoCompound (A : Type) where
  owner : A
  amount : Nat
  autoCompound : Percent
  deriving DecidableEq, Repr

/-- `CollatorSnapshot`. -/
structure CollatorSnapshot (A : Type) where
  bond : Nat
  delegations : List (BondWithAutoCompound A)
  total : Nat
  deriving DecidableEq, Repr

/-- `CollatorSnapshot::default`, what `AtStake` answers for a missing entry. -/
def CollatorSnapshot.empty {A : Type} : CollatorSnapshot A := ⟨0, [], 0⟩

/-- `DelayedPayout`; the commission in parts per billion. -/
structure DelayedPayout where
  roundIssuance : Nat
  totalStakingReward : Nat
  collatorCommission : Nat
  deriving DecidableEq, Repr

/-- `ParachainBondConfig`. -/
structure ParachainBondConfig (A : Type) where
  account : A
  percent : Percent
  deriving DecidableEq, Repr

/-- The constants of `Config` the round machinery reads. -/
structure RewardConfig where
  rewardPaymentDelay : Nat
  minSelectedCandidates : Nat
  minCollatorStk : Nat
  minBlocksPerRound : Nat
  deriving DecidableEq, Repr

/-- `Perbill * balance`. -/
def perbillMul (part x : Nat) : Nat := PerThing.mul perbillAccuracy part x

/-- `Perbill::from_rational`. -/
def perbillFromRational (p q : Nat) : Nat := PerThing.fromRational perbillAccuracy p q

/-- `Percent * balance`. -/
def percentMul (p : Percent) (x : Nat) : Nat := PerThing.mul 100 p.val x

/-- The chain: the staking storage, the block number, and the round and reward storage.
    `Round` is `⟨staking.round, first, length⟩`. -/
structure Chain (A C : Type) where
  staking : State A C
  block : Nat
  first : Nat
  length : Nat
  totalSelected : Nat
  collatorCommission : Nat
  parachainBondInfo : ParachainBondConfig A
  inflationConfig : InflationInfo
  selectedCandidates : List A
  atStake : Nat → AList fun _ : A => CollatorSnapshot A
  delayedPayouts : Nat → Option DelayedPayout
  staked : Nat → Option Nat
  points : Nat → Option Nat
  awardedPts : Nat → AList fun _ : A => Nat

/-- The runtime around the pallet: its constants, the currency and its total issuance
    (`total_issuance() + adapted_total_issuance()`), and `I64F64`. -/
structure Runtime (A C F : Type) where
  cfg : Config
  rewards : RewardConfig
  cur : Currency A C
  issuance : C → Nat
  fx : FixedOps F

variable {A C F : Type} [LinearOrder A]

namespace Chain

/-- `Round`. -/
def round (c : Chain A C) : RoundInfo := ⟨c.staking.round, c.first, c.length⟩

end Chain

/-- `RoundInfo::should_update`. -/
def RoundInfo.shouldUpdate (r : RoundInfo) (now : Nat) : Bool := r.length ≤ now - r.first

/-! ## Points -/

/-- `note_author`: twenty points to the author in the current round, and to the round. -/
def noteAuthor (c : Chain A C) (author : A) : Chain A C :=
  let now := c.staking.round
  let scorePlus20 := Word.saturatingAdd 32 (((c.awardedPts now).lookup author).getD 0) 20
  { c with
    awardedPts := Function.update c.awardedPts now ((c.awardedPts now).insert author scorePlus20)
    points := Function.update c.points now
      (some (Word.saturatingAdd 32 ((c.points now).getD 0) 20)) }

/-! ## Snapshots -/

/-- The request of `delegator` in `requests` as the `BTreeMap` collected from the vector
    holds it: the last one. -/
def requestOf (requests : List (ScheduledRequest A)) (delegator : A) : Option DelegationAction :=
  ((requests.reverse.find? fun r => r.delegator = delegator).map (·.action))

/-- The body of the `map` of `get_rewardable_delegators`, for one top bond: the stake it
    adds to `uncounted_stake`, and the bond with its rewardable amount. -/
def rewardableBond (requests : List (ScheduledRequest A)) (bond : Bond A) : Nat × Bond A :=
  match requestOf requests bond.owner with
  | none => (0, bond)
  | some (.revoke _) => (bond.amount, ⟨bond.owner, 0⟩)
  | some (.decrease amount) => (amount, ⟨bond.owner, bond.amount - amount⟩)

/-- `CountedDelegations`. -/
structure CountedDelegations (A : Type) where
  uncountedStake : Nat
  rewardableDelegations : List (Bond A)

/-- `get_rewardable_delegators`: the top delegations, each reduced by its pending request,
    and the stake so left out. -/
def getRewardableDelegators (s : State A C) (collator : A) :
    Except Error (CountedDelegations A) := do
  let some top := s.topDelegations collator
    | throw (.aborted "all members of CandidateQ must be candidates")
  let mapped := top.delegations.map (rewardableBond (s.delegationScheduledRequests collator))
  pure ⟨(mapped.map (·.1)).sum, mapped.map (·.2)⟩

/-- The auto-compound percent of `delegator` in the `BTreeMap` collected from the vector,
    zero for none. -/
def autoCompoundOf (configs : List (AutoCompoundConfig A)) (delegator : A) : Percent :=
  ((configs.reverse.find? fun x => x.delegator = delegator).map (·.value)).getD 0

/-- The snapshot `select_top_candidates` stores for a selected `account`. -/
def snapshotOf (s : State A C) (account : A) : Except Error (CollatorSnapshot A) := do
  let some state := s.candidateInfo account
    | throw (.aborted "all members of CandidateQ must be candidates")
  let counted ← getRewardableDelegators s account
  let totalCounted := state.totalCounted - counted.uncountedStake
  let autoCompounding := s.autoCompoundingDelegations account
  let delegations := counted.rewardableDelegations.map fun d =>
    (⟨d.owner, d.amount, autoCompoundOf autoCompounding d.owner⟩ : BondWithAutoCompound A)
  pure ⟨state.bond, delegations, totalCounted⟩

/-- `select_top_candidates(now)`: snapshot the selected collators, or, with none
    selectable, copy last round's snapshots and keep `SelectedCandidates`. -/
def selectTopCandidates (rc : RewardConfig) (c : Chain A C) (now : Nat) :
    Except Error (Chain A C) := do
  let collators := computeTopCandidates c.totalSelected rc.minCollatorStk c.staking.candidatePool
  if collators.isEmpty then
    let lastRound := now - 1
    let copied := (c.atStake lastRound).entries.foldl (fun acc e => acc.insert e.1 e.2)
      (c.atStake now)
    -- the `CollatorChosen` events read each selected candidate's copied total
    if c.selectedCandidates.all fun a => ((c.atStake lastRound).lookup a).isSome then
      pure { c with atStake := Function.update c.atStake now copied }
    else throw (.aborted "all selected candidates have snapshots")
  else
    let atStake ← collators.foldlM (fun acc account =>
      (snapshotOf c.staking account).map fun snapshot => acc.insert account snapshot)
      (c.atStake now)
    pure { c with atStake := Function.update c.atStake now atStake, selectedCandidates := collators }

/-! ## Payouts -/

section Payouts

variable (rt : Runtime A C F)

/-- `mint`: a deposit into an existing account, or nothing. -/
def mint (s : State A C) (amt : Nat) (account : A) : State A C :=
  match rt.cur.depositIntoExisting s.currency account amt with
  | some currency => { s with currency := currency }
  | none => s

/-- `compute_issuance(staked)`: the round rate of the range `staked` falls in, of the
    circulating supply. -/
def computeIssuance (c : Chain A C) (staked : Nat) : Nat :=
  let config := c.inflationConfig
  let circulating := rt.issuance c.staking.currency
  if staked < config.expect.min then perbillMul config.round.min circulating
  else if config.expect.max < staked then perbillMul config.round.max circulating
  else perbillMul config.round.ideal circulating

/-- `prepare_staking_payouts(now)`: record the payout of the round `RewardPaymentDelay`
    back, its issuance less the parachain bond reserve if that deposit succeeds. -/
def prepareStakingPayouts (c : Chain A C) (now : Nat) : Chain A C :=
  let delay := rt.rewards.rewardPaymentDelay
  if now ≤ delay then c
  else
    let roundToPayout := now - delay
    let totalPoints := (c.points roundToPayout).getD 0
    if totalPoints = 0 then c
    else
      let totalStaked := (c.staked roundToPayout).getD 0
      let c := { c with staked := Function.update c.staked roundToPayout none }
      let totalIssuance := computeIssuance rt c totalStaked
      let bondConfig := c.parachainBondInfo
      let parachainBondReserve := percentMul bondConfig.percent totalIssuance
      let (leftIssuance, c) :=
        match rt.cur.depositIntoExisting c.staking.currency bondConfig.account
            parachainBondReserve with
        | some currency =>
          (totalIssuance - parachainBondReserve,
            { c with staking := { c.staking with currency := currency } })
        | none => (totalIssuance, c)
      let payout : DelayedPayout := ⟨totalIssuance, leftIssuance, c.collatorCommission⟩
      { c with delayedPayouts := Function.update c.delayedPayouts roundToPayout (some payout) }

/-- What `pay_one_collator_reward` hands out for one author: `total_paid`, the collator's
    reward, and the due of each delegation of its snapshot. -/
structure Split (A : Type) where
  totalPaid : Nat
  collatorReward : Nat
  dues : List (BondWithAutoCompound A × Nat)

/-- The split of `pay_one_collator_reward` for an author with `pts` of the round's
    `totalPoints` and snapshot `state`: a solo collator takes its whole share; otherwise
    the commission comes off the top and the rest is shared by stake. -/
def rewardSplit (info : DelayedPayout) (totalPoints pts : Nat) (state : CollatorSnapshot A) :
    Split A :=
  let pctDue := perbillFromRational pts totalPoints
  let totalPaid := perbillMul pctDue info.totalStakingReward
  if state.delegations.isEmpty then ⟨totalPaid, totalPaid, []⟩
  else
    let collatorIssuance := perbillMul info.collatorCommission info.roundIssuance
    let collatorPct := perbillFromRational state.bond state.total
    let commission := perbillMul pctDue collatorIssuance
    let amtDue := totalPaid - commission
    ⟨totalPaid, perbillMul collatorPct amtDue + commission,
      state.delegations.map fun d => (d, perbillMul (perbillFromRational d.amount state.total) amtDue)⟩

/-- The mints of a split: the collator's reward, then each non-zero due, compounded. -/
def paySplit (s : State A C) (collator : A) (split : Split A) : State A C :=
  split.dues.foldl (fun s d =>
      if d.2 = 0 then s else mintAndCompound rt.cfg rt.cur s d.2 d.1.autoCompound collator d.1.owner)
    (mint rt s split.collatorReward collator)

/-- `pay_one_collator_reward(paid_for_round, payout_info)`: drain one author's points and
    pay its split; `none` when no author is left. -/
def payOneCollatorReward (c : Chain A C) (paidForRound : Nat) (info : DelayedPayout) :
    Option (A × Nat) × Chain A C :=
  let totalPoints := (c.points paidForRound).getD 0
  if totalPoints = 0 then (none, c)
  else
    match (c.awardedPts paidForRound).entries with
    | [] => (none, c)
    | ⟨collator, pts⟩ :: _ =>
      let state := ((c.atStake paidForRound).lookup collator).getD CollatorSnapshot.empty
      let split := rewardSplit info totalPoints pts state
      (some (collator, split.totalPaid),
        { c with
          awardedPts := Function.update c.awardedPts paidForRound
            ((c.awardedPts paidForRound).erase collator)
          atStake := Function.update c.atStake paidForRound
            ((c.atStake paidForRound).erase collator)
          staking := paySplit rt c.staking collator split })

/-- `handle_delayed_payouts(now)`: one payout of the round `RewardPaymentDelay` back; once
    none is left, its `DelayedPayouts` and `Points` go. -/
def handleDelayedPayouts (c : Chain A C) (now : Nat) : Chain A C :=
  let delay := rt.rewards.rewardPaymentDelay
  if now < delay then c
  else
    let paidForRound := now - delay
    match c.delayedPayouts paidForRound with
    | none => c
    | some payoutInfo =>
      match payOneCollatorReward rt c paidForRound payoutInfo with
      | (none, c) =>
        { c with
          delayedPayouts := Function.update c.delayedPayouts paidForRound none
          points := Function.update c.points paidForRound none }
      | (some _, c) => c

/-- `on_initialize(n)`: turn the round if it is due, then make one delayed payout. -/
def onInitialize (c : Chain A C) (n : Nat) : Except Error (Chain A C) :=
  if c.round.shouldUpdate n then do
    let current := c.staking.round + 1
    let c := { c with staking := { c.staking with round := current }, first := n }
    let c := prepareStakingPayouts rt c current
    let c ← selectTopCandidates rt.rewards c current
    let c := { c with staked := Function.update c.staked current (some c.staking.total) }
    pure (handleDelayedPayouts rt c current)
  else pure (handleDelayedPayouts rt c c.staking.round)

end Payouts

/-! ## Root calls on the round storage -/

/-- The errors of the root calls, and the pallet's errors of the other steps. -/
inductive ChainError where
  | staking (e : Error)
  | round (e : RoundError)
  | invalidSchedule
  | noWritingSameValue
  | cannotSetBelowMin
  | roundLengthMustBeGreaterThanTotalSelectedCollators
  deriving DecidableEq, Repr

section Root

variable (rt : Runtime A C F)

/-- `set_staking_expectations`. -/
def setStakingExpectations (c : Chain A C) (expectations : Range Nat) :
    Except ChainError (Chain A C) := do
  if ¬ expectations.isValid then throw .invalidSchedule
  if c.inflationConfig.expect = expectations then throw .noWritingSameValue
  pure { c with inflationConfig := { c.inflationConfig with expect := expectations } }

/-- `set_inflation`: the round rates follow from the annual ones at the current
    `BLOCKS_PER_YEAR / length` rounds a year. -/
def setInflation (c : Chain A C) (schedule : Range Nat) : Except ChainError (Chain A C) := do
  if ¬ schedule.isValid then throw .invalidSchedule
  if c.inflationConfig.annual = schedule then throw .noWritingSameValue
  let periods ← Reach.okOr (Word.div? blocksPerYear c.length) (.round (.panic divideByZero))
  let round ← (perbillAnnualToPerbillRound rt.fx schedule periods).mapError .round
  pure { c with inflationConfig := { c.inflationConfig with annual := schedule, round := round } }

/-- `set_parachain_bond_account`. -/
def setParachainBondAccount (c : Chain A C) (new : A) : Except ChainError (Chain A C) := do
  if c.parachainBondInfo.account = new then throw .noWritingSameValue
  pure { c with parachainBondInfo := { c.parachainBondInfo with account := new } }

/-- `set_parachain_bond_reserve_percent`. -/
def setParachainBondReservePercent (c : Chain A C) (new : Percent) :
    Except ChainError (Chain A C) := do
  if c.parachainBondInfo.percent = new then throw .noWritingSameValue
  pure { c with parachainBondInfo := { c.parachainBondInfo with percent := new } }

/-- `set_total_selected`. -/
def setTotalSelected (c : Chain A C) (new : Nat) : Except ChainError (Chain A C) := do
  if new < rt.rewards.minSelectedCandidates then throw .cannotSetBelowMin
  if c.totalSelected = new then throw .noWritingSameValue
  if ¬ new < c.length then throw .roundLengthMustBeGreaterThanTotalSelectedCollators
  pure { c with totalSelected := new }

/-- `set_collator_commission`. -/
def setCollatorCommission (c : Chain A C) (new : Nat) : Except ChainError (Chain A C) := do
  if c.collatorCommission = new then throw .noWritingSameValue
  pure { c with collatorCommission := new }

/-- `set_blocks_per_round`, through `Round`, `TotalSelected` and `InflationConfig`. -/
def setBlocksPerRoundOf (c : Chain A C) (new : Nat) : Except ChainError (Chain A C) := do
  let r ← (setBlocksPerRound rt.fx rt.rewards.minBlocksPerRound
    ⟨c.round, c.totalSelected, c.inflationConfig⟩ new).mapError .round
  pure { c with length := r.round.length, inflationConfig := r.inflationConfig }

end Root

/-! ## The chain -/

/-- A staking call made as an extrinsic: the two hook transitions are made by the hooks. -/
def Call.isExtrinsic {A C : Type} : Call A C → Bool
  | .newRound => false
  | .payout _ _ _ _ => false
  | _ => true

/-- The steps of the chain. A `Perbill` argument is at most one whole, as its decoding
    checks. -/
inductive ChainCall (A C : Type) where
  | extrinsic (call : Call A C) (h : call.isExtrinsic = true)
  | block (author : A)
  | setStakingExpectations (expectations : Range Nat)
  | setInflation (schedule : Range Nat)
  | setParachainBondAccount (new : A)
  | setParachainBondReservePercent (new : Percent)
  | setTotalSelected (new : Nat)
  | setCollatorCommission (new : Fin (perbillAccuracy + 1))
  | setBlocksPerRound (new : Nat)

/-- The next block: the author's points, then `on_initialize`. -/
def block (rt : Runtime A C F) (c : Chain A C) (author : A) : Except Error (Chain A C) :=
  let n := c.block + 1
  onInitialize rt (noteAuthor { c with block := n } author) n

/-- One step of the chain. -/
def chainStep (rt : Runtime A C F) (c : Chain A C) : ChainCall A C → Except ChainError (Chain A C)
  | .extrinsic call _ =>
    (step rt.cfg rt.cur c.staking call).map (fun s => { c with staking := s }) |>.mapError .staking
  | .block author => (block rt c author).mapError .staking
  | .setStakingExpectations e => setStakingExpectations c e
  | .setInflation schedule => setInflation rt c schedule
  | .setParachainBondAccount new => setParachainBondAccount c new
  | .setParachainBondReservePercent new => setParachainBondReservePercent c new
  | .setTotalSelected new => setTotalSelected rt c new
  | .setCollatorCommission new => setCollatorCommission c new.val
  | .setBlocksPerRound new => setBlocksPerRoundOf rt c new

/-- A chain at genesis: empty staking storage, round `1` from block `0`, no snapshot,
    payout or points; `Staked(1)` is the empty `Total`. -/
def ChainGenesis (rt : Runtime A C F) (c : Chain A C) : Prop :=
  Genesis c.staking ∧ c.block = 0 ∧ c.first = 0 ∧ rt.rewards.minBlocksPerRound ≤ c.length ∧
    c.totalSelected = rt.rewards.minSelectedCandidates ∧
    c.collatorCommission ≤ perbillAccuracy ∧ c.selectedCandidates = [] ∧
    (∀ r, c.atStake r = ∅) ∧ (∀ r, c.delayedPayouts r = none) ∧
    (∀ r, c.staked r = if r = 1 then some 0 else none) ∧ (∀ r, c.points r = none) ∧
    (∀ r, c.awardedPts r = ∅)

/-- The chains a run of successful steps reaches from genesis. -/
def ChainReachable (rt : Runtime A C F) : Chain A C → Prop :=
  Reach.Reachable (ChainGenesis rt) (chainStep rt)

/-! ## The staking machine inside the chain

The hooks touch the staking storage only as the staking machine's own transitions do: the
round change is `newRound`, a mint is a change of the currency, and a compounded due is a
`payout`. So each chain step moves the staking state by staking steps, and the staking
states of reachable chains are reachable. -/

section Simulation

variable {rt : Runtime A C F}

theorem mint_moves (s : State A C) (amt : Nat) (account : A) :
    Reach.Moves (step rt.cfg rt.cur) s (mint rt s amt account) := by
  unfold mint
  split
  · exact Reach.Moves.single (b := .setCurrency _) rfl
  · exact Reach.Moves.refl _

theorem paySplit_moves (s : State A C) (collator : A) (split : Split A) :
    Reach.Moves (step rt.cfg rt.cur) s (paySplit rt s collator split) := by
  -- after the collator's mint, one `payout` step for each non-zero due
  have hdues : ∀ (l : List (BondWithAutoCompound A × Nat)) (s₀ : State A C),
      Reach.Moves (step rt.cfg rt.cur) s₀ (l.foldl (fun s d =>
        if d.2 = 0 then s
        else mintAndCompound rt.cfg rt.cur s d.2 d.1.autoCompound collator d.1.owner) s₀) := by
    intro l
    induction l with
    | nil => exact fun s₀ => Reach.Moves.refl s₀
    | cons d l ih =>
      intro s₀
      rw [List.foldl_cons]
      refine Reach.Moves.trans ?_ (ih _)
      split_ifs
      · exact Reach.Moves.refl _
      · exact Reach.Moves.single (b := .payout collator d.1.owner d.2 d.1.autoCompound) rfl
  exact (mint_moves s _ collator).trans (hdues _ _)

theorem payOneCollatorReward_moves (c : Chain A C) (r : Nat) (info : DelayedPayout) :
    Reach.Moves (step rt.cfg rt.cur) c.staking (payOneCollatorReward rt c r info).2.staking := by
  unfold payOneCollatorReward
  dsimp only
  split_ifs
  · exact Reach.Moves.refl _
  · split
    · exact Reach.Moves.refl _
    · exact paySplit_moves _ _ _

theorem handleDelayedPayouts_moves (c : Chain A C) (now : Nat) :
    Reach.Moves (step rt.cfg rt.cur) c.staking (handleDelayedPayouts rt c now).staking := by
  unfold handleDelayedPayouts
  dsimp only
  split_ifs
  · exact Reach.Moves.refl _
  · split
    · exact Reach.Moves.refl _
    · next info _ =>
      -- both outcomes keep the staking state of the payout
      have hpay : Reach.Moves (step rt.cfg rt.cur) c.staking
          (payOneCollatorReward rt c (now - rt.rewards.rewardPaymentDelay) info).2.staking :=
        payOneCollatorReward_moves c _ info
      revert hpay
      cases payOneCollatorReward rt c (now - rt.rewards.rewardPaymentDelay) info with
      | mk paid c₁ => cases paid <;> exact id

theorem prepareStakingPayouts_moves (c : Chain A C) (now : Nat) :
    Reach.Moves (step rt.cfg rt.cur) c.staking (prepareStakingPayouts rt c now).staking := by
  unfold prepareStakingPayouts
  dsimp only
  split_ifs
  · exact Reach.Moves.refl _
  · exact Reach.Moves.refl _
  · -- the parachain bond reserve is a deposit, if it succeeds
    dsimp only
    split
    · exact Reach.Moves.single (b := .setCurrency _) rfl
    · exact Reach.Moves.refl _

theorem selectTopCandidates_staking {rc : RewardConfig} {c c' : Chain A C} {now : Nat}
    (h : selectTopCandidates rc c now = .ok c') : c'.staking = c.staking := by
  unfold selectTopCandidates at h
  dsimp only at h
  split at h
  · -- the fallback copies snapshots, or panics
    split at h
    · cases Reach.pure_eq_ok.1 h
      rfl
    · cases h
  · obtain ⟨atStake, -, h⟩ := Reach.bind_eq_ok.1 h
    cases Reach.pure_eq_ok.1 h
    rfl

theorem onInitialize_moves {c c' : Chain A C} {n : Nat} (h : onInitialize rt c n = .ok c') :
    Reach.Moves (step rt.cfg rt.cur) c.staking c'.staking := by
  unfold onInitialize at h
  split_ifs at h
  · obtain ⟨c₁, h₁, h⟩ := Reach.bind_eq_ok.1 h
    cases Reach.pure_eq_ok.1 h
    -- the round change, the reserve, the snapshots, then one payout
    let c₀ : Chain A C := { c with staking := { c.staking with round := c.staking.round + 1 }, first := n }
    have hround : Reach.Moves (step rt.cfg rt.cur) c.staking c₀.staking :=
      Reach.Moves.single (b := .newRound) rfl
    refine (hround.trans (prepareStakingPayouts_moves c₀ (c.staking.round + 1))).trans ?_
    rw [← selectTopCandidates_staking h₁]
    exact handleDelayedPayouts_moves
      { c₁ with staked := Function.update c₁.staked (c.staking.round + 1) (some c₁.staking.total) } _
  · cases Reach.pure_eq_ok.1 h
    exact handleDelayedPayouts_moves _ _

/-- A step of the chain moves its staking state by staking steps. -/
theorem chainStep_moves {c c' : Chain A C} {call : ChainCall A C}
    (h : chainStep rt c call = .ok c') :
    Reach.Moves (step rt.cfg rt.cur) c.staking c'.staking := by
  cases call with
  | extrinsic call _ =>
    obtain ⟨s, hs, rfl⟩ := Reach.map_eq_ok.1 (Reach.mapError_eq_ok.1 h)
    exact Reach.Moves.single hs
  | block author =>
    have h₁ : block rt c author = .ok c' := Reach.mapError_eq_ok.1 h
    exact onInitialize_moves (c := noteAuthor { c with block := c.block + 1 } author) h₁
  | setStakingExpectations e =>
    simp only [chainStep, setStakingExpectations] at h
    obtain ⟨-, h⟩ := Reach.ite_throw_bind_eq_ok.1 h
    obtain ⟨-, h⟩ := Reach.ite_throw_bind_eq_ok.1 h
    cases Reach.pure_eq_ok.1 h
    exact Reach.Moves.refl _
  | setInflation schedule =>
    simp only [chainStep, setInflation] at h
    obtain ⟨-, h⟩ := Reach.ite_throw_bind_eq_ok.1 h
    obtain ⟨-, h⟩ := Reach.ite_throw_bind_eq_ok.1 h
    obtain ⟨periods, -, h⟩ := Reach.okOr_bind_eq_ok.1 h
    obtain ⟨round, -, h⟩ := Reach.bind_eq_ok.1 h
    cases Reach.pure_eq_ok.1 h
    exact Reach.Moves.refl _
  | setParachainBondAccount new =>
    simp only [chainStep, setParachainBondAccount] at h
    obtain ⟨-, h⟩ := Reach.ite_throw_bind_eq_ok.1 h
    cases Reach.pure_eq_ok.1 h
    exact Reach.Moves.refl _
  | setParachainBondReservePercent new =>
    simp only [chainStep, setParachainBondReservePercent] at h
    obtain ⟨-, h⟩ := Reach.ite_throw_bind_eq_ok.1 h
    cases Reach.pure_eq_ok.1 h
    exact Reach.Moves.refl _
  | setTotalSelected new =>
    simp only [chainStep, setTotalSelected] at h
    obtain ⟨-, h⟩ := Reach.ite_throw_bind_eq_ok.1 h
    obtain ⟨-, h⟩ := Reach.ite_throw_bind_eq_ok.1 h
    obtain ⟨-, h⟩ := Reach.ite_throw_bind_eq_ok.1 h
    cases Reach.pure_eq_ok.1 h
    exact Reach.Moves.refl _
  | setCollatorCommission new =>
    simp only [chainStep, setCollatorCommission] at h
    obtain ⟨-, h⟩ := Reach.ite_throw_bind_eq_ok.1 h
    cases Reach.pure_eq_ok.1 h
    exact Reach.Moves.refl _
  | setBlocksPerRound new =>
    simp only [chainStep, setBlocksPerRoundOf] at h
    obtain ⟨r, -, h⟩ := Reach.bind_eq_ok.1 h
    cases Reach.pure_eq_ok.1 h
    exact Reach.Moves.refl _

/-- **The chain refines the staking machine.** The staking state of a reachable chain is a
    reachable staking state. -/
theorem ChainReachable.staking {c : Chain A C} (h : ChainReachable rt c) :
    Reachable rt.cfg rt.cur c.staking :=
  Reach.Reachable.simulate Chain.staking (fun _ h₀ => h₀.1) (fun _ _ _ h => chainStep_moves h) h

end Simulation

end Staking
end Litentry
