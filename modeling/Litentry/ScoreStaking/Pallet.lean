import Litentry.Lib.Reach
import Litentry.Lib.StorageMap
import Litentry.Lib.Word

/-!
# `pallet_score_staking`: scores fed from outside, rewards paid per round

A feeder account writes a score for each user (`update_score`); every `interval` blocks
`on_initialize` starts a round, first zeroing the score of every user with nothing staked
in `parachain-staking`, then crediting each user a share of the round's reward that grows
with the score and with a root of the stake. Users `claim` what they were credited.
`TotalScore` and `ScoreUserCount` cache the sum of the scores and the number of entries.

What the model takes from the source (`pallets/score-staking/src/lib.rs`):

* **Words.** `Score`, `RoundIndex` and block numbers are `u32`, balances `u128`. Block
  numbers are `UInt32`, whose `-` wraps as the release build's does. Scores and balances
  are `Nat` with the bounds the code checks; the reward's `*`, `pow` and `+=` wrap
  (`Word.wrappingMul` and so on), as the release profile sets no overflow checks.
* **Panics.** `%` and `/` by zero, `saturating_div` by zero and `nth_root` of degree zero
  panic. `on_initialize` returns `Panic` there: a block whose hook panics cannot be
  built, so the chain stays where it was.
* **The rest of the runtime** is `Env`: the block number, what `parachain-staking`
  holds, and whether a deposit into an account succeeds. The step `environment` changes
  it arbitrarily, so every history of the other pallets is covered.
* **Origins.** The admin origin (`T::AdminOrigin`) is left out: the admin may make any of
  its calls at any time. The feeder check of `update_score` and `remove_score` is kept.
* `YearlyInflation * YearlyIssuance` is one constant of the runtime, `yearlyReward`.
  `BlockNumberConvertError`, `ScoreFeederSet` and the other events are left out.

Every extrinsic runs in a storage transaction: a call that fails leaves no write, so a
function here returns the new state or an error and a failed call is dropped.
-/

set_option autoImplicit false

namespace Litentry
namespace ScoreStaking

/-! ## 1. Types and state -/

/-- `PoolState`. -/
inductive PoolState where
  | stopped
  | running
  deriving DecidableEq, Repr

/-- `RoundInfo<BlockNumber>`. -/
structure RoundInfo where
  index : Nat
  startBlock : UInt32
  deriving DecidableEq, Repr

/-- `RoundSetting`. `interval` is a `RoundDuration`, a `u32` of blocks. -/
structure RoundSetting where
  interval : UInt32
  stakeCoefN : Nat
  stakeCoefM : Nat
  deriving DecidableEq, Repr

/-- `ScorePayment<Balance>`. -/
structure ScorePayment where
  score : Nat
  totalReward : Nat
  lastRoundReward : Nat
  unpaidReward : Nat
  deriving DecidableEq, Repr

/-- `ScorePayment { score, ..Default::default() }`. -/
def ScorePayment.fresh (score : Nat) : ScorePayment := ⟨score, 0, 0, 0⟩

/-- What the pallet reads from the rest of the runtime: the current block, each account's
    `DelegatorState(a).total` in `parachain-staking`, its `Total`, and whether
    `deposit_into_existing` of an amount into an account succeeds. -/
structure Env (A : Type) where
  blockNumber : UInt32
  delegatorTotal : A → Option Nat
  total : Nat
  canDeposit : A → Nat → Bool

/-- The pallet's storage, with the part of the runtime it reads. -/
structure State (A : Type) where
  scoreFeeder : Option A
  round : RoundInfo
  roundConfig : RoundSetting
  scores : AList fun _ : A => ScorePayment
  scoreUserCount : Nat
  totalScore : Nat
  state : PoolState
  env : Env A

/-- The runtime's constants: `YearlyInflation * YearlyIssuance`, `MaxScoreUserCount`,
    and the conversion of a user's `Identity` into an account (`to_account_id`, then
    `T::AccountIdConvert::convert`). -/
structure Config (A I : Type) where
  yearlyReward : Nat
  maxScoreUserCount : Nat
  toAccountId : I → Option A

/-- `DAYS`: 7200 blocks of 12 seconds. -/
def days : Nat := 7200

/-- `YEARS`: 8766 hours of 300 blocks. -/
def years : Nat := 2629800

/-- `DefaultRoundSetting`. -/
def defaultRoundSetting : RoundSetting := ⟨(7 * days).toUInt32, 1, 2⟩

/-- The storage after `GenesisConfig { state }`: every other item at its default. -/
def genesis {A : Type} (state : PoolState) (env : Env A) : State A :=
  ⟨none, ⟨0, 0⟩, defaultRoundSetting, ∅, 0, 0, state, env⟩

/-- The pallet's `Error`, with `depositFailed` for an error of `deposit_into_existing`. -/
inductive Error where
  | unauthorizedOrigin
  | userNotStaked
  | userStakedAmountZero
  | userNotExist
  | convertIdentityFailed
  | poolNotRun
  | poolAlreadyRunning
  | roundIndexOverflow
  | insufficientBalance
  | balanceUnderflow
  | totalScoreOverflow
  | totalScoreUnderflow
  | scoreUserCountOverflow
  | scoreUserCountUnderflow
  | maxScoreUserCountReached
  | depositFailed
  deriving DecidableEq, Repr

/-- Where `on_initialize` panics. -/
inductive Panic where
  | remainderByZero
  | divisionByZero
  | rootOfDegreeZero
  deriving DecidableEq, Repr

/-! ## 2. Helpers -/

/-- `update_total_score(due_sub, due_add)`: the new `TotalScore`. -/
def updateTotalScore (totalScore dueSub dueAdd : Nat) : Except Error Nat :=
  (if 0 < dueSub then Reach.okOr (Word.checkedSub totalScore dueSub) .totalScoreUnderflow
    else pure totalScore) >>= fun s =>
  if 0 < dueAdd then Reach.okOr (Word.checkedAdd 32 s dueAdd) .totalScoreOverflow else pure s

/-- `inc_score_user_count`: the new `ScoreUserCount`. -/
def incScoreUserCount (maxScoreUserCount c : Nat) : Except Error Nat := do
  if ¬ c < maxScoreUserCount then throw .maxScoreUserCountReached
  Reach.okOr (Word.checkedAdd 32 c 1) .scoreUserCountOverflow

/-- `dec_score_user_count`: the new `ScoreUserCount`. -/
def decScoreUserCount (c : Nat) : Except Error Nat :=
  Reach.okOr (Word.checkedSub c 1) .scoreUserCountUnderflow

/-- `is_modulo(dividend, divisor)`, which panics on a zero divisor. -/
def isModulo (dividend divisor : UInt32) : Except Panic Bool :=
  if divisor = 0 then throw .remainderByZero else pure (dividend % divisor == 0)

/-- `delegator_state(a).map(|s| s.total).unwrap_or_default()`. -/
def stakeOf {A : Type} (env : Env A) (a : A) : Nat := (env.delegatorTotal a).getD 0

/-- The reward of one entry in a round:
    `round_reward * score / total_score * nth_root(stake ^ n, m) / nth_root(total ^ n, m)`,
    products saturating and powers wrapping in `u128`. -/
def userReward (roundReward totalScore totalStake n m userStake score : Nat) :
    Except Panic Nat := do
  let x ← Reach.okOr (Word.div? (Word.saturatingMul 128 roundReward score) totalScore)
    .divisionByZero
  let rootUser ← Reach.okOr (Word.nthRoot? (Word.wrappingPow 128 userStake n) m) .rootOfDegreeZero
  let y := Word.saturatingMul 128 x rootUser
  let rootTotal ← Reach.okOr (Word.nthRoot? (Word.wrappingPow 128 totalStake n) m)
    .rootOfDegreeZero
  Reach.okOr (Word.div? y rootTotal) .divisionByZero

/-! ## 3. The calls -/

section Calls

variable {A I : Type} [DecidableEq A] (cfg : Config A I)

/-- `set_score_feeder`. -/
def setScoreFeeder (s : State A) (newScoreFeeder : A) : State A :=
  { s with scoreFeeder := some newScoreFeeder }

/-- `start_pool`: the round index moves on and the round starts at the current block. -/
def startPool (s : State A) : Except Error (State A) := do
  if s.state ≠ .stopped then throw .poolAlreadyRunning
  let index ← Reach.okOr (Word.checkedAdd 32 s.round.index 1) .roundIndexOverflow
  pure { s with state := .running, round := ⟨index, s.env.blockNumber⟩ }

/-- `stop_pool`. -/
def stopPool (s : State A) : Except Error (State A) := do
  if s.state ≠ .running then throw .poolNotRun
  pure { s with state := .stopped }

/-- `set_round_config`: any setting is accepted. -/
def setRoundConfig (s : State A) (config : RoundSetting) : State A :=
  { s with roundConfig := config }

/-- `update_score`: the feeder sets the score of a staked user, creating the entry if
    there is none. -/
def updateScore (s : State A) (who : A) (user : I) (score : Nat) : Except Error (State A) := do
  if some who ≠ s.scoreFeeder then throw .unauthorizedOrigin
  let account ← Reach.okOr (cfg.toAccountId user) .convertIdentityFailed
  let total ← Reach.okOr (s.env.delegatorTotal account) .userNotStaked
  if ¬ 0 < total then throw .userStakedAmountZero
  match s.scores.lookup account with
  | some p =>
    let totalScore ← updateTotalScore s.totalScore p.score score
    pure { s with totalScore := totalScore, scores := s.scores.insert account { p with score } }
  | none =>
    let totalScore ← updateTotalScore s.totalScore 0 score
    let scoreUserCount ← incScoreUserCount cfg.maxScoreUserCount s.scoreUserCount
    pure { s with
      totalScore := totalScore
      scoreUserCount := scoreUserCount
      scores := s.scores.insert account (ScorePayment.fresh score) }

/-- `remove_score`: the entry goes, with its unpaid reward. -/
def removeScore (s : State A) (who : A) (user : I) : Except Error (State A) := do
  if some who ≠ s.scoreFeeder then throw .unauthorizedOrigin
  let account ← Reach.okOr (cfg.toAccountId user) .convertIdentityFailed
  let p ← Reach.okOr (s.scores.lookup account) .userNotExist
  let totalScore ← updateTotalScore s.totalScore p.score 0
  let scoreUserCount ← decScoreUserCount s.scoreUserCount
  pure { s with
    totalScore := totalScore
    scoreUserCount := scoreUserCount
    scores := s.scores.erase account }

/-- `clear_score`. -/
def clearScore (s : State A) : State A :=
  { s with scores := ∅, totalScore := 0, scoreUserCount := 0 }

/-- `claim`: what the currency deposits is what is taken off the unpaid reward. -/
def claim (s : State A) (who : A) (amount : Nat) : Except Error (State A) := do
  let p ← Reach.okOr (s.scores.lookup who) .userNotExist
  if ¬ amount ≤ p.unpaidReward then throw .insufficientBalance
  if !s.env.canDeposit who amount then throw .depositFailed
  let rewarded := amount
  let unpaidReward ← Reach.okOr (Word.checkedSub p.unpaidReward rewarded) .balanceUnderflow
  pure { s with scores := s.scores.insert who { p with unpaidReward := unpaidReward } }

/-- `claim_all`. -/
def claimAll (s : State A) (who : A) : Except Error (State A) := do
  let p ← Reach.okOr (s.scores.lookup who) .userNotExist
  claim s who p.unpaidReward

end Calls

/-! ## 4. `on_initialize` -/

section Hook

variable {A I : Type} [DecidableEq A] (cfg : Config A I)

/-- `round_reward`: the reward per block, times the round's length, in `u128`. -/
def roundReward (interval : UInt32) : Nat :=
  Word.wrappingMul 128 (cfg.yearlyReward / years) interval.toNat

/-- One turn of the first loop: an entry whose account has nothing staked loses its score,
    and `TotalScore` loses it too unless `update_total_score` fails, which is ignored. The
    staking pallet does not change during the hook, so `stake` is read once. -/
def clearUnstaked (stake : A → Nat) (s : State A) (e : Σ _ : A, ScorePayment) : State A :=
  if stake e.1 = 0 then
    { s with
      totalScore := match updateTotalScore s.totalScore e.2.score 0 with
        | .ok t => t
        | .error _ => s.totalScore
      scores := s.scores.insert e.1 { e.2 with score := 0 } }
  else s

/-- The credit of a round's reward `r` to a payment. -/
def ScorePayment.credit (p : ScorePayment) (r : Nat) : ScorePayment :=
  { p with
    lastRoundReward := r
    totalReward := Word.wrappingAdd 128 p.totalReward r
    unpaidReward := Word.wrappingAdd 128 p.unpaidReward r }

/-- One turn of the second loop: the entry is credited its reward. -/
def payEntry (roundReward totalScore totalStake n m : Nat) (stake : A → Nat) (s : State A)
    (e : Σ _ : A, ScorePayment) : Except Panic (State A) := do
  let r ← userReward roundReward totalScore totalStake n m (stake e.1) e.2.score
  pure { s with scores := s.scores.insert e.1 (e.2.credit r) }

/-- Step 1 of a round boundary: the round index moves on and the round starts now. -/
def State.nextRound (s : State A) (now : UInt32) : State A :=
  { s with round := ⟨Word.saturatingAdd 32 s.round.index 1, now⟩ }

/-- The first loop of step 2, over `Scores::iter()`. -/
def clearLoop (s : State A) : State A :=
  s.scores.entries.foldl (clearUnstaked (stakeOf s.env)) s

/-- The second loop of step 2, over `Scores::iter()` once the first is done, with
    `TotalScore` read between the two. -/
def payLoop (s : State A) : Except Panic (State A) :=
  s.scores.entries.foldlM (payEntry (roundReward cfg s.roundConfig.interval) s.totalScore
    s.env.total s.roundConfig.stakeCoefN s.roundConfig.stakeCoefM (stakeOf s.env)) s

/-- `on_initialize(now)`: nothing while the pool is stopped or inside a round; at a round
    boundary a new round starts and every entry is paid. -/
def onInitialize (s : State A) (now : UInt32) : Except Panic (State A) := do
  if s.state = .stopped then return s
  if !(← isModulo (now - s.round.startBlock) s.roundConfig.interval) then return s
  payLoop cfg (clearLoop (s.nextRound now))

end Hook

/-! ## 5. The machine -/

/-- The pallet's extrinsics, its hook, and everything else the runtime does. -/
inductive Call (A I : Type) where
  | setScoreFeeder (newScoreFeeder : A)
  | startPool
  | stopPool
  | setRoundConfig (config : RoundSetting)
  | updateScore (who : A) (user : I) (score : Nat)
  | removeScore (who : A) (user : I)
  | clearScore
  | claim (who : A) (amount : Nat)
  | claimAll (who : A)
  | onInitialize (now : UInt32)
  | environment (env : Env A)

/-- A call fails with an error of the pallet, or its block cannot be built. -/
inductive Failure where
  | error (e : Error)
  | panic (p : Panic)

variable {A I : Type} [DecidableEq A]

/-- One call. -/
def step (cfg : Config A I) (s : State A) : Call A I → Except Failure (State A)
  | .setScoreFeeder a => pure (setScoreFeeder s a)
  | .startPool => (startPool s).mapError .error
  | .stopPool => (stopPool s).mapError .error
  | .setRoundConfig c => pure (setRoundConfig s c)
  | .updateScore who user score => (updateScore cfg s who user score).mapError .error
  | .removeScore who user => (removeScore cfg s who user).mapError .error
  | .clearScore => pure (clearScore s)
  | .claim who amount => (claim s who amount).mapError .error
  | .claimAll who => (claimAll s who).mapError .error
  | .onInitialize now => (onInitialize cfg s now).mapError .panic
  | .environment env => pure { s with env := env }

/-! ## 6. What each call does -/

section Spec

variable {cfg : Config A I} {s s' : State A}

theorem updateTotalScore_ok {t sub add t' : Nat} (h : updateTotalScore t sub add = .ok t') :
    sub ≤ t ∧ t' = t - sub + add := by
  unfold updateTotalScore at h
  obtain ⟨t₁, h₁, h⟩ := Reach.bind_eq_ok.1 h
  have hsub : sub ≤ t ∧ t₁ = t - sub := by
    split_ifs at h₁ with hpos
    · obtain ⟨hle, rfl⟩ := Word.checkedSub_eq_some.1 (Reach.okOr_eq_ok.1 h₁)
      exact ⟨hle, rfl⟩
    · rw [Reach.pure_eq_ok] at h₁
      omega
  split_ifs at h with hadd
  · obtain ⟨-, rfl⟩ := Word.checkedAdd_eq_some.1 (Reach.okOr_eq_ok.1 h)
    omega
  · rw [Reach.pure_eq_ok] at h
    omega

/-- Taking a score out never fails while the total holds it. -/
theorem updateTotalScore_sub {t sub : Nat} (h : sub ≤ t) :
    updateTotalScore t sub 0 = .ok (t - sub) := by
  by_cases hsub : 0 < sub
  · simp [updateTotalScore, hsub, Word.checkedSub, h, bind, Except.bind, pure, Except.pure,
      Reach.okOr]
  · have : sub = 0 := by omega
    subst this
    simp [updateTotalScore, bind, Except.bind, pure, Except.pure]

theorem incScoreUserCount_ok {m c c' : Nat} (h : incScoreUserCount m c = .ok c') :
    c < m ∧ c' = c + 1 := by
  unfold incScoreUserCount at h
  dsimp only at h
  obtain ⟨hc, h⟩ := Reach.ite_throw_bind_eq_ok.1 h
  obtain ⟨-, rfl⟩ := Word.checkedAdd_eq_some.1 (Reach.okOr_eq_ok.1 h)
  exact ⟨not_not.1 hc, rfl⟩

theorem decScoreUserCount_ok {c c' : Nat} (h : decScoreUserCount c = .ok c') :
    1 ≤ c ∧ c' = c - 1 :=
  Word.checkedSub_eq_some.1 (Reach.okOr_eq_ok.1 h)

omit [DecidableEq A] in
theorem startPool_ok (h : startPool s = .ok s') :
    s.state = .stopped ∧
      ∃ index, s' = { s with state := .running, round := ⟨index, s.env.blockNumber⟩ } := by
  unfold startPool at h
  dsimp only at h
  obtain ⟨hst, h⟩ := Reach.ite_throw_bind_eq_ok.1 h
  obtain ⟨index, -, h⟩ := Reach.okOr_bind_eq_ok.1 h
  exact ⟨not_not.1 hst, index, (Reach.pure_eq_ok.1 h).symm⟩

omit [DecidableEq A] in
theorem stopPool_ok (h : stopPool s = .ok s') : s' = { s with state := .stopped } := by
  unfold stopPool at h
  dsimp only at h
  obtain ⟨-, h⟩ := Reach.ite_throw_bind_eq_ok.1 h
  exact (Reach.pure_eq_ok.1 h).symm

theorem updateScore_ok {who : A} {user : I} {score : Nat}
    (h : updateScore cfg s who user score = .ok s') :
    ∃ account, cfg.toAccountId user = some account ∧
      ((∃ p t, s.scores.lookup account = some p ∧
          updateTotalScore s.totalScore p.score score = .ok t ∧
          s' = { s with
            totalScore := t
            scores := s.scores.insert account { p with score := score } }) ∨
        (∃ t c, s.scores.lookup account = none ∧
          updateTotalScore s.totalScore 0 score = .ok t ∧
          incScoreUserCount cfg.maxScoreUserCount s.scoreUserCount = .ok c ∧
          s' = { s with
            totalScore := t
            scoreUserCount := c
            scores := s.scores.insert account (ScorePayment.fresh score) })) := by
  unfold updateScore at h
  dsimp only at h
  obtain ⟨-, h⟩ := Reach.ite_throw_bind_eq_ok.1 h
  obtain ⟨account, hacc, h⟩ := Reach.okOr_bind_eq_ok.1 h
  obtain ⟨total, -, h⟩ := Reach.okOr_bind_eq_ok.1 h
  obtain ⟨-, h⟩ := Reach.ite_throw_bind_eq_ok.1 h
  refine ⟨account, hacc, ?_⟩
  -- an entry is updated in place, or created and counted
  cases hp : s.scores.lookup account with
  | some p =>
    rw [hp] at h
    obtain ⟨t, ht, h⟩ := Reach.bind_eq_ok.1 h
    exact .inl ⟨p, t, rfl, ht, (Reach.pure_eq_ok.1 h).symm⟩
  | none =>
    rw [hp] at h
    obtain ⟨t, ht, h⟩ := Reach.bind_eq_ok.1 h
    obtain ⟨c, hc, h⟩ := Reach.bind_eq_ok.1 h
    exact .inr ⟨t, c, rfl, ht, hc, (Reach.pure_eq_ok.1 h).symm⟩

theorem removeScore_ok {who : A} {user : I} (h : removeScore cfg s who user = .ok s') :
    ∃ account p t c, s.scores.lookup account = some p ∧
      updateTotalScore s.totalScore p.score 0 = .ok t ∧
      decScoreUserCount s.scoreUserCount = .ok c ∧
      s' = { s with totalScore := t, scoreUserCount := c, scores := s.scores.erase account } := by
  unfold removeScore at h
  dsimp only at h
  obtain ⟨-, h⟩ := Reach.ite_throw_bind_eq_ok.1 h
  obtain ⟨account, -, h⟩ := Reach.okOr_bind_eq_ok.1 h
  obtain ⟨p, hp, h⟩ := Reach.okOr_bind_eq_ok.1 h
  obtain ⟨t, ht, h⟩ := Reach.bind_eq_ok.1 h
  obtain ⟨c, hc, h⟩ := Reach.bind_eq_ok.1 h
  exact ⟨account, p, t, c, hp, ht, hc, (Reach.pure_eq_ok.1 h).symm⟩

theorem claim_ok {who : A} {amount : Nat} (h : claim s who amount = .ok s') :
    ∃ p, s.scores.lookup who = some p ∧ amount ≤ p.unpaidReward ∧
      s' = { s with
        scores := s.scores.insert who { p with unpaidReward := p.unpaidReward - amount } } := by
  unfold claim at h
  obtain ⟨p, hp, h⟩ := Reach.okOr_bind_eq_ok.1 h
  dsimp only at h
  obtain ⟨hle, h⟩ := Reach.ite_throw_bind_eq_ok.1 h
  obtain ⟨-, h⟩ := Reach.ite_throw_bind_eq_ok.1 h
  obtain ⟨unpaid, hunpaid, h⟩ := Reach.okOr_bind_eq_ok.1 h
  obtain ⟨-, rfl⟩ := Word.checkedSub_eq_some.1 hunpaid
  exact ⟨p, hp, not_not.1 hle, (Reach.pure_eq_ok.1 h).symm⟩

theorem claimAll_ok {who : A} (h : claimAll s who = .ok s') :
    ∃ p, s.scores.lookup who = some p ∧ claim s who p.unpaidReward = .ok s' := by
  unfold claimAll at h
  obtain ⟨p, hp, h⟩ := Reach.okOr_bind_eq_ok.1 h
  exact ⟨p, hp, h⟩

/-- `on_initialize(now)` starts a round: the pool runs and `now` is a round boundary. -/
def StartsRound (s : State A) (now : UInt32) : Prop :=
  s.state = .running ∧ isModulo (now - s.round.startBlock) s.roundConfig.interval = .ok true

omit [DecidableEq A] in
instance (s : State A) (now : UInt32) : Decidable (StartsRound s now) :=
  inferInstanceAs (Decidable (_ ∧ _))

theorem onInitialize_ok {now : UInt32} (h : onInitialize cfg s now = .ok s') :
    (¬ StartsRound s now ∧ s' = s) ∨
      (StartsRound s now ∧ payLoop cfg (clearLoop (s.nextRound now)) = .ok s') := by
  unfold onInitialize at h
  split_ifs at h with hst
  · exact .inl ⟨fun hr => by simp [hr.1] at hst, (Reach.pure_eq_ok.1 h).symm⟩
  · obtain ⟨b, hb, h⟩ := Reach.bind_eq_ok.1 h
    -- inside a round the hook returns; at a boundary it runs both loops
    cases b
    · simp only [Bool.not_false, ↓reduceIte] at h
      exact .inl ⟨fun hr => by simp [hr.2] at hb, (Reach.pure_eq_ok.1 h).symm⟩
    · simp only [Bool.not_true, Bool.false_eq_true, ↓reduceIte] at h
      have hrun : s.state = .running := by
        cases hs : s.state with
        | stopped => exact absurd hs hst
        | running => rfl
      exact .inr ⟨⟨hrun, hb⟩, h⟩

theorem isModulo_eq_ok_true {dividend divisor : UInt32} (hd : divisor ≠ 0)
    (hmod : dividend % divisor = 0) : isModulo dividend divisor = .ok true := by
  simp [isModulo, hd, hmod, pure, Except.pure]

/-- At a round boundary the hook is its two loops. -/
theorem onInitialize_of_startsRound {now : UInt32} (h : StartsRound s now) :
    onInitialize cfg s now = payLoop cfg (clearLoop (s.nextRound now)) := by
  obtain ⟨hrun, hmod⟩ := h
  have hst : s.state ≠ .stopped := by rw [hrun]; exact PoolState.noConfusion
  simp [onInitialize, hst, hmod, bind, Except.bind]

end Spec

/-! ## 7. The two loops of a round boundary

Each turn of either loop rewrites the entry it visits and nothing else, so both are
passes in the sense of `StorageMap`: what they leave is read off entry by entry. -/

section Loops

variable {cfg : Config A I} {s s' : State A}

/-- What the first loop makes of one entry. -/
def zeroIfUnstaked (stake : A → Nat) (a : A) (p : ScorePayment) : ScorePayment :=
  if stake a = 0 then { p with score := 0 } else p

theorem lookup_clearUnstaked {stake : A → Nat} {t : State A} {e : Σ _ : A, ScorePayment}
    (he : t.scores.lookup e.1 = some e.2) (a : A) :
    (clearUnstaked stake t e).scores.lookup a =
      if a = e.1 then some (zeroIfUnstaked stake e.1 e.2) else t.scores.lookup a := by
  unfold clearUnstaked zeroIfUnstaked
  by_cases hs : stake e.1 = 0
  · by_cases ha : a = e.1
    · subst ha
      simp [hs]
    · simp [hs, ha, AList.lookup_insert_ne ha]
  · by_cases ha : a = e.1
    · subst ha
      simp [hs, he]
    · simp [hs, ha]

theorem lookup_clearLoop (s : State A) (a : A) :
    (clearLoop s).scores.lookup a = (s.scores.lookup a).map (zeroIfUnstaked (stakeOf s.env) a) :=
  StorageMap.lookup_foldl_entries State.scores (clearUnstaked (stakeOf s.env))
    (zeroIfUnstaked (stakeOf s.env)) (fun _ _ he a => lookup_clearUnstaked he a) s a

theorem length_clearLoop (s : State A) :
    (clearLoop s).scores.entries.length = s.scores.entries.length := by
  apply StorageMap.length_entries_eq
  intro a
  rw [lookup_clearLoop]
  simp

theorem clearLoop_scoreUserCount (s : State A) :
    (clearLoop s).scoreUserCount = s.scoreUserCount := by
  refine Reach.foldl_invariant (I := fun t : State A => t.scoreUserCount = s.scoreUserCount)
    (fun t e ht => ?_) _ rfl
  unfold clearUnstaked
  split_ifs <;> exact ht

/-- The first loop keeps `TotalScore` the sum of the scores: each score it zeroes is held
    by the total, so `update_total_score` takes it out and the ignored error never comes. -/
theorem clearLoop_totalScore (h : s.totalScore = StorageMap.valueSum ScorePayment.score s.scores) :
    (clearLoop s).totalScore = StorageMap.valueSum ScorePayment.score (clearLoop s).scores := by
  refine StorageMap.foldl_invariant State.scores (clearUnstaked (stakeOf s.env))
    (fun t e he a ha => by rw [lookup_clearUnstaked he, if_neg ha])
    (fun t => t.totalScore = StorageMap.valueSum ScorePayment.score t.scores) (fun t e he ht => ?_)
    s.scores.nodupKeys (StorageMap.lookup_of_mem_entries _) h
  unfold clearUnstaked
  split_ifs with hs
  · have hle : e.2.score ≤ t.totalScore := by
      have := StorageMap.valueAt_le_valueSum ScorePayment.score t.scores e.1
      simp only [StorageMap.valueAt, he, Option.map_some, Option.getD_some] at this
      omega
    have hsum := StorageMap.valueSum_insert ScorePayment.score t.scores e.1 { e.2 with score := 0 }
    simp only [StorageMap.valueAt, he, Option.map_some, Option.getD_some] at hsum
    simp only [updateTotalScore_sub hle]
    omega
  · exact ht

theorem userReward_zero_totalScore (roundReward totalStake n m userStake score : Nat) :
    userReward roundReward 0 totalStake n m userStake score = .error .divisionByZero := by
  simp [userReward, Reach.okOr, bind, Except.bind]

/-- With an entry to pay and a total score of `0`, the second loop divides by zero. -/
theorem payLoop_zero_totalScore (hne : s.scores.entries ≠ []) (h0 : s.totalScore = 0) :
    payLoop cfg s = .error .divisionByZero := by
  obtain ⟨e, l, hl⟩ := List.exists_cons_of_ne_nil hne
  unfold payLoop
  rw [hl, List.foldlM_cons]
  simp [payEntry, h0, userReward_zero_totalScore, bind, Except.bind]

theorem payEntry_ok {rr ts tst n m : Nat} {stake : A → Nat} {t t' : State A}
    {e : Σ _ : A, ScorePayment} (h : payEntry rr ts tst n m stake t e = .ok t') :
    ∃ r, userReward rr ts tst n m (stake e.1) e.2.score = .ok r ∧
      t' = { t with scores := t.scores.insert e.1 (e.2.credit r) } := by
  unfold payEntry at h
  obtain ⟨r, hr, h⟩ := Reach.bind_eq_ok.1 h
  exact ⟨r, hr, (Reach.pure_eq_ok.1 h).symm⟩

/-- What the second loop credits an entry. -/
def roundCredit (cfg : Config A I) (s : State A) (a : A) (p : ScorePayment) : ScorePayment :=
  match userReward (roundReward cfg s.roundConfig.interval) s.totalScore s.env.total
    s.roundConfig.stakeCoefN s.roundConfig.stakeCoefM (stakeOf s.env a) p.score with
  | .ok r => p.credit r
  | .error _ => p

theorem lookup_payLoop (h : payLoop cfg s = .ok s') (a : A) :
    s'.scores.lookup a = (s.scores.lookup a).map (roundCredit cfg s a) := by
  have hpass := StorageMap.lookup_foldlM State.scores _ (roundCredit cfg s)
    (fun t e t' he ht a => ?_) s.scores.nodupKeys (StorageMap.lookup_of_mem_entries _) h a
  · rw [hpass]
    split_ifs with ha
    · rfl
    · have hnone : s.scores.lookup a = none :=
        AList.lookup_eq_none.2 (fun h => ha (AList.mem_keys.1 h))
      simp [hnone]
  · obtain ⟨r, hr, rfl⟩ := payEntry_ok ht
    by_cases hae : a = e.1
    · subst hae
      simp [roundCredit, hr]
    · simp [hae, AList.lookup_insert_ne hae]

/-- When the second loop succeeds, every entry was credited a reward it computed. -/
theorem payLoop_credits (h : payLoop cfg s = .ok s') {a : A} {p : ScorePayment}
    (hp : s.scores.lookup a = some p) :
    ∃ r, s'.scores.lookup a = some (p.credit r) := by
  obtain ⟨t, t', ht⟩ := Reach.foldlM_ok_mem h ⟨a, p⟩ (AList.mem_lookup_iff.1 hp)
  obtain ⟨r, hr, -⟩ := payEntry_ok ht
  exact ⟨r, by rw [lookup_payLoop h, hp]; simp [roundCredit, hr]⟩

theorem payLoop_fields (h : payLoop cfg s = .ok s') :
    s'.totalScore = s.totalScore ∧ s'.scoreUserCount = s.scoreUserCount := by
  refine Reach.foldlM_invariant (I := fun t : State A =>
    t.totalScore = s.totalScore ∧ t.scoreUserCount = s.scoreUserCount)
    (fun t e t' ht hstep => ?_) ⟨rfl, rfl⟩ h
  obtain ⟨r, -, rfl⟩ := payEntry_ok hstep
  exact ht

theorem length_payLoop (h : payLoop cfg s = .ok s') :
    s'.scores.entries.length = s.scores.entries.length := by
  apply StorageMap.length_entries_eq
  intro a
  rw [lookup_payLoop h]
  simp

end Loops

/-- A run starts from the genesis storage, with any pool state and any runtime around it. -/
def IsGenesis (s : State A) : Prop := ∃ state env, s = genesis state env

/-- The states a run can be in. -/
def Reachable (cfg : Config A I) : State A → Prop :=
  Reach.Reachable IsGenesis (step cfg)

end ScoreStaking
end Litentry
