import Litentry.ScoreStaking.Invariants
import Litentry.Lib.PerThing

/-!
# `pallet_score_staking`: what a round pays against its budget

A round credits each entry
`round_reward * score / total_score * nth_root(stake ^ n, m) / nth_root(total ^ n, m)`.
The sum of these credits stays within `round_reward` for three reasons. The saturating
products and the floors only lower a value. A stake at most `Total` has a root at most
the root of `Total`. And the shares `score / total_score` add up to at most one, since
`TotalScore` is the sum of the scores (`ScoresInv`).

The second reason needs the powers to be the true powers. `u128::pow` wraps in the
release build, so once `Total ^ stake_coef_n` passes `2 ^ 128` the root of the total
can fall below the root of a smaller stake. With `stake_coef_n = 2` that happens as
soon as `Total` passes `2 ^ 64`, about 18 units of a token with 18 decimals. A single
user is then credited more than the whole round's reward (`roundBudget_exceeded`).
The default setting, `stake_coef_n = 1`, never wraps.
-/

set_option autoImplicit false

namespace Litentry
namespace ScoreStaking

variable {A I : Type} [DecidableEq A] {cfg : Config A I} {s s' : State A}

/-! ## 1. One reward -/

/-- `userReward` where nothing panics: both roots are taken and the total's is not `0`. -/
theorem userReward_eq {R S T n m t score rootUser rootTotal : Nat} (hS : S ≠ 0)
    (hrU : Word.nthRoot? (Word.wrappingPow 128 t n) m = some rootUser)
    (hrT : Word.nthRoot? (Word.wrappingPow 128 T n) m = some rootTotal) (hrT0 : rootTotal ≠ 0) :
    userReward R S T n m t score =
      .ok (Word.saturatingMul 128 (Word.saturatingMul 128 R score / S) rootUser / rootTotal) := by
  simp [userReward, Reach.okOr, Word.div?, hS, hrU, hrT, hrT0, bind, Except.bind]

/-- A reward is at most the user's share of the round's reward while the total's power
    fits in `u128`: the saturating products and the floors only lower, and the smaller
    stake has the smaller root. -/
theorem userReward_le {R S T n m t score r : Nat} (hT : T ^ n < 2 ^ 128) (ht : t ≤ T)
    (h : userReward R S T n m t score = .ok r) : r ≤ R * score / S := by
  unfold userReward at h
  obtain ⟨x, hx, h⟩ := Reach.okOr_bind_eq_ok.1 h
  obtain ⟨rootUser, hrU, h⟩ := Reach.okOr_bind_eq_ok.1 h
  obtain ⟨rootTotal, hrT, h⟩ := Reach.okOr_bind_eq_ok.1 h
  obtain ⟨hrT0, rfl⟩ := Word.div?_eq_some.1 (Reach.okOr_eq_ok.1 h)
  obtain ⟨-, rfl⟩ := Word.div?_eq_some.1 hx
  -- neither power wraps, so the user's root is at most the total's
  have hpow : t ^ n ≤ T ^ n := Nat.pow_le_pow_left ht n
  rw [Word.wrappingPow_of_lt (Nat.lt_of_le_of_lt hpow hT)] at hrU
  rw [Word.wrappingPow_of_lt hT] at hrT
  have hroot : rootUser ≤ rootTotal := Word.nthRoot?_mono hpow hrU hrT
  set x := Word.saturatingMul 128 R score / S
  calc Word.saturatingMul 128 x rootUser / rootTotal
      ≤ x * rootTotal / rootTotal :=
        Nat.div_le_div_right ((Word.saturatingMul_le _ _ _).trans (Nat.mul_le_mul_left x hroot))
    _ = x := Nat.mul_div_cancel x (Nat.pos_of_ne_zero hrT0)
    _ ≤ R * score / S := Nat.div_le_div_right (Word.saturatingMul_le _ _ _)

/-! ## 2. One round -/

/-- The first loop leaves what the second reads of the runtime and of the setting. -/
theorem clearLoop_env (s : State A) :
    (clearLoop s).env = s.env ∧ (clearLoop s).roundConfig = s.roundConfig := by
  refine Reach.foldl_invariant (I := fun t : State A => t.env = s.env ∧ t.roundConfig = s.roundConfig)
    (fun t e ht => ?_) _ ⟨rfl, rfl⟩
  unfold clearUnstaked
  split_ifs <;> exact ht

/-- The second loop succeeded on every entry, so what it credits an entry is a reward it
    computed. -/
theorem payLoop_lastRoundReward (h : payLoop cfg s = .ok s') {e : Σ _ : A, ScorePayment}
    (he : e ∈ s.scores.entries) :
    ∃ r, userReward (roundReward cfg s.roundConfig.interval) s.totalScore s.env.total
        s.roundConfig.stakeCoefN s.roundConfig.stakeCoefM (stakeOf s.env e.1) e.2.score = .ok r ∧
      (roundCredit cfg s e.1 e.2).lastRoundReward = r := by
  obtain ⟨t, t', ht⟩ := Reach.foldlM_ok_mem h e he
  obtain ⟨r, hr, -⟩ := payEntry_ok ht
  refine ⟨r, hr, ?_⟩
  simp only [roundCredit, hr]
  rfl

/-- The second loop credits at most the round's reward in all when `TotalScore` is the sum
    of the scores, no scored stake exceeds `Total`, and the power of `Total` fits in
    `u128`. -/
theorem payLoop_rewards_le
    (htotal : s.totalScore = StorageMap.valueSum ScorePayment.score s.scores)
    (hstake : ∀ a p, s.scores.lookup a = some p → stakeOf s.env a ≤ s.env.total)
    (hpow : s.env.total ^ s.roundConfig.stakeCoefN < 2 ^ 128) (h : payLoop cfg s = .ok s') :
    StorageMap.valueSum ScorePayment.lastRoundReward s'.scores ≤
      roundReward cfg s.roundConfig.interval := by
  set R := roundReward cfg s.roundConfig.interval
  set S := s.totalScore
  -- each credit is at most the entry's share of `R`
  have hshare : ∀ e ∈ s.scores.entries,
      (roundCredit cfg s e.1 e.2).lastRoundReward ≤ R * e.2.score / S := by
    intro e he
    obtain ⟨r, hr, hcredit⟩ := payLoop_lastRoundReward h he
    rw [hcredit]
    exact userReward_le hpow (hstake e.1 e.2 (AList.mem_lookup_iff.2 he)) hr
  calc StorageMap.valueSum ScorePayment.lastRoundReward s'.scores
      = (s.scores.entries.map fun e => (roundCredit cfg s e.1 e.2).lastRoundReward).sum :=
        StorageMap.valueSum_of_lookup_map _ (roundCredit cfg s) (lookup_payLoop h)
    _ ≤ (s.scores.entries.map fun e => R * e.2.score / S).sum := List.sum_le_sum hshare
    _ ≤ (s.scores.entries.map fun e => R * e.2.score).sum / S := by
        have hdiv := PerThing.sum_map_div_le (s.scores.entries.map fun e => R * e.2.score) S
        rwa [List.map_map] at hdiv
    _ = R * S / S := by
        rw [List.sum_map_mul_left, htotal]
        rfl
    _ ≤ R := Nat.div_le_of_le_mul (Nat.le_of_eq (Nat.mul_comm R S))

/-- **The round's budget.** At a round boundary of a reachable state, the rewards credited
    sum to at most `round_reward` as long as no scored stake exceeds `Total` and
    `Total ^ stake_coef_n` fits in `u128`. -/
theorem onInitialize_rewards_le (h : Reachable cfg s) {now : UInt32} (hround : StartsRound s now)
    (hstake : ∀ a p, s.scores.lookup a = some p → stakeOf s.env a ≤ s.env.total)
    (hpow : s.env.total ^ s.roundConfig.stakeCoefN < 2 ^ 128)
    (hs : onInitialize cfg s now = .ok s') :
    StorageMap.valueSum ScorePayment.lastRoundReward s'.scores ≤
      roundReward cfg s.roundConfig.interval := by
  rw [onInitialize_of_startsRound hround] at hs
  obtain ⟨henv, hcfg⟩ := clearLoop_env (s.nextRound now)
  have htotal : (clearLoop (s.nextRound now)).totalScore =
      StorageMap.valueSum ScorePayment.score (clearLoop (s.nextRound now)).scores :=
    clearLoop_totalScore (s := s.nextRound now) h.scoresInv.totalScore_eq
  have hbound := payLoop_rewards_le htotal ?_ ?_ hs
  · rwa [hcfg] at hbound
  · -- the first loop only zeroes scores, so the entries it leaves are entries of `s`
    intro a p hp
    rw [lookup_clearLoop] at hp
    obtain ⟨q, hq, -⟩ := Option.map_eq_some_iff.1 hp
    rw [henv]
    exact hstake a q hq
  · rw [henv, hcfg]
    exact hpow

/-- `Total` is `100` and every account has `50` staked. -/
def modestStakeEnv : Env Nat := ⟨1, fun _ => some 50, 100, fun _ _ => true⟩

/-- The feeder scores user `1` in a running pool of one-block rounds whose reward grows with
    the stake (`stake_coef_n = 1`, `stake_coef_m = 1`). -/
def modestStakeRun : List (Call Nat Nat) :=
  [.setScoreFeeder 0, .setRoundConfig ⟨1, 1, 1⟩, .startPool, .updateScore 0 1 1]

theorem modestStakeRun_checks :
    Reach.runChecks (step litentryConfig) (genesis .stopped modestStakeEnv) modestStakeRun
      (fun s => s.state == .running && s.round.startBlock == 1 && s.roundConfig == ⟨1, 1, 1⟩ &&
        s.scores.entries == [⟨1, ScorePayment.fresh 1⟩] && s.env.total == 100 &&
        s.env.delegatorTotal 1 == some 50 && (onInitialize litentryConfig s 2).toOption.isSome) =
      true := by
  decide

/-- The round after `modestStakeRun` credits its user within the round's reward. -/
theorem onInitialize_rewards_le_after_modestStakeRun :
    ∃ s, Reachable litentryConfig s ∧ StartsRound s 2 ∧ ∃ s',
      onInitialize litentryConfig s 2 = .ok s' ∧
        StorageMap.valueSum ScorePayment.lastRoundReward s'.scores ≤
          roundReward litentryConfig s.roundConfig.interval := by
  have h₀ : IsGenesis (genesis .stopped modestStakeEnv) := ⟨_, _, rfl⟩
  obtain ⟨s, hs, hp⟩ := Reach.Reachable.of_runChecks h₀ modestStakeRun_checks
  simp only [Bool.and_eq_true, beq_iff_eq] at hp
  obtain ⟨⟨⟨⟨⟨⟨hrun, hstart⟩, hcfg⟩, hentries⟩, htotal⟩, hstake⟩, hok⟩ := hp
  have hround : StartsRound s 2 := by
    refine ⟨hrun, ?_⟩
    rw [hstart, hcfg]
    exact isModulo_eq_ok_true (by decide) (by decide)
  obtain ⟨s', hs'⟩ : ∃ s', onInitialize litentryConfig s 2 = .ok s' := by
    cases h : onInitialize litentryConfig s 2 with
    | error e => simp [h, Except.toOption] at hok
    | ok s' => exact ⟨s', rfl⟩
  refine ⟨s, hs, hround, s', hs', onInitialize_rewards_le hs hround (fun a p hap => ?_) ?_ hs'⟩
  · -- the only scored user is `1`, with `50` of the `100`
    have hmem := AList.mem_lookup_iff.1 hap
    rw [hentries, List.mem_singleton] at hmem
    cases hmem
    simp [stakeOf, hstake, htotal]
  · rw [htotal, hcfg]
    decide

/-! ## 3. A stake squared past `u128` -/

/-- `Total` is `2 ^ 64 + 1` and every account has `2 ^ 63` staked: about 18 and 9 units of
    a token with 18 decimals. -/
def wideStakeEnv : Env Nat := ⟨1, fun _ => some (2 ^ 63), 2 ^ 64 + 1, fun _ _ => true⟩

/-- The feeder scores user `1` in a running pool whose rounds are one block long and whose
    reward grows with the square of the stake (`stake_coef_n = 2`, `stake_coef_m = 2`). -/
def squareStakeRun : List (Call Nat Nat) :=
  [.setScoreFeeder 0, .setRoundConfig ⟨1, 2, 2⟩, .startPool, .updateScore 0 1 1]

theorem squareStakeRun_checks :
    Reach.runChecks (step litentryConfig) (genesis .stopped wideStakeEnv) squareStakeRun
      (fun s => s.state == .running && s.round.startBlock == 1 && s.roundConfig == ⟨1, 2, 2⟩ &&
        s.scores.entries == [⟨1, ScorePayment.fresh 1⟩] && s.totalScore == 1 &&
        s.env.total == 2 ^ 64 + 1 && s.env.delegatorTotal 1 == some (2 ^ 63)) = true := by
  decide

/-- The user's reward in the round after `squareStakeRun`: `Total ^ 2` wraps to
    `2 ^ 65 + 1`, whose square root `6074000999` is far below the user's `2 ^ 63`. -/
theorem userReward_squareStake :
    userReward (roundReward litentryConfig 1) 1 (2 ^ 64 + 1) 2 2 (2 ^ 63) 1 =
      .ok (Word.saturatingMul 128 (Word.saturatingMul 128 (roundReward litentryConfig 1) 1 / 1)
        (2 ^ 63) / 6074000999) :=
  userReward_eq (by decide) (Word.nthRoot?_of_bounds (by decide) (by decide) (by decide))
    (Word.nthRoot?_of_bounds (by decide) (by decide) (by decide)) (by decide)

/-- A round after `squareStakeRun` credits its one user more than the round's reward,
    though the user's stake is below `Total`. -/
theorem roundBudget_exceeded :
    ∃ s, Reachable litentryConfig s ∧
      (∀ a p, s.scores.lookup a = some p → stakeOf s.env a ≤ s.env.total) ∧
      StartsRound s 2 ∧ ∃ s', onInitialize litentryConfig s 2 = .ok s' ∧
        roundReward litentryConfig s.roundConfig.interval <
          StorageMap.valueSum ScorePayment.lastRoundReward s'.scores := by
  have h₀ : IsGenesis (genesis .stopped wideStakeEnv) := ⟨_, _, rfl⟩
  obtain ⟨s, hs, hp⟩ := Reach.Reachable.of_runChecks h₀ squareStakeRun_checks
  simp only [Bool.and_eq_true, beq_iff_eq] at hp
  obtain ⟨⟨⟨⟨⟨⟨hrun, hstart⟩, hcfg⟩, hentries⟩, hscore⟩, htotal⟩, hstake⟩ := hp
  have hstake1 : stakeOf s.env 1 = 2 ^ 63 := by simp [stakeOf, hstake]
  -- the only entry is user `1`'s
  have hlookup : ∀ a p, s.scores.lookup a = some p → a = 1 ∧ p = ScorePayment.fresh 1 := by
    intro a p hap
    have hmem := AList.mem_lookup_iff.1 hap
    rw [hentries, List.mem_singleton] at hmem
    cases hmem
    exact ⟨rfl, rfl⟩
  have hround : StartsRound s 2 := by
    refine ⟨hrun, ?_⟩
    rw [hstart, hcfg]
    exact isModulo_eq_ok_true (by decide) (by decide)
  -- the first loop keeps the staked entry
  have hclear : clearLoop (s.nextRound 2) = s.nextRound 2 := by
    show s.scores.entries.foldl (clearUnstaked (stakeOf s.env)) (s.nextRound 2) = s.nextRound 2
    rw [hentries, List.foldl_cons, List.foldl_nil]
    unfold clearUnstaked
    rw [if_neg (by rw [hstake1]; decide)]
  -- the second loop credits it the reward `userReward_squareStake` computes
  have huser : userReward (roundReward litentryConfig s.roundConfig.interval) s.totalScore
      s.env.total s.roundConfig.stakeCoefN s.roundConfig.stakeCoefM (stakeOf s.env 1) 1 =
      .ok (Word.saturatingMul 128 (Word.saturatingMul 128 (roundReward litentryConfig 1) 1 / 1)
        (2 ^ 63) / 6074000999) := by
    rw [hcfg, hscore, htotal, hstake1]
    exact userReward_squareStake
  obtain ⟨s', hpay⟩ : ∃ s', payLoop litentryConfig (s.nextRound 2) = .ok s' := by
    unfold payLoop
    rw [show (s.nextRound 2).scores = s.scores from rfl, hentries, List.foldlM_cons]
    simp [payEntry, State.nextRound, ScorePayment.fresh, huser, bind, Except.bind, pure, Except.pure]
  refine ⟨s, hs, ?_, hround, s', ?_, ?_⟩
  · intro a p hap
    obtain ⟨rfl, -⟩ := hlookup a p hap
    rw [hstake1, htotal]
    decide
  · rw [onInitialize_of_startsRound hround, hclear]
    exact hpay
  · -- the sum is the credit of the one entry, which is the computed reward
    have hmem : (⟨1, ScorePayment.fresh 1⟩ : Σ _ : Nat, ScorePayment) ∈ (s.nextRound 2).scores.entries := by
      show _ ∈ s.scores.entries
      rw [hentries]
      exact List.mem_singleton_self _
    obtain ⟨r, hr, hcredit⟩ := payLoop_lastRoundReward hpay hmem
    have hsum := StorageMap.valueSum_of_lookup_map ScorePayment.lastRoundReward _ (lookup_payLoop hpay)
    rw [show (s.nextRound 2).scores = s.scores from rfl, hentries] at hsum
    simp only [List.map_cons, List.map_nil, List.sum_cons, List.sum_nil, Nat.add_zero] at hsum
    rw [hsum, hcredit]
    cases hr.symm.trans huser
    rw [hcfg]
    decide

end ScoreStaking
end Litentry
