import Litentry.ScoreStaking.Pallet

/-!
# `pallet_score_staking`: what every run keeps, and where a round divides by zero

`TotalScore` and `ScoreUserCount` are caches: the first of the sum of the scores, the
second of the number of entries. Every call keeps them exact (`ScoresInv`), including the
first loop of a round, which ignores the result of `update_total_score`: on a state where
the cache is exact that call never fails.

The exact cache is also what makes a round panic. The second loop divides by
`TotalScore`, and after the first loop that is the sum of the scores of staked users. A
round that starts with entries, none of them a staked user with a positive score, divides
by zero (`onInitialize_divides_by_zero`). That happens after `update_score(user, 0)`, or
once every scored user has unstaked, and the block cannot be built.
-/

set_option autoImplicit false

namespace Litentry
namespace ScoreStaking

variable {A I : Type} [DecidableEq A] {cfg : Config A I} {s s' : State A}

/-! ## 1. The cached aggregates -/

/-- `TotalScore` is the sum of the scores, and `ScoreUserCount` the number of entries,
    never more than `MaxScoreUserCount`. -/
structure ScoresInv (cfg : Config A I) (s : State A) : Prop where
  totalScore_eq : s.totalScore = StorageMap.valueSum ScorePayment.score s.scores
  count_eq : s.scoreUserCount = s.scores.entries.length
  count_le : s.scoreUserCount ≤ cfg.maxScoreUserCount

omit [DecidableEq A] in
theorem ScoresInv.genesis (state : PoolState) (env : Env A) :
    ScoresInv cfg (genesis state env) :=
  ⟨rfl, rfl, Nat.zero_le _⟩

omit [DecidableEq A] in
/-- A call that leaves the scores and both caches alone keeps the invariant. -/
theorem ScoresInv.of_eq (h : ScoresInv cfg s) (hs : s'.scores = s.scores)
    (ht : s'.totalScore = s.totalScore) (hc : s'.scoreUserCount = s.scoreUserCount) :
    ScoresInv cfg s' := by
  obtain ⟨h₁, h₂, h₃⟩ := h
  exact ⟨by rw [ht, hs, h₁], by rw [hc, hs, h₂], by rw [hc]; exact h₃⟩

theorem ScoresInv.updateScore (h : ScoresInv cfg s) {who : A} {user : I} {score : Nat}
    (hs : updateScore cfg s who user score = .ok s') : ScoresInv cfg s' := by
  obtain ⟨account, -, ⟨p, t, hp, ht, rfl⟩ | ⟨t, c, hp, ht, hc, rfl⟩⟩ := updateScore_ok hs
  · -- an entry in place: its old score leaves the total and the new one enters
    obtain ⟨-, rfl⟩ := updateTotalScore_ok ht
    have hsum := StorageMap.valueSum_insert ScorePayment.score s.scores account
      { p with score := score }
    have hle := StorageMap.valueAt_le_valueSum ScorePayment.score s.scores account
    have hmem : account ∈ s.scores := AList.lookup_isSome.1 (by simp [hp])
    simp only [StorageMap.valueAt, hp, Option.map_some, Option.getD_some] at hsum hle
    refine ⟨?_, ?_, h.count_le⟩
    · show s.totalScore - p.score + score =
        StorageMap.valueSum ScorePayment.score (s.scores.insert account { p with score := score })
      rw [h.totalScore_eq]
      omega
    · show s.scoreUserCount = (s.scores.insert account { p with score := score }).entries.length
      rw [StorageMap.length_insert, if_pos hmem, h.count_eq, Nat.add_zero]
  · -- a new entry: counted once, below the bound `inc_score_user_count` checked
    obtain ⟨-, rfl⟩ := updateTotalScore_ok ht
    obtain ⟨hlt, rfl⟩ := incScoreUserCount_ok hc
    have hsum := StorageMap.valueSum_insert ScorePayment.score s.scores account
      (ScorePayment.fresh score)
    have hnot : account ∉ s.scores := by
      rw [← AList.lookup_isSome, hp]
      exact Bool.false_ne_true
    simp only [StorageMap.valueAt, hp, Option.map_none, Option.getD_none, Nat.add_zero] at hsum
    refine ⟨?_, ?_, hlt⟩
    · show s.totalScore - 0 + score =
        StorageMap.valueSum ScorePayment.score (s.scores.insert account (ScorePayment.fresh score))
      rw [h.totalScore_eq, hsum, Nat.sub_zero, Nat.add_comm]
      rfl
    · show s.scoreUserCount + 1 = (s.scores.insert account (ScorePayment.fresh score)).entries.length
      rw [StorageMap.length_insert, if_neg hnot, h.count_eq]

theorem ScoresInv.removeScore (h : ScoresInv cfg s) {who : A} {user : I}
    (hs : removeScore cfg s who user = .ok s') : ScoresInv cfg s' := by
  obtain ⟨account, p, t, c, hp, ht, hc, rfl⟩ := removeScore_ok hs
  obtain ⟨-, rfl⟩ := updateTotalScore_ok ht
  obtain ⟨hpos, rfl⟩ := decScoreUserCount_ok hc
  have hsum := StorageMap.valueSum_erase ScorePayment.score s.scores account
  have hlen := StorageMap.length_erase s.scores account
  have hmem : account ∈ s.scores := AList.lookup_isSome.1 (by simp [hp])
  simp only [StorageMap.valueAt, hp, Option.map_some, Option.getD_some] at hsum
  rw [if_pos hmem] at hlen
  refine ⟨?_, ?_, ?_⟩
  · show s.totalScore - p.score + 0 = StorageMap.valueSum ScorePayment.score (s.scores.erase account)
    rw [h.totalScore_eq]
    omega
  · show s.scoreUserCount - 1 = (s.scores.erase account).entries.length
    rw [h.count_eq]
    omega
  · show s.scoreUserCount - 1 ≤ _
    have := h.count_le
    omega

theorem ScoresInv.claim (h : ScoresInv cfg s) {who : A} {amount : Nat}
    (hs : claim s who amount = .ok s') : ScoresInv cfg s' := by
  obtain ⟨p, hp, -, rfl⟩ := claim_ok hs
  have hmem : who ∈ s.scores := AList.lookup_isSome.1 (by simp [hp])
  -- the claim rewrites the entry with its score unchanged
  have hsame : StorageMap.valueSum ScorePayment.score
      (s.scores.insert who { p with unpaidReward := p.unpaidReward - amount }) =
      StorageMap.valueSum ScorePayment.score s.scores := by
    apply StorageMap.valueSum_congr
    intro a
    by_cases ha : a = who
    · subst ha
      simp [hp]
    · rw [AList.lookup_insert_ne ha]
  refine ⟨?_, ?_, h.count_le⟩
  · rw [hsame]
    exact h.totalScore_eq
  · show s.scoreUserCount = _
    rw [StorageMap.length_insert, if_pos hmem, h.count_eq, Nat.add_zero]

/-- A round boundary keeps the invariant: the first loop by `clearLoop_totalScore`, the
    second because a credit changes no score. -/
theorem ScoresInv.onInitialize (h : ScoresInv cfg s) {now : UInt32}
    (hs : onInitialize cfg s now = .ok s') : ScoresInv cfg s' := by
  rcases onInitialize_ok hs with ⟨-, rfl⟩ | ⟨-, hpay⟩
  · exact h
  set s₁ := clearLoop (s.nextRound now) with hs₁
  have htotal : s₁.totalScore = StorageMap.valueSum ScorePayment.score s₁.scores :=
    clearLoop_totalScore h.totalScore_eq
  obtain ⟨hts, hcount⟩ := payLoop_fields hpay
  have hscores : StorageMap.valueSum ScorePayment.score s'.scores =
      StorageMap.valueSum ScorePayment.score s₁.scores := by
    apply StorageMap.valueSum_congr
    intro a
    rw [lookup_payLoop hpay]
    cases s₁.scores.lookup a with
    | none => rfl
    | some p =>
      simp only [Option.map_some, roundCredit]
      split <;> rfl
  refine ⟨by rw [hts, hscores, htotal], ?_, ?_⟩
  · rw [hcount, length_payLoop hpay, hs₁, clearLoop_scoreUserCount, length_clearLoop]
    exact h.count_eq
  · rw [hcount, hs₁, clearLoop_scoreUserCount]
    exact h.count_le

theorem step_scoresInv {c : Call A I} (h : ScoresInv cfg s) (hs : step cfg s c = .ok s') :
    ScoresInv cfg s' := by
  cases c with
  | setScoreFeeder a =>
    cases Reach.pure_eq_ok.1 hs
    exact h.of_eq rfl rfl rfl
  | startPool =>
    obtain ⟨-, index, rfl⟩ := startPool_ok (Reach.mapError_eq_ok.1 hs)
    exact h.of_eq rfl rfl rfl
  | stopPool =>
    cases stopPool_ok (Reach.mapError_eq_ok.1 hs)
    exact h.of_eq rfl rfl rfl
  | setRoundConfig config =>
    cases Reach.pure_eq_ok.1 hs
    exact h.of_eq rfl rfl rfl
  | updateScore who user score => exact h.updateScore (Reach.mapError_eq_ok.1 hs)
  | removeScore who user => exact h.removeScore (Reach.mapError_eq_ok.1 hs)
  | clearScore =>
    cases Reach.pure_eq_ok.1 hs
    exact ⟨rfl, rfl, Nat.zero_le _⟩
  | claim who amount => exact h.claim (Reach.mapError_eq_ok.1 hs)
  | claimAll who =>
    obtain ⟨p, -, hclaim⟩ := claimAll_ok (Reach.mapError_eq_ok.1 hs)
    exact h.claim hclaim
  | onInitialize now => exact h.onInitialize (Reach.mapError_eq_ok.1 hs)
  | environment env =>
    cases Reach.pure_eq_ok.1 hs
    exact h.of_eq rfl rfl rfl

theorem Reachable.scoresInv (h : Reachable cfg s) : ScoresInv cfg s :=
  Reach.Reachable.invariant (fun _ ⟨state, env, hs⟩ => hs ▸ ScoresInv.genesis state env)
    (fun _ _ _ hs hst => step_scoresInv hs hst) h

/-! ## 2. A round with nothing to share divides by zero -/

/-- The total score a round divides by is `0` when no entry is a staked user with a
    positive score: the first loop zeroes the others, and the cache follows it. -/
theorem clearLoop_totalScore_eq_zero (h : ScoresInv cfg s) (now : UInt32)
    (hzero : ∀ a p, s.scores.lookup a = some p → stakeOf s.env a ≠ 0 → p.score = 0) :
    (clearLoop (s.nextRound now)).totalScore = 0 := by
  rw [clearLoop_totalScore (s := s.nextRound now) h.totalScore_eq,
    StorageMap.valueSum_eq_zero_iff]
  intro a v hv
  rw [lookup_clearLoop] at hv
  obtain ⟨p, hp, rfl⟩ := Option.map_eq_some_iff.1 hv
  unfold zeroIfUnstaked
  split_ifs with hs
  · rfl
  · exact hzero a p hp hs

/-- `on_initialize` panics at a round boundary of a running pool whose scores are all
    held by unstaked users or are `0`, as after `update_score(user, 0)`: `TotalScore` is
    then `0` and the reward divides by it. -/
theorem onInitialize_divides_by_zero (h : Reachable cfg s) {now : UInt32}
    (hrun : s.state = .running) (hint : s.roundConfig.interval ≠ 0)
    (hmod : (now - s.round.startBlock) % s.roundConfig.interval = 0)
    (hne : s.scores.entries ≠ [])
    (hzero : ∀ a p, s.scores.lookup a = some p → stakeOf s.env a ≠ 0 → p.score = 0) :
    onInitialize cfg s now = .error .divisionByZero := by
  have hstart : StartsRound s now := ⟨hrun, isModulo_eq_ok_true hint hmod⟩
  rw [onInitialize_of_startsRound hstart]
  apply payLoop_zero_totalScore
  · -- the first loop keeps every entry
    intro hnil
    have hlen := length_clearLoop (s.nextRound now)
    rw [hnil] at hlen
    exact hne (List.eq_nil_of_length_eq_zero hlen.symm)
  · exact clearLoop_totalScore_eq_zero h.scoresInv now hzero

/-- The runtime's constants: a yearly reward of `0.5%` of `100_000_000 UNIT`, and
    `MaxScoreUserCount = 1_000_000`; an identity is taken to be an account. -/
def litentryConfig : Config Nat Nat := ⟨500000 * 10 ^ 18, 1000000, some⟩

/-- Every account has `10` staked out of `10`, and deposits succeed. -/
def stakedEnv : Env Nat := ⟨1, fun _ => some 10, 10, fun _ _ => true⟩

/-- The feeder sets a staked user's score to `0` in a running pool. -/
def zeroScoreRun : List (Call Nat Nat) :=
  [.setScoreFeeder 0, .startPool, .updateScore 0 1 0]

theorem zeroScoreRun_checks :
    Reach.runChecks (step litentryConfig) (genesis .stopped stakedEnv) zeroScoreRun
      (fun s => s.state == .running && s.roundConfig.interval != 0 &&
        (50401 - s.round.startBlock) % s.roundConfig.interval == 0 &&
        !s.scores.entries.isEmpty && s.scores.entries.all (fun e => e.2.score == 0)) = true := by
  decide

/-- A round boundary after `zeroScoreRun` panics. -/
theorem onInitialize_divides_by_zero_after_zero_score :
    ∃ s, Reachable litentryConfig s ∧
      onInitialize litentryConfig s 50401 = .error .divisionByZero := by
  have h₀ : IsGenesis (genesis .stopped stakedEnv) := ⟨_, _, rfl⟩
  obtain ⟨s, hs, hp⟩ := Reach.Reachable.of_runChecks h₀ zeroScoreRun_checks
  simp only [Bool.and_eq_true, beq_iff_eq, bne_iff_ne, ne_eq, Bool.not_eq_true',
    List.isEmpty_eq_false_iff, List.all_eq_true] at hp
  obtain ⟨⟨⟨⟨hrun, hint⟩, hmod⟩, hne⟩, hall⟩ := hp
  refine ⟨s, hs, onInitialize_divides_by_zero hs hrun hint hmod hne ?_⟩
  intro a p hap _
  exact hall ⟨a, p⟩ (AList.mem_lookup_iff.1 hap)

/-! ## 3. Rewards against a ledger of what was credited and claimed

`total_reward` and `unpaid_reward` are `u128` counters that `+=` updates without overflow
checks. A ghost `Ledger`, run beside the pallet, records for each account what the rounds
credited to its entry and what `claim` paid out of it since the entry was created. Both
counters agree with the ledger modulo `2 ^ 128` (`EntryOk`), and exactly while the
credits stay below `2 ^ 128` (`EntryOk.exact`). -/

/-- Per account: the rewards credited to its entry, and the amounts claimed from it. -/
structure Ledger (A : Type) where
  credited : A → Nat
  paid : A → Nat

/-- Nothing credited or claimed. -/
def Ledger.empty : Ledger A := ⟨fun _ => 0, fun _ => 0⟩

/-- The ledger after a successful call `c` took `s` to `s'`. -/
def Ledger.next (g : Ledger A) (s : State A) (c : Call A I) (s' : State A) : Ledger A :=
  match c with
  | .updateScore _ _ _ =>
    -- an entry the call creates starts with nothing credited or claimed
    ⟨fun a => if a ∈ s.scores then g.credited a else 0,
      fun a => if a ∈ s.scores then g.paid a else 0⟩
  | .claim who amount => ⟨g.credited, Function.update g.paid who (g.paid who + amount)⟩
  | .claimAll who =>
    ⟨g.credited, Function.update g.paid who
      (g.paid who + StorageMap.valueAt ScorePayment.unpaidReward s.scores who)⟩
  | .onInitialize now =>
    if StartsRound s now then
      ⟨fun a => g.credited a + StorageMap.valueAt ScorePayment.lastRoundReward s'.scores a,
        g.paid⟩
    else g
  | _ => g

/-- A call of the pallet, with the ledger kept beside it. -/
def ledgerStep (cfg : Config A I) : State A × Ledger A → Call A I →
    Except Failure (State A × Ledger A) :=
  Reach.withGhost Ledger.next (step cfg)

/-- The states a run can be in, with the ledger of that run. -/
def LedgerReachable (cfg : Config A I) : State A × Ledger A → Prop :=
  Reach.Reachable (Reach.ghostInit IsGenesis Ledger.empty) (ledgerStep cfg)

/-- The two counters of an entry against what was credited and claimed: both in
    `u128`, the first holding every credit and the second what was not claimed. -/
structure EntryOk (credited paid : Nat) (p : ScorePayment) : Prop where
  paid_le : paid ≤ credited
  total_eq : p.totalReward = credited % 2 ^ 128
  unpaid_eq : p.unpaidReward = (credited - paid) % 2 ^ 128

theorem EntryOk.fresh (score : Nat) : EntryOk 0 0 (ScorePayment.fresh score) :=
  ⟨Nat.le_refl 0, rfl, rfl⟩

/-- A credit of `r` adds `r` to both counters, wrapping. -/
theorem EntryOk.credit {c d r : Nat} {p : ScorePayment} (h : EntryOk c d p) :
    EntryOk (c + r) d (p.credit r) := by
  obtain ⟨hle, htotal, hunpaid⟩ := h
  refine ⟨Nat.le_add_right_of_le hle, ?_, ?_⟩
  · show Word.wrappingAdd 128 p.totalReward r = _
    rw [htotal, Word.wrappingAdd_mod]
    rfl
  · show Word.wrappingAdd 128 p.unpaidReward r = _
    rw [hunpaid, Word.wrappingAdd_mod, Word.wrappingAdd, Nat.sub_add_comm hle]

/-- A claim of at most the unpaid reward moves it from unpaid to claimed. -/
theorem EntryOk.claim {c d amount : Nat} {p : ScorePayment} (h : EntryOk c d p)
    (hle : amount ≤ p.unpaidReward) :
    EntryOk c (d + amount) { p with unpaidReward := p.unpaidReward - amount } := by
  obtain ⟨hpaid, htotal, hunpaid⟩ := h
  -- the unpaid reward is a remainder, so it bounds what is left unwrapped
  have hmod : amount ≤ (c - d) % 2 ^ 128 := hunpaid ▸ hle
  have hleft : amount ≤ c - d := Nat.le_trans hmod (Nat.mod_le _ _)
  refine ⟨by omega, htotal, ?_⟩
  show p.unpaidReward - amount = _
  rw [hunpaid, Nat.mod_sub_of_le hmod, Nat.sub_sub]

/-- A score change keeps the counters. -/
theorem EntryOk.withScore {c d : Nat} {p : ScorePayment} (h : EntryOk c d p) (score : Nat) :
    EntryOk c d { p with score := score } :=
  ⟨h.paid_le, h.total_eq, h.unpaid_eq⟩

omit [DecidableEq A] in
theorem EntryOk.zeroIfUnstaked {c d : Nat} {p : ScorePayment} (h : EntryOk c d p)
    (stake : A → Nat) (a : A) : EntryOk c d (zeroIfUnstaked stake a p) := by
  unfold ScoreStaking.zeroIfUnstaked
  split_ifs
  · exact h.withScore 0
  · exact h

/-- While the credits fit in `u128`, `total_reward - unpaid_reward` is what was claimed. -/
theorem EntryOk.exact {c d : Nat} {p : ScorePayment} (h : EntryOk c d p) (hc : c < 2 ^ 128) :
    p.unpaidReward ≤ p.totalReward ∧ p.totalReward - p.unpaidReward = d := by
  obtain ⟨hle, htotal, hunpaid⟩ := h
  rw [Nat.mod_eq_of_lt hc] at htotal
  rw [Nat.mod_eq_of_lt (by omega)] at hunpaid
  omega

/-- Every entry agrees with the ledger. -/
def LedgerInv (s : State A) (g : Ledger A) : Prop :=
  ∀ a p, s.scores.lookup a = some p → EntryOk (g.credited a) (g.paid a) p

variable {g : Ledger A}

theorem LedgerInv.of_scores (h : LedgerInv s g) (hs : s'.scores = s.scores) : LedgerInv s' g := by
  intro a p hp
  rw [hs] at hp
  exact h a p hp

/-- An entry the call creates starts the ledger afresh; the others keep theirs. -/
theorem LedgerInv.updateScore (h : LedgerInv s g) {who : A} {user : I} {score : Nat}
    (hs : updateScore cfg s who user score = .ok s') :
    LedgerInv s' (g.next s (.updateScore who user score) s') := by
  -- what the ledger of the call holds at each key, stated for the entries before the call
  let P (a : A) (p : ScorePayment) : Prop :=
    EntryOk (if a ∈ s.scores then g.credited a else 0) (if a ∈ s.scores then g.paid a else 0) p
  have hold : ∀ a p, s.scores.lookup a = some p → P a p := by
    intro a p hp
    have ha : a ∈ s.scores := AList.lookup_isSome.1 (by rw [hp]; rfl)
    show EntryOk (if a ∈ s.scores then _ else 0) (if a ∈ s.scores then _ else 0) p
    rw [if_pos ha, if_pos ha]
    exact h a p hp
  intro a w hw
  obtain ⟨account, -, ⟨p, t, hp, -, rfl⟩ | ⟨t, c, hp, -, -, rfl⟩⟩ := updateScore_ok hs
  · -- in place: the entry keeps its counters, so its old ledger still fits
    exact StorageMap.forall_lookup_insert (P := P) ((hold account p hp).withScore score)
      (fun a w hw _ => hold a w hw) a w hw
  · -- created: nothing credited or claimed yet
    have hnot : account ∉ s.scores := by
      rw [← AList.lookup_isSome, hp]
      exact Bool.false_ne_true
    have hfresh : P account (ScorePayment.fresh score) := by
      show EntryOk (if account ∈ s.scores then _ else 0) (if account ∈ s.scores then _ else 0) _
      rw [if_neg hnot, if_neg hnot]
      exact EntryOk.fresh score
    exact StorageMap.forall_lookup_insert (P := P) hfresh (fun a w hw _ => hold a w hw) a w hw

theorem LedgerInv.removeScore (h : LedgerInv s g) {who : A} {user : I}
    (hs : removeScore cfg s who user = .ok s') : LedgerInv s' g := by
  obtain ⟨account, p, t, c, -, -, -, rfl⟩ := removeScore_ok hs
  exact StorageMap.forall_lookup_erase (fun a w hw _ => h a w hw)

/-- A claim moves the amount from the entry's unpaid reward to the claimed total. -/
theorem LedgerInv.claim (h : LedgerInv s g) {who : A} {amount : Nat}
    (hs : claim s who amount = .ok s') :
    LedgerInv s' ⟨g.credited, Function.update g.paid who (g.paid who + amount)⟩ := by
  obtain ⟨p, hp, hle, rfl⟩ := claim_ok hs
  refine StorageMap.forall_lookup_insert ?_ (fun a w hw ha => ?_)
  · show EntryOk (g.credited who) (Function.update g.paid who (g.paid who + amount) who) _
    rw [Function.update_self]
    exact (h who p hp).claim hle
  · show EntryOk (g.credited a) (Function.update g.paid who (g.paid who + amount) a) w
    rw [Function.update_of_ne ha]
    exact h a w hw

theorem LedgerInv.claimAll (h : LedgerInv s g) {who : A} (hs : claimAll s who = .ok s') :
    LedgerInv s' (g.next s (.claimAll who : Call A I) s') := by
  obtain ⟨p, hp, hclaim⟩ := claimAll_ok hs
  -- `claim_all` is `claim` of the whole unpaid reward
  have hunpaid : StorageMap.valueAt ScorePayment.unpaidReward s.scores who = p.unpaidReward := by
    simp [StorageMap.valueAt, hp]
  show LedgerInv s' ⟨g.credited, Function.update g.paid who
    (g.paid who + StorageMap.valueAt ScorePayment.unpaidReward s.scores who)⟩
  rw [hunpaid]
  exact h.claim hclaim

/-- A round credits every entry the reward it computed, which it also records as
    `last_round_reward`: the ledger adds that. -/
theorem LedgerInv.onInitialize (h : LedgerInv s g) {now : UInt32}
    (hs : onInitialize cfg s now = .ok s') :
    LedgerInv s' (g.next s (.onInitialize now : Call A I) s') := by
  rcases onInitialize_ok hs with ⟨hno, hss⟩ | ⟨hstart, hpay⟩
  · have hg : g.next s (.onInitialize now : Call A I) s' = g := if_neg hno
    rw [hg, hss]
    exact h
  show LedgerInv s' (if StartsRound s now then _ else g)
  rw [if_pos hstart]
  intro a p' hp'
  -- the entry was there before both loops: zeroed or not, then credited
  rw [lookup_payLoop hpay, lookup_clearLoop] at hp'
  obtain ⟨p₁, hp₁, -⟩ := Option.map_eq_some_iff.1 hp'
  obtain ⟨p₀, hp₀, rfl⟩ := Option.map_eq_some_iff.1 hp₁
  have hlookup₁ : (clearLoop (s.nextRound now)).scores.lookup a =
      some (zeroIfUnstaked (stakeOf s.env) a p₀) := by
    rw [lookup_clearLoop]
    exact congrArg (Option.map _) hp₀
  obtain ⟨r, hr⟩ := payLoop_credits hpay hlookup₁
  have hp'r : p' = (zeroIfUnstaked (stakeOf s.env) a p₀).credit r :=
    Option.some.inj (hp'.symm.trans (by rw [← hr, lookup_payLoop hpay, lookup_clearLoop]))
  have hlast : StorageMap.valueAt ScorePayment.lastRoundReward s'.scores a = r := by
    simp [StorageMap.valueAt, hr, ScorePayment.credit]
  show EntryOk (g.credited a + StorageMap.valueAt ScorePayment.lastRoundReward s'.scores a)
    (g.paid a) p'
  rw [hlast, hp'r]
  exact ((h a p₀ hp₀).zeroIfUnstaked _ a).credit

theorem step_ledgerInv {c : Call A I} (h : LedgerInv s g) (hs : step cfg s c = .ok s') :
    LedgerInv s' (g.next s c s') := by
  cases c with
  | setScoreFeeder a =>
    cases Reach.pure_eq_ok.1 hs
    exact h.of_scores rfl
  | startPool =>
    obtain ⟨-, index, rfl⟩ := startPool_ok (Reach.mapError_eq_ok.1 hs)
    exact h.of_scores rfl
  | stopPool =>
    cases stopPool_ok (Reach.mapError_eq_ok.1 hs)
    exact h.of_scores rfl
  | setRoundConfig config =>
    cases Reach.pure_eq_ok.1 hs
    exact h.of_scores rfl
  | updateScore who user score => exact h.updateScore (Reach.mapError_eq_ok.1 hs)
  | removeScore who user => exact h.removeScore (Reach.mapError_eq_ok.1 hs)
  | clearScore =>
    cases Reach.pure_eq_ok.1 hs
    intro a p hp
    exact absurd hp (by simp [clearScore])
  | claim who amount => exact h.claim (Reach.mapError_eq_ok.1 hs)
  | claimAll who => exact h.claimAll (Reach.mapError_eq_ok.1 hs)
  | onInitialize now => exact h.onInitialize (Reach.mapError_eq_ok.1 hs)
  | environment env =>
    cases Reach.pure_eq_ok.1 hs
    exact h.of_scores rfl

/-- A ledger run is a run of the pallet. -/
theorem LedgerReachable.reachable {sg : State A × Ledger A} (h : LedgerReachable cfg sg) :
    Reachable cfg sg.1 :=
  Reach.Reachable.of_withGhost h

/-- Every run of the pallet has its ledger. -/
theorem Reachable.exists_ledger (h : Reachable cfg s) : ∃ g, LedgerReachable cfg (s, g) :=
  Reach.Reachable.withGhost h

theorem LedgerReachable.ledgerInv {sg : State A × Ledger A} (h : LedgerReachable cfg sg) :
    LedgerInv sg.1 sg.2 := by
  induction h with
  | init hsg =>
    obtain ⟨⟨state, env, hs⟩, -⟩ := hsg
    intro a p hp
    rw [hs] at hp
    exact absurd hp (by simp [genesis])
  | step c _ hst ih =>
    obtain ⟨s', hs', rfl⟩ := Reach.withGhost_eq_ok.1 hst
    exact step_ledgerInv ih hs'

/-- In every run, `TotalScore` and `ScoreUserCount` are exact, and each entry's
    `total_reward` is what the rounds credited it and `unpaid_reward` that less what
    `claim` paid out of it, both modulo `2 ^ 128`; while the credits stay below `2 ^ 128`,
    `unpaid_reward ≤ total_reward` and the difference is exactly what was claimed. -/
theorem scoreBookkeeping_mod_u128 {g : Ledger A} (h : LedgerReachable cfg (s, g)) :
    ScoresInv cfg s ∧ ∀ a p, s.scores.lookup a = some p →
      g.paid a ≤ g.credited a ∧ p.totalReward = g.credited a % 2 ^ 128 ∧
        p.unpaidReward = (g.credited a - g.paid a) % 2 ^ 128 ∧
        (g.credited a < 2 ^ 128 →
          p.unpaidReward ≤ p.totalReward ∧ p.totalReward - p.unpaidReward = g.paid a) := by
  refine ⟨h.reachable.scoresInv, fun a p hp => ?_⟩
  have hentry := h.ledgerInv a p hp
  exact ⟨hentry.paid_le, hentry.total_eq, hentry.unpaid_eq, hentry.exact⟩

/-- A runtime whose yearly reward makes a round of `2 ^ 21` blocks worth `2 ^ 127`. -/
def wrapConfig : Config Nat Nat := ⟨2 ^ 106 * years, 1000000, some⟩

/-- Every account has `1` staked out of `1`, and deposits succeed. -/
def unitStakeEnv : Env Nat := ⟨1, fun _ => some 1, 1, fun _ _ => true⟩

/-- User `1` is credited `2 ^ 127`, claims `1`, and is credited `2 ^ 127` again. -/
def wrapRun : List (Call Nat Nat) :=
  [.setScoreFeeder 0, .setRoundConfig ⟨2097152, 1, 1⟩, .startPool, .updateScore 0 1 1,
    .onInitialize 2097153, .claim 1 1, .onInitialize 4194305]

theorem wrapRun_checks :
    Reach.runChecks (ledgerStep wrapConfig) (genesis .stopped unitStakeEnv, Ledger.empty) wrapRun
      (fun sg => sg.2.credited 1 == 2 ^ 128 && sg.2.paid 1 == 1 &&
        sg.1.scores.lookup 1 == some ⟨1, 0, 2 ^ 127, 2 ^ 128 - 1⟩) = true := by
  decide

theorem wrapRun_reachable : ∃ sg : State Nat × Ledger Nat, LedgerReachable wrapConfig sg ∧
    sg.2.credited 1 = 2 ^ 128 ∧ sg.2.paid 1 = 1 ∧
    sg.1.scores.lookup 1 = some ⟨1, 0, 2 ^ 127, 2 ^ 128 - 1⟩ := by
  have h₀ : Reach.ghostInit IsGenesis (Ledger.empty : Ledger Nat)
      (genesis .stopped unitStakeEnv, Ledger.empty) :=
    ⟨⟨_, _, rfl⟩, rfl⟩
  obtain ⟨sg, hsg, hp⟩ := Reach.Reachable.of_runChecks h₀ wrapRun_checks
  simp only [Bool.and_eq_true, beq_iff_eq] at hp
  exact ⟨sg, hsg, hp.1.1, hp.1.2, hp.2⟩

/-- After `wrapRun` the entry's `total_reward` has wrapped to `0` while its
    `unpaid_reward` is `2 ^ 128 - 1`. -/
theorem unpaidReward_exceeds_totalReward : ∃ s, Reachable wrapConfig s ∧
    ∃ p, s.scores.lookup 1 = some p ∧ p.totalReward < p.unpaidReward := by
  obtain ⟨sg, hsg, -, -, hp⟩ := wrapRun_reachable
  exact ⟨sg.1, LedgerReachable.reachable hsg, _, hp, by decide⟩

theorem scoreBookkeeping_mod_u128_after_wrap : ∃ s g, LedgerReachable wrapConfig (s, g) ∧
    ∃ p, s.scores.lookup 1 = some p ∧ g.credited 1 = 2 ^ 128 ∧
      p.totalReward = g.credited 1 % 2 ^ 128 ∧
      p.unpaidReward = (g.credited 1 - g.paid 1) % 2 ^ 128 := by
  obtain ⟨⟨s, g⟩, hsg, hc, -, hp⟩ := wrapRun_reachable
  have hbook := (scoreBookkeeping_mod_u128 hsg).2 1 _ hp
  exact ⟨s, g, hsg, _, hp, hc, hbook.2.1, hbook.2.2.1⟩

end ScoreStaking
end Litentry
