import Litentry.Staking.Pool

/-!
# Every call keeps `CandidatePool` the copy of the metadata

The extrinsics of `lib.rs`, `delegation_requests.rs` and `auto_compound.rs`, and the
three transitions from outside, each keep `PoolInv`. They fall in three kinds:

* calls that write neither `CandidateInfo` nor `CandidatePool` (`PoolFrame`): the
  requests, the auto-compounding settings, the whitelist, the round, the currency;
* calls that run candidate methods on one candidate and write its metadata back
  (`PoolInv.writeBack`, from `Follows`): delegating, bonding more or less, the
  execution of requests, payouts;
* the changes of status, which `insert` or `remove` the candidate's bond by hand.

`PoolInv` holds at genesis, so every reachable state has the pool collator
selection expects (`candidatePool_reflects_active`).
-/

set_option autoImplicit false

namespace Litentry
namespace Staking

variable {A C : Type}

open CandidateMetadata AutoCompoundDelegations

/-! ## 1. The three kinds of step -/

/-- A step that writes neither `CandidateInfo` nor `CandidatePool`. -/
structure PoolFrame (s s' : State A C) : Prop where
  candidateInfo : s'.candidateInfo = s.candidateInfo
  candidatePool : s'.candidatePool = s.candidatePool

theorem PoolFrame.refl (s : State A C) : PoolFrame s s := ⟨rfl, rfl⟩

theorem PoolFrame.trans {s₁ s₂ s₃ : State A C} (h₁ : PoolFrame s₁ s₂) (h₂ : PoolFrame s₂ s₃) :
    PoolFrame s₁ s₃ :=
  ⟨h₂.candidateInfo.trans h₁.candidateInfo, h₂.candidatePool.trans h₁.candidatePool⟩

variable [LinearOrder A]

theorem PoolFrame.removeAutoCompound (s : State A C) (candidate delegator : A) :
    PoolFrame s (removeAutoCompound s candidate delegator) := ⟨by simp, by simp⟩

theorem State.poolAmounts_of_candidateInfo {s s' : State A C} {c : A}
    {o : Option CandidateMetadata} (hi : s'.candidateInfo = Function.update s.candidateInfo c o) :
    s'.poolAmounts = Function.update s.poolAmounts c (o.bind poolAmount) := by
  funext x
  by_cases hx : x = c
  · subst hx
    simp [State.poolAmounts, hi]
  · simp [State.poolAmounts, hi, hx]

namespace PoolInv

variable {s s₁ s' : State A C}

theorem of_frame (hs : PoolInv s) (h : PoolFrame s s') : PoolInv s' := by
  unfold PoolInv State.poolAmounts
  rw [h.candidateInfo, h.candidatePool]
  exact hs

/-- A write of `o` to `CandidateInfo(c)`, with a pool holding the entry `o` calls for. -/
theorem of_update {c : A} {o : Option CandidateMetadata}
    (hi : s'.candidateInfo = Function.update s.candidateInfo c o)
    (hp : PoolMatches (Function.update s.poolAmounts c (o.bind poolAmount)) s'.candidatePool) :
    PoolInv s' := by
  unfold PoolInv
  rwa [State.poolAmounts_of_candidateInfo hi]

/-- **Write-back.** A method run on `c` from its stored metadata, and the write of its
    result to `CandidateInfo`, keep the pool the copy. -/
theorem writeBack (hs : PoolInv s) {c : A} {m m' : CandidateMetadata}
    (hm : s.candidateInfo c = some m) (hf : Follows c s m s₁ m')
    (hi : s'.candidateInfo = Function.update s₁.candidateInfo c (some m'))
    (hp : s'.candidatePool = s₁.candidatePool) : PoolInv s' := by
  -- the pool already holds `m`'s entry for `c`
  have hs' : PoolMatches (Function.update s.poolAmounts c m.poolAmount) s.candidatePool := by
    have hc : s.poolAmounts c = m.poolAmount := by simp [State.poolAmounts, hm]
    rwa [← hc, Function.update_eq_self]
  have h₁ : s₁.poolAmounts = s.poolAmounts := by
    unfold State.poolAmounts
    rw [hf.candidateInfo]
  refine of_update hi ?_
  rw [h₁, hp]
  exact hf.pool _ hs'

/-- A change of status out of `Active`: the candidate's bond `remove`d, and metadata
    written that calls for no entry. -/
theorem of_remove (hs : PoolInv s) {c : A} {m' : CandidateMetadata}
    (hi : s'.candidateInfo = Function.update s.candidateInfo c (some m'))
    (hm' : m'.poolAmount = none)
    (hp : s'.candidatePool = (SortedVec.removeKey Bond.owner c s.candidatePool).2) :
    PoolInv s' := by
  refine of_update hi ?_
  rw [Option.bind_some, hm', hp]
  exact hs.removeKey c

/-- A change of status into `Active`: the candidate's bond `insert`ed with its counted
    total, and active metadata written. -/
theorem of_insert (hs : PoolInv s) {c : A} {m' : CandidateMetadata}
    (hi : s'.candidateInfo = Function.update s.candidateInfo c (some m'))
    (ha : m'.isActive = true)
    (hins : (SortedVec.insertKey Bond.owner ⟨c, m'.totalCounted⟩ s.candidatePool).1 = true)
    (hp : s'.candidatePool = (SortedVec.insertKey Bond.owner ⟨c, m'.totalCounted⟩ s.candidatePool).2) :
    PoolInv s' := by
  refine of_update hi ?_
  rw [Option.bind_some, poolAmount_of_isActive ha, hp]
  exact hs.insertKey hins

end PoolInv

/-! ## 2. The candidate calls -/

section Calls

variable {cfg : Config} {cur : Currency A C} {s s' : State A C}

theorem joinCandidates_poolInv {acc : A} {bond : Nat} (hs : PoolInv s)
    (h : joinCandidates cfg cur s acc bond = .ok s') : PoolInv s' := by
  unfold joinCandidates at h
  simp only [bind, Except.bind, throw, throwThe, MonadExceptOf.throw, pure, Except.pure,
    Reach.ite_error_eq_ok, Bool.not_eq_true', Bool.not_eq_false] at h
  obtain ⟨-, -, -, -, hins, -, h⟩ := h
  split at h
  · cases h
    exact hs.of_insert rfl rfl hins rfl
  · cases h

theorem scheduleLeave_poolAmount {round : Nat} {m m' : CandidateMetadata} {r : Nat × Nat}
    (h : m.scheduleLeave cfg round = .ok (r, m')) : m'.poolAmount = none := by
  unfold CandidateMetadata.scheduleLeave at h
  simp only [bind, Except.bind, throw, throwThe, MonadExceptOf.throw, pure, Except.pure,
    Reach.ite_error_eq_ok] at h
  obtain ⟨-, h⟩ := h
  cases h
  rfl

theorem scheduleLeaveCandidates_poolInv {collator : A} (hs : PoolInv s)
    (h : scheduleLeaveCandidates cfg s collator = .ok s') : PoolInv s' := by
  unfold scheduleLeaveCandidates at h
  dsimp only at h
  split at h
  · obtain ⟨⟨r, m'⟩, hl, h⟩ := Reach.bind_eq_ok.1 h
    rw [Reach.pure_eq_ok] at h
    subst h
    -- the candidate leaves the pool, whether or not it was in it
    split_ifs with hrem
    · exact hs.of_remove rfl (scheduleLeave_poolAmount hl) rfl
    · exact hs.of_remove rfl (scheduleLeave_poolAmount hl)
        (SortedVec.removeKey_snd_of_fst_eq_false (by simpa using hrem)).symm
  · cases h

theorem canLeave_poolAmount {round : Nat} {m : CandidateMetadata} {u : Unit}
    (h : m.canLeave round = .ok u) : m.poolAmount = none := by
  unfold CandidateMetadata.canLeave at h
  split at h
  · rename_i w hw
    simp [poolAmount, isActive, hw]
  · cases h

theorem returnStake_frame {candidate : A} {b : Bond A}
    (h : returnStake cur candidate s b = .ok s') : PoolFrame s s' := by
  unfold returnStake at h
  dsimp only at h
  split at h
  · split at h
    · split_ifs at h <;> (cases h; exact ⟨by simp, by simp⟩)
    · cases h
      exact ⟨rfl, rfl⟩
  · cases h

theorem executeLeaveCandidates_poolInv {candidate : A} (hs : PoolInv s)
    (h : executeLeaveCandidates cur s candidate = .ok s') : PoolInv s' := by
  unfold executeLeaveCandidates at h
  dsimp only at h
  split at h
  · rename_i m hm
    obtain ⟨u, hu, h⟩ := Reach.bind_eq_ok.1 h
    -- a leaving candidate has no entry in the pool
    have hc : s.poolAmounts candidate = none := by
      simp [State.poolAmounts, hm, canLeave_poolAmount hu]
    -- returning the stake of every delegation writes neither the pool nor the metadata
    have hloop : ∀ {t t' : State A C} {l : List (Bond A)},
        l.foldlM (returnStake cur candidate) t = .ok t' → PoolFrame s t → PoolFrame s t' :=
      fun hl ht => Reach.foldlM_invariant (I := fun t => PoolFrame s t)
        (fun _ _ _ ht hb => ht.trans (returnStake_frame hb)) ht hl
    split at h
    · obtain ⟨s₁, h₁, h⟩ := Reach.bind_eq_ok.1 h
      have hf₁ := hloop h₁ ⟨rfl, rfl⟩
      split at h
      · obtain ⟨s₂, h₂, h⟩ := Reach.bind_eq_ok.1 h
        have hf₂ := hloop h₂ ⟨hf₁.candidateInfo, hf₁.candidatePool⟩
        rw [Reach.pure_eq_ok] at h
        subst h
        refine PoolInv.of_update (s := s) (c := candidate) (o := none) ?_ ?_
        · rw [← hf₂.candidateInfo]
        · rw [Option.bind_none, ← hc, Function.update_eq_self]
          exact hf₂.candidatePool ▸ hs
      · cases h
    · cases h
  · cases h

theorem cancelLeaveCandidates_poolInv {collator : A} (hs : PoolInv s)
    (h : cancelLeaveCandidates s collator = .ok s') : PoolInv s' := by
  unfold cancelLeaveCandidates at h
  split at h
  · simp only [bind, Except.bind, throw, throwThe, MonadExceptOf.throw, pure, Except.pure,
      Reach.ite_error_eq_ok, Bool.not_eq_true', Bool.not_eq_false] at h
    obtain ⟨-, hins, h⟩ := h
    cases h
    exact hs.of_insert rfl rfl hins rfl
  · cases h

theorem goOffline_poolInv {collator : A} (hs : PoolInv s)
    (h : goOffline s collator = .ok s') : PoolInv s' := by
  unfold goOffline at h
  split at h
  · simp only [bind, Except.bind, throw, throwThe, MonadExceptOf.throw, pure, Except.pure,
      Reach.ite_error_eq_ok, Bool.not_eq_true', Bool.not_eq_false] at h
    obtain ⟨-, h⟩ := h
    cases h
    split_ifs with hrem
    · exact hs.of_remove rfl rfl rfl
    · exact hs.of_remove rfl rfl
        (SortedVec.removeKey_snd_of_fst_eq_false (by simpa using hrem)).symm
  · cases h

theorem goOnline_poolInv {collator : A} (hs : PoolInv s)
    (h : goOnline s collator = .ok s') : PoolInv s' := by
  unfold goOnline at h
  split at h
  · simp only [bind, Except.bind, throw, throwThe, MonadExceptOf.throw, pure, Except.pure,
      Reach.ite_error_eq_ok, Bool.not_eq_true', Bool.not_eq_false] at h
    obtain ⟨-, -, hins, h⟩ := h
    cases h
    exact hs.of_insert rfl rfl hins rfl
  · cases h

omit [LinearOrder A] in
theorem bondMore_ok {m m' : CandidateMetadata} {who : A} {more : Nat} {s₁ : State A C}
    (h : m.bondMore cur s who more = .ok (m', s₁)) :
    PoolFrame s s₁ ∧ m'.isActive = m.isActive := by
  unfold CandidateMetadata.bondMore at h
  simp only [bind, Except.bind, throw, throwThe, MonadExceptOf.throw, pure, Except.pure,
    Reach.ite_error_eq_ok] at h
  obtain ⟨-, h⟩ := h
  split at h
  · cases h
    exact ⟨⟨rfl, rfl⟩, rfl⟩
  · cases h

theorem candidateBondMore_poolInv {collator : A} {more : Nat} (hs : PoolInv s)
    (h : candidateBondMore cur s collator more = .ok s') : PoolInv s' := by
  unfold candidateBondMore at h
  split at h
  · rename_i m hm
    obtain ⟨⟨m', s₁⟩, hb, h⟩ := Reach.bind_eq_ok.1 h
    obtain ⟨hf, ha⟩ := bondMore_ok hb
    dsimp only at h
    split_ifs at h with hact
    · -- active: the pool entry follows the new counted total
      rw [Reach.pure_eq_ok] at h
      subst h
      exact hs.writeBack hm
        (Follows.updateActive hf.candidateInfo hf.candidatePool (poolAmount_of_isActive hact))
        rfl rfl
    · rw [Reach.pure_eq_ok] at h
      subst h
      exact hs.writeBack hm (Follows.of_eq hf.candidateInfo hf.candidatePool
        (poolAmount_eq_of ha fun h => absurd h hact)) rfl rfl
  · cases h

theorem scheduleCandidateBondLess_poolInv {collator : A} {less : Nat} (hs : PoolInv s)
    (h : scheduleCandidateBondLess cfg s collator less = .ok s') : PoolInv s' := by
  unfold scheduleCandidateBondLess at h
  split at h
  · rename_i m hm
    obtain ⟨⟨w, m'⟩, hb, h⟩ := Reach.bind_eq_ok.1 h
    unfold CandidateMetadata.scheduleBondLess at hb
    simp only [bind, Except.bind, throw, throwThe, MonadExceptOf.throw, pure, Except.pure,
      Reach.ite_error_eq_ok] at hb
    obtain ⟨-, -, -, hb⟩ := hb
    cases hb
    rw [Reach.pure_eq_ok] at h
    subst h
    refine hs.writeBack hm (Follows.of_eq rfl rfl ?_) rfl rfl
    rfl
  · cases h

theorem executeCandidateBondLess_poolInv {candidate : A} (hs : PoolInv s)
    (h : executeCandidateBondLess cur s candidate = .ok s') : PoolInv s' := by
  unfold executeCandidateBondLess at h
  split at h
  · rename_i m hm
    obtain ⟨⟨m', s₁⟩, hb, h⟩ := Reach.bind_eq_ok.1 h
    rw [Reach.pure_eq_ok] at h
    subst h
    exact hs.writeBack hm (executeBondLess_follows hb) rfl rfl
  · cases h

theorem cancelCandidateBondLess_poolInv {collator : A} (hs : PoolInv s)
    (h : cancelCandidateBondLess s collator = .ok s') : PoolInv s' := by
  unfold cancelCandidateBondLess at h
  split at h
  · rename_i m hm
    obtain ⟨m', hb, h⟩ := Reach.bind_eq_ok.1 h
    unfold CandidateMetadata.cancelBondLess at hb
    simp only [bind, Except.bind, throw, throwThe, MonadExceptOf.throw, pure, Except.pure,
      Reach.ite_error_eq_ok] at hb
    obtain ⟨-, hb⟩ := hb
    cases hb
    rw [Reach.pure_eq_ok] at h
    subst h
    refine hs.writeBack hm (Follows.of_eq rfl rfl ?_) rfl rfl
    rfl
  · cases h

/-! ## 3. The delegator calls -/

theorem delegatorLeavesCandidate_poolInv {candidate delegator : A} {amount : Nat}
    (hs : PoolInv s) (h : delegatorLeavesCandidate cfg cur s candidate delegator amount = .ok s') :
    PoolInv s' := by
  unfold delegatorLeavesCandidate at h
  split at h
  · rename_i m hm
    obtain ⟨⟨same, m', s₁⟩, hr, h⟩ := Reach.bind_eq_ok.1 h
    rw [Reach.pure_eq_ok] at h
    subst h
    exact hs.writeBack hm (rmDelegationIfExists_follows hr) rfl rfl
  · cases h

theorem delegateWithAutoCompound_poolInv {candidate delegator : A} {amount : Nat}
    {autoCompound : Percent} (hs : PoolInv s)
    (h : delegateWithAutoCompound cfg cur s candidate delegator amount autoCompound = .ok s') :
    PoolInv s' := by
  unfold delegateWithAutoCompound at h
  simp only [bind, Except.bind, throw, throwThe, MonadExceptOf.throw, pure, Except.pure,
    Reach.ite_error_eq_ok] at h
  obtain ⟨-, h⟩ := h
  -- a later delegation and a first one check different things, and write the
  -- auto-compounding vector or not; the candidate side is the same in every case
  split at h <;> split_ifs at h <;>
  · split at h
    · rename_i m hm
      split at h
      · cases h
      · rename_i v hv
        split_ifs at h
        split at h
        · cases h
          exact hs.writeBack hm (addDelegation_follows hv) rfl rfl
        · cases h
    · cases h

theorem reserveIncrease_candidateInfo {self : Delegator A} {candidate : A} {amount : Nat}
    {r : Nat × Nat × CandidateMetadata × C}
    (h : Delegator.reserveIncrease cur s self candidate amount = .ok r) :
    s.candidateInfo candidate = some r.2.2.1 := by
  unfold Delegator.reserveIncrease at h
  split at h
  · split at h
    · split at h
      · split at h
        · cases h
          assumption
        · cases h
      · cases h
    · cases h
  · cases h

theorem delegatorIncreaseDelegation_poolInv {self : Delegator A} {candidate : A} {amount : Nat}
    {inTop : Bool} (hs : PoolInv s)
    (h : Delegator.increaseDelegation cfg cur s self candidate amount = .ok (inTop, s')) :
    PoolInv s' := by
  unfold Delegator.increaseDelegation at h
  obtain ⟨⟨i, before, m, c⟩, hr, h⟩ := Reach.bind_eq_ok.1 h
  have hm := reserveIncrease_candidateInfo hr
  dsimp only at h
  obtain ⟨⟨inTop', m', s₂⟩, hi, h⟩ := Reach.bind_eq_ok.1 h
  have hf : Follows candidate s m s₂ m' :=
    (Follows.of_eq rfl rfl rfl : Follows candidate s m { s with currency := c } m).trans
      (increaseDelegation_follows hi)
  rw [Reach.pure_eq_ok] at h
  obtain ⟨-, rfl⟩ := Prod.mk.inj h
  -- the caller refreshes the pool entry a second time; it is the same entry
  split_ifs with hact
  · exact hs.writeBack hm (hf.trans (Follows.updateActive rfl rfl (poolAmount_of_isActive hact.1)))
      rfl rfl
  · exact hs.writeBack hm hf rfl rfl

theorem delegationBondMoreWithoutEvent_poolInv {delegator candidate : A} {more : Nat}
    {r : Bool × State A C} (hs : PoolInv s)
    (h : delegationBondMoreWithoutEvent cfg cur s delegator candidate more = .ok r) :
    PoolInv r.2 := by
  unfold delegationBondMoreWithoutEvent at h
  simp only [bind, Except.bind, throw, throwThe, MonadExceptOf.throw, Reach.ite_error_eq_ok] at h
  obtain ⟨-, h⟩ := h
  split at h
  · exact delegatorIncreaseDelegation_poolInv hs h
  · cases h

theorem delegationBondMoreLeftover_frame {delegator candidate : A} {more : Nat} :
    PoolFrame s (delegationBondMoreLeftover cur s delegator candidate more) := by
  unfold delegationBondMoreLeftover
  split
  · split_ifs
    · exact PoolFrame.refl s
    · split
      · exact ⟨rfl, rfl⟩
      · exact PoolFrame.refl s
  · exact PoolFrame.refl s

theorem mintAndCompound_poolInv {amt : Nat} {compoundPercent : Percent} {candidate delegator : A}
    (hs : PoolInv s) : PoolInv (mintAndCompound cfg cur s amt compoundPercent candidate delegator) := by
  unfold mintAndCompound
  split
  · exact hs
  · -- the reward is minted; compounding it, if it fails, leaves only the reserve behind
    rename_i currency _
    have hs₁ : PoolInv { s with currency := currency } := hs.of_frame ⟨rfl, rfl⟩
    dsimp only
    split_ifs
    · exact hs₁
    · split
      · rename_i r hr
        exact delegationBondMoreWithoutEvent_poolInv hs₁ hr
      · exact hs₁.of_frame delegationBondMoreLeftover_frame

theorem delegationScheduleRevoke_frame {collator delegator : A}
    (h : delegationScheduleRevoke cfg s collator delegator = .ok s') : PoolFrame s s' := by
  unfold delegationScheduleRevoke at h
  simp only [bind, Except.bind, throw, throwThe, MonadExceptOf.throw, pure, Except.pure] at h
  split at h
  · rw [Reach.ite_error_eq_ok] at h
    obtain ⟨-, h⟩ := h
    split at h
    · cases h
      exact ⟨rfl, rfl⟩
    · cases h
  · cases h

theorem delegationScheduleBondDecrease_frame {collator delegator : A} {decreaseAmount : Nat}
    (h : delegationScheduleBondDecrease cfg s collator delegator decreaseAmount = .ok s') :
    PoolFrame s s' := by
  unfold delegationScheduleBondDecrease at h
  simp only [bind, Except.bind, throw, throwThe, MonadExceptOf.throw, pure, Except.pure] at h
  split at h
  · rw [Reach.ite_error_eq_ok] at h
    obtain ⟨-, h⟩ := h
    split at h
    · simp only [Reach.ite_error_eq_ok] at h
      obtain ⟨-, -, -, h⟩ := h
      cases h
      exact ⟨rfl, rfl⟩
    · cases h
  · cases h

theorem delegationCancelRequest_frame {collator delegator : A}
    (h : delegationCancelRequest s collator delegator = .ok s') : PoolFrame s s' := by
  unfold delegationCancelRequest at h
  split at h
  · split at h
    · cases h
      exact ⟨rfl, rfl⟩
    · cases h
  · cases h

theorem delegatorScheduleRevokeAll_frame {delegator : A}
    (h : delegatorScheduleRevokeAll cfg s delegator = .ok s') : PoolFrame s s' := by
  unfold delegatorScheduleRevokeAll at h
  simp only [bind, Except.bind, throw, throwThe, MonadExceptOf.throw, pure, Except.pure] at h
  split at h
  · rw [Reach.ite_error_eq_ok] at h
    obtain ⟨-, h⟩ := h
    cases h
    exact ⟨by simp, by simp⟩
  · cases h

theorem delegatorCancelScheduledRevokeAll_frame {delegator : A}
    (h : delegatorCancelScheduledRevokeAll s delegator = .ok s') : PoolFrame s s' := by
  unfold delegatorCancelScheduledRevokeAll at h
  simp only [bind, Except.bind, throw, throwThe, MonadExceptOf.throw, pure, Except.pure] at h
  split at h
  · rw [Reach.ite_error_eq_ok] at h
    obtain ⟨-, h⟩ := h
    cases h
    exact ⟨by simp, by simp⟩
  · cases h

theorem setAutoCompound_frame {candidate delegator : A} {value : Percent}
    (h : setAutoCompound s candidate delegator value = .ok s') : PoolFrame s s' := by
  unfold setAutoCompound at h
  simp only [bind, Except.bind, throw, throwThe, MonadExceptOf.throw, pure, Except.pure] at h
  split at h
  · rw [Reach.ite_error_eq_ok] at h
    obtain ⟨-, h⟩ := h
    split_ifs at h <;> cases h <;> exact ⟨rfl, rfl⟩
  · cases h

theorem executeRevoke_poolInv {collator delegator : A} {state : Delegator A}
    {scheduledRequests : List (ScheduledRequest A)} {requestIdx amount : Nat} (hs : PoolInv s)
    (h : executeRevoke cfg cur s collator delegator state scheduledRequests requestIdx amount =
      .ok s') : PoolInv s' := by
  unfold executeRevoke at h
  simp only [bind, Except.bind, throw, throwThe, MonadExceptOf.throw, pure, Except.pure] at h
  -- the candidate side is the one call of `delegator_leaves_candidate`
  have key : ∀ v, delegatorLeavesCandidate cfg cur (removeAutoCompound s collator delegator)
      collator delegator amount = .ok v → PoolInv v := fun _ hv =>
    delegatorLeavesCandidate_poolInv (hs.of_frame (.removeAutoCompound s collator delegator)) hv
  -- whether the delegator leaves decides only what is written of its own state
  split_ifs at h <;> split at h <;> cases h <;> rename_i v hv <;>
    exact (key v hv).of_frame ⟨rfl, rfl⟩

theorem executeDecrease_poolInv {collator delegator : A} {state : Delegator A}
    {scheduledRequests : List (ScheduledRequest A)} {requestIdx amount : Nat} (hs : PoolInv s)
    (h : executeDecrease cfg cur s collator delegator state scheduledRequests requestIdx amount =
      .ok s') : PoolInv s' := by
  unfold executeDecrease at h
  simp only [bind, Except.bind, throw, throwThe, MonadExceptOf.throw, pure, Except.pure] at h
  split at h
  · split at h
    · simp only [Reach.ite_error_eq_ok] at h
      obtain ⟨-, -, -, h⟩ := h
      split at h
      · rename_i m hm
        split at h
        · cases h
        · rename_i v hv
          cases h
          have hf : Follows collator s m
              { s with currency := cur.unreserve s.currency delegator amount } m :=
            Follows.of_eq rfl rfl rfl
          exact hs.writeBack hm (hf.trans (decreaseDelegation_follows hv)) rfl rfl
      · cases h
    · cases h
  · cases h

theorem delegationExecuteScheduledRequest_poolInv {collator delegator : A} (hs : PoolInv s)
    (h : delegationExecuteScheduledRequest cfg cur s collator delegator = .ok s') : PoolInv s' := by
  unfold delegationExecuteScheduledRequest at h
  simp only [bind, Except.bind, throw, throwThe, MonadExceptOf.throw] at h
  split at h
  · split at h
    · split at h
      · rw [Reach.ite_error_eq_ok] at h
        obtain ⟨-, h⟩ := h
        split at h
        · exact executeRevoke_poolInv hs h
        · exact executeDecrease_poolInv hs h
      · cases h
    · cases h
  · cases h

theorem delegatorExecuteScheduledRevokeAll_poolInv {delegator : A} (hs : PoolInv s)
    (h : delegatorExecuteScheduledRevokeAll cfg cur s delegator = .ok s') : PoolInv s' := by
  unfold delegatorExecuteScheduledRevokeAll at h
  split at h
  · obtain ⟨validated, -, h⟩ := Reach.bind_eq_ok.1 h
    split at h
    rename_i s₁ updated hfold
    rw [Reach.pure_eq_ok] at h
    subst h
    have h₁ : PoolInv s₁ := by
      rw [show s₁ = (s₁, updated).1 from rfl, ← hfold]
      -- each bond leaves its candidate, or the failure is only logged and nothing changes
      apply Reach.foldl_invariant (I := fun acc : State A C × _ => PoolInv acc.1) _ validated hs
      rintro acc ⟨bond, requests, idx⟩ hacc
      refine PoolInv.of_frame ?_ (.removeAutoCompound _ bond.owner delegator)
      split
      · exact delegatorLeavesCandidate_poolInv hacc ‹_›
      · exact hacc
    exact h₁.of_frame ⟨by simp, by simp⟩
  · cases h

theorem PoolFrame.addCandidatesWhitelist (s : State A C) (candidate : A) :
    PoolFrame s (addCandidatesWhitelist s candidate) := by
  unfold Staking.addCandidatesWhitelist
  split <;> exact ⟨rfl, rfl⟩

theorem PoolFrame.removeCandidatesWhitelist (s : State A C) (candidate : A) :
    PoolFrame s (removeCandidatesWhitelist s candidate) := by
  unfold Staking.removeCandidatesWhitelist
  split <;> exact ⟨rfl, rfl⟩

end Calls

/-! ## 4. Whole runs -/

section Runs

variable {cfg : Config} {cur : Currency A C} {s s' : State A C}

/-- **One step.** Every call that succeeds keeps `PoolInv`. -/
theorem step_poolInv {call : Call A C} (hs : PoolInv s) (h : step cfg cur s call = .ok s') :
    PoolInv s' := by
  cases call with
  | joinCandidates => exact joinCandidates_poolInv hs h
  | scheduleLeaveCandidates => exact scheduleLeaveCandidates_poolInv hs h
  | executeLeaveCandidates => exact executeLeaveCandidates_poolInv hs h
  | cancelLeaveCandidates => exact cancelLeaveCandidates_poolInv hs h
  | goOffline => exact goOffline_poolInv hs h
  | goOnline => exact goOnline_poolInv hs h
  | candidateBondMore => exact candidateBondMore_poolInv hs h
  | scheduleCandidateBondLess => exact scheduleCandidateBondLess_poolInv hs h
  | executeCandidateBondLess => exact executeCandidateBondLess_poolInv hs h
  | cancelCandidateBondLess => exact cancelCandidateBondLess_poolInv hs h
  | delegate =>
    simp only [step] at h
    exact delegateWithAutoCompound_poolInv hs h
  | delegateWithAutoCompound =>
    simp only [step] at h
    exact delegateWithAutoCompound_poolInv hs h
  | scheduleLeaveDelegators => exact hs.of_frame (delegatorScheduleRevokeAll_frame h)
  | executeLeaveDelegators => exact delegatorExecuteScheduledRevokeAll_poolInv hs h
  | cancelLeaveDelegators => exact hs.of_frame (delegatorCancelScheduledRevokeAll_frame h)
  | scheduleRevokeDelegation => exact hs.of_frame (delegationScheduleRevoke_frame h)
  | delegatorBondMore =>
    -- the extrinsic drops the flag of the inner call
    obtain ⟨r, hr, rfl⟩ := Reach.map_eq_ok.1 h
    exact delegationBondMoreWithoutEvent_poolInv hs hr
  | scheduleDelegatorBondLess => exact hs.of_frame (delegationScheduleBondDecrease_frame h)
  | executeDelegationRequest => exact delegationExecuteScheduledRequest_poolInv hs h
  | cancelDelegationRequest => exact hs.of_frame (delegationCancelRequest_frame h)
  | setAutoCompound => exact hs.of_frame (setAutoCompound_frame h)
  | addCandidatesWhitelist candidate =>
    cases h
    exact hs.of_frame (.addCandidatesWhitelist s candidate)
  | removeCandidatesWhitelist candidate =>
    cases h
    exact hs.of_frame (.removeCandidatesWhitelist s candidate)
  | newRound =>
    cases h
    exact hs.of_frame ⟨rfl, rfl⟩
  | payout =>
    cases h
    exact mintAndCompound_poolInv hs
  | setCurrency =>
    cases h
    exact hs.of_frame ⟨rfl, rfl⟩

/-- At genesis there are no candidates and the pool is empty. -/
theorem Genesis.poolInv (h : Genesis s) : PoolInv s := by
  obtain ⟨hi, -, -, -, -, -, -, hp, -⟩ := h
  unfold PoolInv
  rw [hp]
  refine ⟨List.Pairwise.nil, fun b => ?_⟩
  simp [State.poolAmounts, hi]

theorem Reachable.poolInv (h : Reachable cfg cur s) : PoolInv s :=
  Reach.Reachable.invariant (fun _ => Genesis.poolInv) (fun _ _ _ => step_poolInv) h

theorem CandidateMetadata.poolAmount_eq_some {m : CandidateMetadata} {n : Nat} :
    m.poolAmount = some n ↔ m.status = .active ∧ n = m.totalCounted := by
  unfold poolAmount isActive
  split <;> simp_all [eq_comm]

theorem candidatePool_reflects_active (h : Reachable cfg cur s) :
    SortedVec.StrictKey Bond.owner s.candidatePool ∧
      ∀ c n, (⟨c, n⟩ : Bond A) ∈ s.candidatePool ↔
        ∃ m, s.candidateInfo c = some m ∧ m.status = .active ∧ n = m.totalCounted := by
  have hs := h.poolInv
  refine ⟨hs.sorted, fun c n => ?_⟩
  rw [hs.mem_iff]
  simp only [State.poolAmounts, Option.bind_eq_some_iff, poolAmount_eq_some]

end Runs

/-- Candidates `1` and `2` join with `20` and `15`, delegator `3` backs `1` with `10`,
    and `2` goes offline. -/
def poolRun : List (Call Nat (Nat → Nat × Nat)) :=
  [.joinCandidates 1 20, .joinCandidates 2 15, .delegate 3 1 10, .goOffline 2]

theorem poolRun_checks :
    Reach.runChecks (step mockConfig mockBalances) (genesis [1, 2] fun _ => (100, 0))
      poolRun (fun s => s.candidatePool == [⟨1, 30⟩]) = true := by
  decide

theorem candidatePool_after_poolRun : ∃ s, Reachable mockConfig mockBalances s ∧
    s.candidatePool = [⟨1, 30⟩] ∧ SortedVec.StrictKey Bond.owner s.candidatePool ∧
      ∀ c n, (⟨c, n⟩ : Bond Nat) ∈ s.candidatePool ↔
        ∃ m, s.candidateInfo c = some m ∧ m.status = .active ∧ n = m.totalCounted := by
  obtain ⟨s, hs, hp⟩ := Reach.Reachable.of_runChecks (Genesis.genesis (by decide) _) poolRun_checks
  exact ⟨s, hs, beq_iff_eq.1 hp, candidatePool_reflects_active hs⟩

end Staking
end Litentry
