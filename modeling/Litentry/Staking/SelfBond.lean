import Litentry.Staking.PoolCalls

/-!
# A candidate's self-bond never falls below `MinCandidateStk`

`execute_bond_less` takes the pending request off the self-bond with `saturating_sub`
and checks no minimum; its comment says why it need not: "Arithmetic assumptions are
self.bond > less && self.bond - less > CollatorMinBond (assumptions enforced by
`schedule_bond_less`; if storage corrupts, must re-verify)". This module re-verifies
them over every run (`selfBond_covers_request`): in every reachable state each
candidate has at least `MinCandidateStk` bonded, and a pending request is below the
bond and leaves at least that much, so executing it neither saturates nor goes under
the minimum.

The self-bond and the request are written by the candidate's own calls only,
`join_candidates`, `candidate_bond_more` and the three bond-less calls. Every other
call, whatever it does to the delegation lists, writes back metadata whose two fields
the methods of `CandidateMetadata` left as they were (`SelfBondKept`).
-/

set_option autoImplicit false

namespace Litentry
namespace Staking

variable {A C : Type}

namespace CandidateMetadata

/-- The self-bond and its pending decrease, the fields only the candidate's own calls
    write. -/
def selfBond (m : CandidateMetadata) : Nat × Option CandidateBondLessRequest := (m.bond, m.request)

/-- `MinCandidateStk` is bonded, and stays bonded once the pending request is executed. -/
def BondOk (cfg : Config) (m : CandidateMetadata) : Prop :=
  cfg.minCandidateStk ≤ m.bond ∧
    ∀ r ∈ m.request, r.amount < m.bond ∧ cfg.minCandidateStk ≤ m.bond - r.amount

theorem BondOk.of_selfBond {cfg : Config} {m m' : CandidateMetadata}
    (h : m'.selfBond = m.selfBond) (hm : BondOk cfg m) : BondOk cfg m' := by
  simp only [selfBond, Prod.mk.injEq] at h
  unfold BondOk
  rw [h.1, h.2]
  exact hm

/-- What `add_*_delegation` and `rm_*_delegation` do to the count. -/
@[simp] theorem selfBond_withDelegationCount (m : CandidateMetadata) (n : Nat) :
    ({ m with delegationCount := n }).selfBond = m.selfBond := rfl

variable [LinearOrder A] (cfg : Config)

omit [LinearOrder A] in
@[simp] theorem selfBond_resetBottomData (m : CandidateMetadata) (bottom : Delegations A) :
    (resetBottomData cfg m bottom).selfBond = m.selfBond := rfl

@[simp] theorem selfBond_resetTopData (s : State A C) (m : CandidateMetadata) (c : A)
    (top : Delegations A) : (resetTopData cfg s m c top).1.selfBond = m.selfBond := by
  unfold resetTopData
  dsimp only
  split_ifs <;> rfl

end CandidateMetadata

/-! ## 1. The methods leave the self-bond alone -/

section Methods

open CandidateMetadata

variable [LinearOrder A] {cfg : Config} {cur : Currency A C} {s s' : State A C}
  {m m' : CandidateMetadata} {c : A}

theorem addBottomDelegation_selfBond {bumped : Bool} {d : Bond A}
    (h : addBottomDelegation cfg cur s m bumped c d = .ok (m', s')) : m'.selfBond = m.selfBond := by
  unfold addBottomDelegation at h
  simp only [bind, Except.bind, pure, Except.pure, throw, throwThe, MonadExceptOf.throw] at h
  -- every arm ends in `reset_bottom_data` of `m`, counted or not
  split at h
  · split at h
    · split at h
      · split at h
        · cases h
        · cases h
          rw [selfBond_resetBottomData]
          split <;> rfl
      · cases h
    · cases h
      rw [selfBond_resetBottomData]
      split <;> rfl
  · cases h

theorem addTopDelegation_selfBond {d : Bond A} {less : Option Nat}
    (h : addTopDelegation cfg cur s m c d = .ok (less, m', s')) : m'.selfBond = m.selfBond := by
  unfold addTopDelegation at h
  simp only [bind, Except.bind, pure, Except.pure, throw, throwThe, MonadExceptOf.throw] at h
  split at h
  · split at h
    · split at h
      · split at h
        · cases h
        · rename_i hb
          cases h
          have hm₁ := addBottomDelegation_selfBond hb
          split <;> simpa using hm₁
      · cases h
    · cases h
      split <;> simp
  · cases h

theorem addDelegation_selfBond {d : Bond A} {r : DelegatorAdded × Option Nat}
    (h : addDelegation cfg cur s m c d = .ok (r, m', s')) : m'.selfBond = m.selfBond := by
  unfold addDelegation at h
  split at h
  · split at h
    · obtain ⟨⟨less, m₁, s₁⟩, h₁, h⟩ := Reach.bind_eq_ok.1 h
      rw [Reach.pure_eq_ok] at h
      cases h
      exact addTopDelegation_selfBond h₁
    · -- into the bottom, once the guard on a full bottom passed
      dsimp only at h
      split_ifs at h
      · rw [pure_bind] at h
        obtain ⟨⟨m₁, s₁⟩, h₁, h⟩ := Reach.bind_eq_ok.1 h
        rw [Reach.pure_eq_ok] at h
        cases h
        exact addBottomDelegation_selfBond h₁
      · exact absurd h Reach.throw_bind_ne_ok
      · rw [pure_bind] at h
        obtain ⟨⟨m₁, s₁⟩, h₁, h⟩ := Reach.bind_eq_ok.1 h
        rw [Reach.pure_eq_ok] at h
        cases h
        exact addBottomDelegation_selfBond h₁
  · obtain ⟨⟨less, m₁, s₁⟩, h₁, h⟩ := Reach.bind_eq_ok.1 h
    rw [Reach.pure_eq_ok] at h
    cases h
    exact addTopDelegation_selfBond h₁

theorem rmTopDelegation_selfBond {d : A} {same : Bool}
    (h : rmTopDelegation cfg s m c d = .ok (same, m', s')) : m'.selfBond = m.selfBond := by
  unfold rmTopDelegation at h
  simp only [bind, Except.bind, pure, Except.pure, throw, throwThe, MonadExceptOf.throw] at h
  split at h
  · split at h
    · split at h
      · split at h
        · split at h
          · cases h
            simp
          · cases h
        · cases h
      · cases h
        simp
    · cases h
  · cases h

theorem rmBottomDelegation_selfBond {d : A} {same : Bool}
    (h : rmBottomDelegation cfg s m c d = .ok (same, m', s')) : m'.selfBond = m.selfBond := by
  unfold rmBottomDelegation at h
  simp only [pure, Except.pure, throw, throwThe, MonadExceptOf.throw] at h
  split at h
  · split at h
    · cases h
      rfl
    · cases h
  · cases h

theorem rmDelegationIfExists_selfBond {d : A} {amount : Nat} {same : Bool}
    (h : rmDelegationIfExists cfg s m c d amount = .ok (same, m', s')) :
    m'.selfBond = m.selfBond := by
  unfold rmDelegationIfExists at h
  dsimp only at h
  split_ifs at h
  · exact rmTopDelegation_selfBond h
  · split at h
    · exact rmBottomDelegation_selfBond h
    · exact rmTopDelegation_selfBond h
  · exact rmBottomDelegation_selfBond h

theorem increaseTopDelegation_selfBond {d : A} {more : Nat} {inTop : Bool}
    (h : increaseTopDelegation cfg s m c d more = .ok (inTop, m', s')) :
    m'.selfBond = m.selfBond := by
  unfold increaseTopDelegation at h
  simp only [bind, Except.bind, pure, Except.pure, throw, throwThe, MonadExceptOf.throw] at h
  split at h
  · split_ifs at h
    cases h
    simp
  · cases h

theorem increaseBottomDelegation_selfBond {d : A} {bond more : Nat} {inTop : Bool}
    (h : increaseBottomDelegation cfg s m c d bond more = .ok (inTop, m', s')) :
    m'.selfBond = m.selfBond := by
  unfold increaseBottomDelegation at h
  simp only [bind, Except.bind, pure, Except.pure, throw, throwThe, MonadExceptOf.throw] at h
  split at h
  · split_ifs at h
    · -- the bond moves up into the top
      split at h
      · split at h
        · split_ifs at h
          · split at h
            · cases h
              simp
            · cases h
          · cases h
            simp
        · cases h
      · cases h
    · -- the bond grows in place
      cases h
      rfl
  · cases h

theorem increaseDelegation_selfBond {d : A} {bond more : Nat} {inTop : Bool}
    (h : CandidateMetadata.increaseDelegation cfg s m c d bond more = .ok (inTop, m', s')) :
    m'.selfBond = m.selfBond := by
  unfold CandidateMetadata.increaseDelegation at h
  dsimp only at h
  split_ifs at h
  · exact increaseTopDelegation_selfBond h
  · split at h
    · exact increaseBottomDelegation_selfBond h
    · exact increaseTopDelegation_selfBond h
  · exact increaseBottomDelegation_selfBond h

theorem decreaseTopDelegation_selfBond {d : A} {bond less : Nat} {inTop : Bool}
    (h : decreaseTopDelegation cfg s m c d bond less = .ok (inTop, m', s')) :
    m'.selfBond = m.selfBond := by
  unfold decreaseTopDelegation at h
  simp only [bind, Except.bind, pure, Except.pure, throw, throwThe, MonadExceptOf.throw] at h
  split at h
  · split_ifs at h
    · -- the bond swaps places with the highest bottom one
      split at h
      · split at h
        · split at h
          · cases h
            simp
          · cases h
        · cases h
      · cases h
    · cases h
      simp
  · cases h

theorem decreaseBottomDelegation_selfBond {d : A} {less : Nat} {inTop : Bool}
    (h : decreaseBottomDelegation cfg s m c d less = .ok (inTop, m', s')) :
    m'.selfBond = m.selfBond := by
  unfold decreaseBottomDelegation at h
  simp only [bind, Except.bind, pure, Except.pure, throw, throwThe, MonadExceptOf.throw] at h
  split at h
  · split_ifs at h
    cases h
    rfl
  · cases h

theorem decreaseDelegation_selfBond {d : A} {bond less : Nat} {inTop : Bool}
    (h : decreaseDelegation cfg s m c d bond less = .ok (inTop, m', s')) :
    m'.selfBond = m.selfBond := by
  unfold decreaseDelegation at h
  dsimp only at h
  split_ifs at h
  · exact decreaseTopDelegation_selfBond h
  · split at h
    · exact decreaseBottomDelegation_selfBond h
    · exact decreaseTopDelegation_selfBond h
  · exact decreaseBottomDelegation_selfBond h

end Methods

/-! ## 2. Runs that keep every self-bond -/

/-- Every candidate still there has the self-bond and request it had; some may have
    gone. -/
def SelfBondKept (s s' : State A C) : Prop :=
  ∀ c m', s'.candidateInfo c = some m' → ∃ m, s.candidateInfo c = some m ∧ m'.selfBond = m.selfBond

namespace SelfBondKept

variable {s s₁ s₂ s' : State A C}

theorem of_candidateInfo (h : s'.candidateInfo = s.candidateInfo) : SelfBondKept s s' := by
  intro c m' hm'
  exact ⟨m', h ▸ hm', rfl⟩

theorem trans (h₁ : SelfBondKept s s₁) (h₂ : SelfBondKept s₁ s₂) : SelfBondKept s s₂ := by
  intro c m₂ hm₂
  obtain ⟨m₁, hm₁, he₂⟩ := h₂ c m₂ hm₂
  obtain ⟨m, hm, he₁⟩ := h₁ c m₁ hm₁
  exact ⟨m, hm, he₂.trans he₁⟩

variable [LinearOrder A] {c : A}

/-- **Write-back.** Metadata a method left with the self-bond of the stored one, written
    back after a run that kept the others. -/
theorem writeBack (h₁ : SelfBondKept s s₁) {m m' : CandidateMetadata}
    (hm : s.candidateInfo c = some m)
    (hi : s'.candidateInfo = Function.update s₁.candidateInfo c (some m'))
    (he : m'.selfBond = m.selfBond) : SelfBondKept s s' := by
  intro a ma hma
  rw [hi] at hma
  by_cases ha : a = c
  · subst ha
    rw [Function.update_self, Option.some_inj] at hma
    subst hma
    exact ⟨m, hm, he⟩
  · rw [Function.update_of_ne ha] at hma
    exact h₁ a ma hma

/-- The candidate's entry removed. -/
theorem remove (h₁ : SelfBondKept s s₁)
    (hi : s'.candidateInfo = Function.update s₁.candidateInfo c none) : SelfBondKept s s' := by
  intro a ma hma
  rw [hi] at hma
  by_cases ha : a = c
  · subst ha
    simp at hma
  · rw [Function.update_of_ne ha] at hma
    exact h₁ a ma hma

end SelfBondKept

/-- Every candidate's metadata passes `BondOk`. -/
def BondInv (cfg : Config) (s : State A C) : Prop :=
  ∀ c m, s.candidateInfo c = some m → m.BondOk cfg

namespace BondInv

variable {cfg : Config} {s s' : State A C}

theorem of_kept (hs : BondInv cfg s) (h : SelfBondKept s s') : BondInv cfg s' := by
  intro c m' hm'
  obtain ⟨m, hm, he⟩ := h c m' hm'
  exact (hs c m hm).of_selfBond he

/-- A write of metadata that passes `BondOk`. -/
theorem update [LinearOrder A] (hs : BondInv cfg s) {c : A} {m' : CandidateMetadata}
    (hi : s'.candidateInfo = Function.update s.candidateInfo c (some m')) (hm' : m'.BondOk cfg) :
    BondInv cfg s' := by
  intro a ma hma
  rw [hi] at hma
  by_cases ha : a = c
  · subst ha
    rw [Function.update_self, Option.some_inj] at hma
    exact hma ▸ hm'
  · rw [Function.update_of_ne ha] at hma
    exact hs a ma hma

end BondInv

/-! ## 3. The candidate's own calls -/

section CandidateCalls

open CandidateMetadata

variable [LinearOrder A] {cfg : Config} {cur : Currency A C} {s s' : State A C}

theorem joinCandidates_bondInv {acc : A} {bond : Nat} (hs : BondInv cfg s)
    (h : joinCandidates cfg cur s acc bond = .ok s') : BondInv cfg s' := by
  unfold joinCandidates at h
  simp only [bind, Except.bind, throw, throwThe, MonadExceptOf.throw, pure, Except.pure,
    Reach.ite_error_eq_ok, Bool.not_eq_true', Bool.not_eq_false] at h
  obtain ⟨-, -, -, hmin, -, -, h⟩ := h
  split at h
  · cases h
    -- a new candidate has no request, and its bond passed the check
    refine hs.update rfl ⟨Nat.le_of_not_lt hmin, ?_⟩
    simp [CandidateMetadata.new]
  · cases h

omit [LinearOrder A] in
theorem bondMore_eq {m m' : CandidateMetadata} {who : A} {more : Nat} {s₁ : State A C}
    (h : m.bondMore cur s who more = .ok (m', s₁)) :
    m'.bond = m.bond + more ∧ m'.request = m.request ∧ s₁.candidateInfo = s.candidateInfo := by
  unfold CandidateMetadata.bondMore at h
  simp only [bind, Except.bind, throw, throwThe, MonadExceptOf.throw, pure, Except.pure,
    Reach.ite_error_eq_ok] at h
  obtain ⟨-, h⟩ := h
  split at h
  · cases h
    exact ⟨rfl, rfl, rfl⟩
  · cases h

/-- More bond keeps the minimum and the room for the pending request. -/
theorem CandidateMetadata.BondOk.bondMore {m m' : CandidateMetadata} {more : Nat} (hm : m.BondOk cfg)
    (hb : m'.bond = m.bond + more) (hr : m'.request = m.request) : m'.BondOk cfg := by
  obtain ⟨hmin, hreq⟩ := hm
  refine ⟨by omega, fun r hr' => ?_⟩
  rw [hr] at hr'
  obtain ⟨hlt, hle⟩ := hreq r hr'
  omega

theorem candidateBondMore_bondInv {collator : A} {more : Nat} (hs : BondInv cfg s)
    (h : candidateBondMore cur s collator more = .ok s') : BondInv cfg s' := by
  unfold candidateBondMore at h
  split at h
  · rename_i m hm
    obtain ⟨⟨m', s₁⟩, hb, h⟩ := Reach.bind_eq_ok.1 h
    obtain ⟨hbond, hreq, hi⟩ := bondMore_eq hb
    have hok := (hs collator m hm).bondMore hbond hreq
    -- the pool refresh after the write leaves `CandidateInfo` as written
    dsimp only at h
    split_ifs at h <;> rw [Reach.pure_eq_ok] at h <;> subst h <;>
      exact (hs.of_kept (.of_candidateInfo hi)).update rfl hok
  · cases h

theorem scheduleCandidateBondLess_bondInv {collator : A} {less : Nat} (hs : BondInv cfg s)
    (h : scheduleCandidateBondLess cfg s collator less = .ok s') : BondInv cfg s' := by
  unfold scheduleCandidateBondLess at h
  split at h
  · rename_i m hm
    obtain ⟨⟨w, m'⟩, hb, h⟩ := Reach.bind_eq_ok.1 h
    unfold CandidateMetadata.scheduleBondLess at hb
    simp only [bind, Except.bind, throw, throwThe, MonadExceptOf.throw, pure, Except.pure,
      Reach.ite_error_eq_ok] at hb
    -- the two checks of `schedule_bond_less` are the two halves of `BondOk` for the request
    obtain ⟨-, hlt, hle, hb⟩ := hb
    cases hb
    rw [Reach.pure_eq_ok] at h
    subst h
    refine hs.update rfl ⟨(hs collator m hm).1, fun r hr => ?_⟩
    simp only [Option.mem_def, Option.some_inj] at hr
    subst hr
    exact ⟨Nat.lt_of_not_le hlt, Nat.le_of_not_lt hle⟩
  · cases h

theorem executeBondLess_eq {m m' : CandidateMetadata} {who : A} {s₁ : State A C}
    (h : m.executeBondLess cur s who = .ok (m', s₁)) :
    ∃ r, m.request = some r ∧ m'.bond = m.bond - r.amount ∧ m'.request = none := by
  unfold CandidateMetadata.executeBondLess at h
  dsimp only at h
  split at h
  · rename_i r hr
    split at h
    · cases h
    · rw [Reach.pure_eq_ok] at h
      cases h
      exact ⟨r, hr, rfl, rfl⟩
  · cases h

theorem executeCandidateBondLess_bondInv {candidate : A} (hs : BondInv cfg s)
    (h : executeCandidateBondLess cur s candidate = .ok s') : BondInv cfg s' := by
  unfold executeCandidateBondLess at h
  split at h
  · rename_i m hm
    obtain ⟨⟨m', s₁⟩, hb, h⟩ := Reach.bind_eq_ok.1 h
    rw [Reach.pure_eq_ok] at h
    subst h
    obtain ⟨r, hr, hbond, hreq⟩ := executeBondLess_eq hb
    -- what the request leaves bonded is what `BondOk` promised before it ran
    have hok : m'.BondOk cfg := by
      refine ⟨?_, fun r' hr' => by simp [hreq] at hr'⟩
      rw [hbond]
      exact ((hs candidate m hm).2 r hr).2
    exact (hs.of_kept (.of_candidateInfo (executeBondLess_follows hb).candidateInfo)).update rfl hok
  · cases h

theorem cancelCandidateBondLess_bondInv {collator : A} (hs : BondInv cfg s)
    (h : cancelCandidateBondLess s collator = .ok s') : BondInv cfg s' := by
  unfold cancelCandidateBondLess at h
  split at h
  · rename_i m hm
    obtain ⟨m', hb, h⟩ := Reach.bind_eq_ok.1 h
    unfold CandidateMetadata.cancelBondLess at hb
    simp only [bind, Except.bind, throw, throwThe, MonadExceptOf.throw, pure, Except.pure,
      Reach.ite_error_eq_ok] at hb
    obtain ⟨-, hb⟩ := hb
    cases hb
    rw [Reach.pure_eq_ok] at h
    subst h
    exact hs.update rfl ⟨(hs collator m hm).1, fun r hr => by simp at hr⟩
  · cases h

/-! The changes of status write the status alone. -/

theorem scheduleLeaveCandidates_kept {collator : A}
    (h : scheduleLeaveCandidates cfg s collator = .ok s') : SelfBondKept s s' := by
  unfold scheduleLeaveCandidates at h
  dsimp only at h
  split at h
  · rename_i m hm
    obtain ⟨⟨r, m'⟩, hl, h⟩ := Reach.bind_eq_ok.1 h
    unfold CandidateMetadata.scheduleLeave at hl
    simp only [bind, Except.bind, throw, throwThe, MonadExceptOf.throw, pure, Except.pure,
      Reach.ite_error_eq_ok] at hl
    obtain ⟨-, hl⟩ := hl
    cases hl
    rw [Reach.pure_eq_ok] at h
    subst h
    -- the pool may lose the candidate; the metadata is written back with a new status
    split_ifs <;> exact SelfBondKept.writeBack (.of_candidateInfo rfl) hm rfl rfl
  · cases h

theorem executeLeaveCandidates_kept {candidate : A}
    (h : executeLeaveCandidates cur s candidate = .ok s') : SelfBondKept s s' := by
  unfold executeLeaveCandidates at h
  dsimp only at h
  split at h
  · obtain ⟨u, -, h⟩ := Reach.bind_eq_ok.1 h
    -- returning the stake of the delegations writes no metadata
    have hloop : ∀ {t t' : State A C} {l : List (Bond A)},
        l.foldlM (returnStake cur candidate) t = .ok t' → t.candidateInfo = s.candidateInfo →
          t'.candidateInfo = s.candidateInfo :=
      fun hl ht => Reach.foldlM_invariant (I := fun t => t.candidateInfo = s.candidateInfo)
        (fun _ _ _ ht hb => (returnStake_frame hb).candidateInfo.trans ht) ht hl
    split at h
    · obtain ⟨s₁, h₁, h⟩ := Reach.bind_eq_ok.1 h
      split at h
      · obtain ⟨s₂, h₂, h⟩ := Reach.bind_eq_ok.1 h
        rw [Reach.pure_eq_ok] at h
        subst h
        have hi₁ : s₁.candidateInfo = s.candidateInfo := hloop h₁ rfl
        exact SelfBondKept.remove (.of_candidateInfo (hloop h₂ hi₁)) rfl
      · cases h
    · cases h
  · cases h

theorem cancelLeaveCandidates_kept {collator : A}
    (h : cancelLeaveCandidates s collator = .ok s') : SelfBondKept s s' := by
  unfold cancelLeaveCandidates at h
  split at h
  · rename_i m hm
    simp only [bind, Except.bind, throw, throwThe, MonadExceptOf.throw, pure, Except.pure,
      Reach.ite_error_eq_ok] at h
    obtain ⟨-, -, h⟩ := h
    cases h
    exact SelfBondKept.writeBack (.of_candidateInfo rfl) hm rfl rfl
  · cases h

theorem goOffline_kept {collator : A} (h : goOffline s collator = .ok s') :
    SelfBondKept s s' := by
  unfold goOffline at h
  split at h
  · rename_i m hm
    simp only [bind, Except.bind, throw, throwThe, MonadExceptOf.throw, pure, Except.pure,
      Reach.ite_error_eq_ok] at h
    obtain ⟨-, h⟩ := h
    cases h
    -- the pool may lose the candidate; the metadata is written back with a new status
    split_ifs <;> exact SelfBondKept.writeBack (.of_candidateInfo rfl) hm rfl rfl
  · cases h

theorem goOnline_kept {collator : A} (h : goOnline s collator = .ok s') : SelfBondKept s s' := by
  unfold goOnline at h
  split at h
  · rename_i m hm
    simp only [bind, Except.bind, throw, throwThe, MonadExceptOf.throw, pure, Except.pure,
      Reach.ite_error_eq_ok] at h
    obtain ⟨-, -, -, h⟩ := h
    cases h
    exact SelfBondKept.writeBack (.of_candidateInfo rfl) hm rfl rfl
  · cases h

end CandidateCalls

/-! ## 4. The delegator calls write back what the methods left -/

section DelegatorCalls

open CandidateMetadata AutoCompoundDelegations

variable [LinearOrder A] {cfg : Config} {cur : Currency A C} {s s' : State A C}

theorem delegatorLeavesCandidate_kept {candidate delegator : A} {amount : Nat}
    (h : delegatorLeavesCandidate cfg cur s candidate delegator amount = .ok s') :
    SelfBondKept s s' := by
  unfold delegatorLeavesCandidate at h
  split at h
  · rename_i m hm
    obtain ⟨⟨same, m', s₁⟩, hr, h⟩ := Reach.bind_eq_ok.1 h
    rw [Reach.pure_eq_ok] at h
    subst h
    exact SelfBondKept.writeBack (.of_candidateInfo (rmDelegationIfExists_follows hr).candidateInfo)
      hm rfl (rmDelegationIfExists_selfBond hr)
  · cases h

theorem delegateWithAutoCompound_kept {candidate delegator : A} {amount : Nat}
    {autoCompound : Percent}
    (h : delegateWithAutoCompound cfg cur s candidate delegator amount autoCompound = .ok s') :
    SelfBondKept s s' := by
  unfold delegateWithAutoCompound at h
  simp only [bind, Except.bind, throw, throwThe, MonadExceptOf.throw, pure, Except.pure,
    Reach.ite_error_eq_ok] at h
  obtain ⟨-, h⟩ := h
  -- a first delegation and a later one check different things; the candidate side is one
  split at h <;> split_ifs at h <;>
  · split at h
    · rename_i m hm
      split at h
      · cases h
      · rename_i v hv
        split_ifs at h
        split at h
        · cases h
          exact SelfBondKept.writeBack (.of_candidateInfo (addDelegation_follows hv).candidateInfo)
            hm rfl (addDelegation_selfBond hv)
        · cases h
    · cases h

theorem delegatorIncreaseDelegation_kept {self : Delegator A} {candidate : A} {amount : Nat}
    {inTop : Bool} (h : Delegator.increaseDelegation cfg cur s self candidate amount = .ok (inTop, s')) :
    SelfBondKept s s' := by
  unfold Delegator.increaseDelegation at h
  obtain ⟨⟨i, before, m, c⟩, hr, h⟩ := Reach.bind_eq_ok.1 h
  have hm := reserveIncrease_candidateInfo hr
  dsimp only at h
  obtain ⟨⟨inTop', m', s₂⟩, hi, h⟩ := Reach.bind_eq_ok.1 h
  have hi₂ : s₂.candidateInfo = s.candidateInfo := (increaseDelegation_follows hi).candidateInfo
  rw [Reach.pure_eq_ok] at h
  obtain ⟨-, rfl⟩ := Prod.mk.inj h
  -- the pool may be refreshed before the write-back; it does not touch the metadata
  split_ifs <;> exact SelfBondKept.writeBack (.of_candidateInfo hi₂) hm rfl (increaseDelegation_selfBond hi)

theorem delegationBondMoreWithoutEvent_kept {delegator candidate : A} {more : Nat}
    {r : Bool × State A C} (h : delegationBondMoreWithoutEvent cfg cur s delegator candidate more = .ok r) :
    SelfBondKept s r.2 := by
  unfold delegationBondMoreWithoutEvent at h
  simp only [bind, Except.bind, throw, throwThe, MonadExceptOf.throw, Reach.ite_error_eq_ok] at h
  obtain ⟨-, h⟩ := h
  split at h
  · exact delegatorIncreaseDelegation_kept h
  · cases h

theorem mintAndCompound_kept {amt : Nat} {compoundPercent : Percent} {candidate delegator : A} :
    SelfBondKept s (mintAndCompound cfg cur s amt compoundPercent candidate delegator) := by
  unfold mintAndCompound
  split
  · exact .of_candidateInfo rfl
  · -- the reward is minted; compounding it, if it fails, leaves only the reserve behind
    rename_i currency _
    have h₁ : SelfBondKept s { s with currency := currency } := .of_candidateInfo rfl
    dsimp only
    split_ifs
    · exact h₁
    · split
      · rename_i r hr
        exact h₁.trans (delegationBondMoreWithoutEvent_kept hr)
      · exact h₁.trans (.of_candidateInfo delegationBondMoreLeftover_frame.candidateInfo)

theorem executeRevoke_kept {collator delegator : A} {state : Delegator A}
    {scheduledRequests : List (ScheduledRequest A)} {requestIdx amount : Nat}
    (h : executeRevoke cfg cur s collator delegator state scheduledRequests requestIdx amount =
      .ok s') : SelfBondKept s s' := by
  unfold executeRevoke at h
  simp only [bind, Except.bind, throw, throwThe, MonadExceptOf.throw, pure, Except.pure] at h
  -- the candidate side is the one call of `delegator_leaves_candidate`
  have key : ∀ v, delegatorLeavesCandidate cfg cur (removeAutoCompound s collator delegator)
      collator delegator amount = .ok v → SelfBondKept s v := fun _ hv =>
    (SelfBondKept.of_candidateInfo (by simp)).trans (delegatorLeavesCandidate_kept hv)
  split_ifs at h <;> split at h <;> cases h <;> rename_i v hv <;>
    exact (key v hv).trans (.of_candidateInfo rfl)

theorem executeDecrease_kept {collator delegator : A} {state : Delegator A}
    {scheduledRequests : List (ScheduledRequest A)} {requestIdx amount : Nat}
    (h : executeDecrease cfg cur s collator delegator state scheduledRequests requestIdx amount =
      .ok s') : SelfBondKept s s' := by
  unfold executeDecrease at h
  simp only [bind, Except.bind, throw, throwThe, MonadExceptOf.throw, pure, Except.pure] at h
  split at h
  · split at h
    · simp only [Reach.ite_error_eq_ok] at h
      obtain ⟨-, -, -, h⟩ := h
      split at h
      · rename_i m hm
        split at h
        · cases h
        · rename_i v hv
          cases h
          exact SelfBondKept.writeBack (.of_candidateInfo (decreaseDelegation_follows hv).candidateInfo)
            hm rfl (decreaseDelegation_selfBond hv)
      · cases h
    · cases h
  · cases h

theorem delegationExecuteScheduledRequest_kept {collator delegator : A}
    (h : delegationExecuteScheduledRequest cfg cur s collator delegator = .ok s') :
    SelfBondKept s s' := by
  unfold delegationExecuteScheduledRequest at h
  simp only [bind, Except.bind, throw, throwThe, MonadExceptOf.throw] at h
  split at h
  · split at h
    · split at h
      · rw [Reach.ite_error_eq_ok] at h
        obtain ⟨-, h⟩ := h
        split at h
        · exact executeRevoke_kept h
        · exact executeDecrease_kept h
      · cases h
    · cases h
  · cases h

theorem delegatorExecuteScheduledRevokeAll_kept {delegator : A}
    (h : delegatorExecuteScheduledRevokeAll cfg cur s delegator = .ok s') : SelfBondKept s s' := by
  unfold delegatorExecuteScheduledRevokeAll at h
  split at h
  · obtain ⟨validated, -, h⟩ := Reach.bind_eq_ok.1 h
    split at h
    rename_i s₁ updated hfold
    rw [Reach.pure_eq_ok] at h
    subst h
    have h₁ : SelfBondKept s s₁ := by
      rw [show s₁ = (s₁, updated).1 from rfl, ← hfold]
      -- each bond leaves its candidate, or the failure is only logged and nothing changes
      apply Reach.foldl_invariant (I := fun acc : State A C × _ => SelfBondKept s acc.1) _ validated
        (.of_candidateInfo rfl)
      rintro acc ⟨bond, requests, idx⟩ hacc
      refine SelfBondKept.trans ?_ (.of_candidateInfo (removeAutoCompound_candidateInfo _ _ _))
      split
      · exact hacc.trans (delegatorLeavesCandidate_kept ‹_›)
      · exact hacc
    exact h₁.trans (.of_candidateInfo (by simp))
  · cases h

end DelegatorCalls

/-! ## 5. Whole runs -/

section Runs

variable [LinearOrder A] {cfg : Config} {cur : Currency A C} {s s' : State A C}

/-- **One step.** Every call that succeeds keeps `BondInv`. -/
theorem step_bondInv {call : Call A C} (hs : BondInv cfg s) (h : step cfg cur s call = .ok s') :
    BondInv cfg s' := by
  cases call with
  | joinCandidates => exact joinCandidates_bondInv hs h
  | scheduleLeaveCandidates => exact hs.of_kept (scheduleLeaveCandidates_kept h)
  | executeLeaveCandidates => exact hs.of_kept (executeLeaveCandidates_kept h)
  | cancelLeaveCandidates => exact hs.of_kept (cancelLeaveCandidates_kept h)
  | goOffline => exact hs.of_kept (goOffline_kept h)
  | goOnline => exact hs.of_kept (goOnline_kept h)
  | candidateBondMore => exact candidateBondMore_bondInv hs h
  | scheduleCandidateBondLess => exact scheduleCandidateBondLess_bondInv hs h
  | executeCandidateBondLess => exact executeCandidateBondLess_bondInv hs h
  | cancelCandidateBondLess => exact cancelCandidateBondLess_bondInv hs h
  | delegate =>
    simp only [step] at h
    exact hs.of_kept (delegateWithAutoCompound_kept h)
  | delegateWithAutoCompound =>
    simp only [step] at h
    exact hs.of_kept (delegateWithAutoCompound_kept h)
  | scheduleLeaveDelegators =>
    exact hs.of_kept (.of_candidateInfo (delegatorScheduleRevokeAll_frame h).candidateInfo)
  | executeLeaveDelegators => exact hs.of_kept (delegatorExecuteScheduledRevokeAll_kept h)
  | cancelLeaveDelegators =>
    exact hs.of_kept (.of_candidateInfo (delegatorCancelScheduledRevokeAll_frame h).candidateInfo)
  | scheduleRevokeDelegation =>
    exact hs.of_kept (.of_candidateInfo (delegationScheduleRevoke_frame h).candidateInfo)
  | delegatorBondMore =>
    obtain ⟨r, hr, rfl⟩ := Reach.map_eq_ok.1 h
    exact hs.of_kept (delegationBondMoreWithoutEvent_kept hr)
  | scheduleDelegatorBondLess =>
    exact hs.of_kept (.of_candidateInfo (delegationScheduleBondDecrease_frame h).candidateInfo)
  | executeDelegationRequest => exact hs.of_kept (delegationExecuteScheduledRequest_kept h)
  | cancelDelegationRequest =>
    exact hs.of_kept (.of_candidateInfo (delegationCancelRequest_frame h).candidateInfo)
  | setAutoCompound => exact hs.of_kept (.of_candidateInfo (setAutoCompound_frame h).candidateInfo)
  | addCandidatesWhitelist candidate =>
    cases h
    exact hs.of_kept (.of_candidateInfo (PoolFrame.addCandidatesWhitelist s candidate).candidateInfo)
  | removeCandidatesWhitelist candidate =>
    cases h
    exact hs.of_kept
      (.of_candidateInfo (PoolFrame.removeCandidatesWhitelist s candidate).candidateInfo)
  | newRound =>
    cases h
    exact hs.of_kept (.of_candidateInfo rfl)
  | payout =>
    cases h
    exact hs.of_kept mintAndCompound_kept
  | setCurrency =>
    cases h
    exact hs.of_kept (.of_candidateInfo rfl)

theorem Genesis.bondInv (h : Genesis s) : BondInv cfg s := by
  intro c m hm
  rw [h.1 c] at hm
  cases hm

theorem Reachable.bondInv (h : Reachable cfg cur s) : BondInv cfg s :=
  Reach.Reachable.invariant (fun _ => Genesis.bondInv) (fun _ _ _ => step_bondInv) h

/-- In every reachable state a candidate has at least `MinCandidateStk` bonded, and a
    pending bond-less request is below its bond and leaves that minimum bonded: the two
    assumptions `execute_bond_less` makes before its `saturating_sub`. -/
theorem selfBond_covers_request (h : Reachable cfg cur s) {c : A} {m : CandidateMetadata}
    (hc : s.candidateInfo c = some m) :
    cfg.minCandidateStk ≤ m.bond ∧
      ∀ r, m.request = some r → r.amount < m.bond ∧ cfg.minCandidateStk ≤ m.bond - r.amount := by
  obtain ⟨hmin, hreq⟩ := h.bondInv c m hc
  exact ⟨hmin, fun r hr => hreq r hr⟩

end Runs

/-- Candidate `1` joins with `20` and asks to bond `5` less. -/
def bondLessRun : List (Call Nat (Nat → Nat × Nat)) :=
  [.joinCandidates 1 20, .scheduleCandidateBondLess 1 5]

theorem bondLessRun_checks :
    Reach.runChecks (step mockConfig mockBalances) (genesis [1] fun _ => (100, 0)) bondLessRun
      (fun s => (s.candidateInfo 1).any (·.request.isSome)) = true := by
  decide

theorem selfBond_covers_request_after_bondLessRun : ∃ s m, Reachable mockConfig mockBalances s ∧
    s.candidateInfo 1 = some m ∧ m.request.isSome ∧
      (mockConfig.minCandidateStk ≤ m.bond ∧ ∀ r, m.request = some r →
        r.amount < m.bond ∧ mockConfig.minCandidateStk ≤ m.bond - r.amount) := by
  obtain ⟨s, hs, hp⟩ :=
    Reach.Reachable.of_runChecks (Genesis.genesis (by decide) _) bondLessRun_checks
  obtain ⟨m, hm, hr⟩ := (Option.any_eq_true _ _).1 hp
  exact ⟨s, m, hs, hm, hr, selfBond_covers_request hs hm⟩

end Staking
end Litentry
