import Litentry.Staking.Delegation
import Litentry.Lib.Reach

/-!
# The extrinsics, and the machine they make

The candidate calls of `lib.rs` with the `CandidateMetadata` methods they go
through (`schedule_leave`, `can_leave`, `bond_more`, `schedule_bond_less`,
`execute_bond_less`, `cancel_bond_less`), and `step`, which dispatches one
`Call`: every extrinsic of the pallet that touches the modelled storage, and
three transitions from outside the call set:

* `newRound`, the round change `on_initialize` makes at a round boundary (what
  else it writes, the snapshots and payout records, is not modelled storage);
* `payout`, one `mint_and_compound` of the payout hook, for any reward: the hook
  decides which delegations are paid and how much, and every payout it makes is
  one of these;
* `setCurrency`, any change of the currency made elsewhere (transfers, fees,
  minting); the currency is not the pallet's, and no result here constrains it.

A state is reachable when a run of successful calls leads to it from a
`Genesis` state: empty staking storage, any whitelist, any currency. The genesis
build of the pallet itself calls `join_candidates` and
`delegate_with_auto_compound`, so it is such a run.
-/

set_option autoImplicit false

namespace Litentry
namespace Staking

variable {A C : Type} [LinearOrder A]

namespace CandidateMetadata

/-- `schedule_leave`: answers `(now, when)`. -/
def scheduleLeave (cfg : Config) (round : Nat) (m : CandidateMetadata) :
    Except Error ((Nat × Nat) × CandidateMetadata) := do
  if m.isLeaving then throw .candidateAlreadyLeaving
  let now := round
  let when := now + cfg.leaveCandidatesDelay
  pure ((now, when), { m with status := .leaving when })

/-- `can_leave`. -/
def canLeave (round : Nat) (m : CandidateMetadata) : Except Error Unit :=
  match m.status with
  | .leaving when => if round < when then throw .candidateCannotLeaveYet else pure ()
  | _ => throw .candidateNotLeaving

/-- `bond_more`. -/
def bondMore (cur : Currency A C) (s : State A C) (m : CandidateMetadata) (who : A)
    (more : Nat) : Except Error (CandidateMetadata × State A C) := do
  if cur.freeBalance s.currency who < more then throw .insufficientBalance
  let some currency := cur.reserve s.currency who more | throw .currency
  pure ({ m with bond := m.bond + more, totalCounted := m.totalCounted + more },
    { s with currency := currency, total := s.total + more })

/-- `schedule_bond_less`: answers the round from which it can be executed. -/
def scheduleBondLess (cfg : Config) (round : Nat) (m : CandidateMetadata) (less : Nat) :
    Except Error (Nat × CandidateMetadata) := do
  if m.request.isSome then throw .pendingCandidateRequestAlreadyExists
  if m.bond ≤ less then throw .candidateBondBelowMin
  if m.bond - less < cfg.minCandidateStk then throw .candidateBondBelowMin
  let whenExecutable := round + cfg.candidateBondLessDelay
  pure (whenExecutable, { m with request := some ⟨less, whenExecutable⟩ })

/-- `execute_bond_less`: the pool entry follows the counted total when active. -/
def executeBondLess (cur : Currency A C) (s : State A C) (m : CandidateMetadata) (who : A) :
    Except Error (CandidateMetadata × State A C) := do
  let some request := m.request | throw .pendingCandidateRequestsDNE
  if s.round < request.whenExecutable then throw .pendingCandidateRequestNotDueYet
  let s := { s with
    currency := cur.unreserve s.currency who request.amount
    total := s.total - request.amount }
  let m := { m with
    bond := m.bond - request.amount
    totalCounted := m.totalCounted - request.amount
    request := none }
  let s := if m.isActive then s.updateActive who m.totalCounted else s
  pure (m, s)

/-- `cancel_bond_less`. -/
def cancelBondLess (m : CandidateMetadata) : Except Error CandidateMetadata := do
  if m.request.isNone then throw .pendingCandidateRequestsDNE
  pure { m with request := none }

end CandidateMetadata

section Calls

variable (cfg : Config) (cur : Currency A C)

open CandidateMetadata AutoCompoundDelegations

/-- `join_candidates`. -/
def joinCandidates (s : State A C) (acc : A) (bond : Nat) : Except Error (State A C) := do
  if !s.isWhiteList acc then throw .candidateUnauthorized
  if s.isCandidate acc then throw .candidateExists
  if s.isDelegator acc then throw .delegatorExists
  if bond < cfg.minCandidateStk then throw .candidateBondBelowMin
  let (inserted, candidates) := SortedVec.insertKey Bond.owner ⟨acc, bond⟩ s.candidatePool
  if !inserted then throw .candidateExists
  if cur.freeBalance s.currency acc < bond then throw .insufficientBalance
  let some currency := cur.reserve s.currency acc bond | throw .currency
  pure { s with
    currency := currency
    candidateInfo := Function.update s.candidateInfo acc (some (CandidateMetadata.new bond))
    topDelegations := Function.update s.topDelegations acc (some .empty)
    bottomDelegations := Function.update s.bottomDelegations acc (some .empty)
    candidatePool := candidates
    total := s.total + bond }

/-- `schedule_leave_candidates`: leaves the pool at once. -/
def scheduleLeaveCandidates (s : State A C) (collator : A) : Except Error (State A C) := do
  let some state := s.candidateInfo collator | throw .candidateDNE
  let (_, state) ← state.scheduleLeave cfg s.round
  let (removed, candidates) := SortedVec.removeKey Bond.owner collator s.candidatePool
  let s := if removed then { s with candidatePool := candidates } else s
  pure { s with candidateInfo := Function.update s.candidateInfo collator (some state) }

/-- The `return_stake` closure of `execute_leave_candidates`, for one bond of the
    leaving candidate: the delegator's stake comes back, the delegation, its
    request and auto-compounding entry go, and so does the delegator's state when
    nothing remains bonded. -/
def returnStake (candidate : A) (s : State A C) (bond : Bond A) : Except Error (State A C) := do
  let s := { s with currency := cur.unreserve s.currency bond.owner bond.amount }
  let some delegator := s.delegatorState bond.owner
    | throw (.aborted "Collator state and delegator state are consistent.")
  match delegator.rmDelegation candidate with
  | (some remaining, delegator) =>
    let (delegator, s) := delegationRemoveRequestWithState s candidate bond.owner delegator
    let s := removeAutoCompound s candidate bond.owner
    if remaining = 0 then
      pure { s with delegatorState := Function.update s.delegatorState bond.owner none }
    else
      pure { s with delegatorState := Function.update s.delegatorState bond.owner (some delegator) }
  | (none, _) => pure s

/-- `execute_leave_candidates`: return every top and bottom bond, then the
    candidate's own; `Total` falls by the bond and the two cached list totals. -/
def executeLeaveCandidates (s : State A C) (candidate : A) : Except Error (State A C) := do
  let some state := s.candidateInfo candidate | throw .candidateDNE
  state.canLeave s.round
  let some top := s.topDelegations candidate | throw (.aborted "CandidateInfo existence checked")
  let s := { s with topDelegations := Function.update s.topDelegations candidate none }
  let s ← top.delegations.foldlM (returnStake cur candidate) s
  let some bottom := s.bottomDelegations candidate
    | throw (.aborted "CandidateInfo existence checked")
  let s := { s with bottomDelegations := Function.update s.bottomDelegations candidate none }
  let s ← bottom.delegations.foldlM (returnStake cur candidate) s
  let totalBacking := state.bond + top.total + bottom.total
  pure { s with
    currency := cur.unreserve s.currency candidate state.bond
    candidateInfo := Function.update s.candidateInfo candidate none
    delegationScheduledRequests := Function.update s.delegationScheduledRequests candidate []
    autoCompoundingDelegations := Function.update s.autoCompoundingDelegations candidate []
    total := s.total - totalBacking }

/-- `cancel_leave_candidates`: back to active and into the pool. -/
def cancelLeaveCandidates (s : State A C) (collator : A) : Except Error (State A C) := do
  let some state := s.candidateInfo collator | throw .candidateDNE
  if !state.isLeaving then throw .candidateNotLeaving
  let state := { state with status := .active }
  let (inserted, candidates) :=
    SortedVec.insertKey Bond.owner ⟨collator, state.totalCounted⟩ s.candidatePool
  if !inserted then throw .alreadyActive
  pure { s with
    candidatePool := candidates
    candidateInfo := Function.update s.candidateInfo collator (some state) }

/-- `go_offline`. -/
def goOffline (s : State A C) (collator : A) : Except Error (State A C) := do
  let some state := s.candidateInfo collator | throw .candidateDNE
  if !state.isActive then throw .alreadyOffline
  let state := { state with status := .idle }
  let (removed, candidates) := SortedVec.removeKey Bond.owner collator s.candidatePool
  let s := if removed then { s with candidatePool := candidates } else s
  pure { s with candidateInfo := Function.update s.candidateInfo collator (some state) }

/-- `go_online`. -/
def goOnline (s : State A C) (collator : A) : Except Error (State A C) := do
  let some state := s.candidateInfo collator | throw .candidateDNE
  if state.isActive then throw .alreadyActive
  if state.isLeaving then throw .cannotGoOnlineIfLeaving
  let state := { state with status := .active }
  let (inserted, candidates) :=
    SortedVec.insertKey Bond.owner ⟨collator, state.totalCounted⟩ s.candidatePool
  if !inserted then throw .alreadyActive
  pure { s with
    candidatePool := candidates
    candidateInfo := Function.update s.candidateInfo collator (some state) }

/-- `candidate_bond_more`. -/
def candidateBondMore (s : State A C) (collator : A) (more : Nat) : Except Error (State A C) := do
  let some state := s.candidateInfo collator | throw .candidateDNE
  let (state, s) ← state.bondMore cur s collator more
  let s := { s with candidateInfo := Function.update s.candidateInfo collator (some state) }
  if state.isActive then pure (s.updateActive collator state.totalCounted) else pure s

/-- `schedule_candidate_bond_less`. -/
def scheduleCandidateBondLess (s : State A C) (collator : A) (less : Nat) :
    Except Error (State A C) := do
  let some state := s.candidateInfo collator | throw .candidateDNE
  let (_, state) ← state.scheduleBondLess cfg s.round less
  pure { s with candidateInfo := Function.update s.candidateInfo collator (some state) }

/-- `execute_candidate_bond_less`. -/
def executeCandidateBondLess (s : State A C) (candidate : A) : Except Error (State A C) := do
  let some state := s.candidateInfo candidate | throw .candidateDNE
  let (state, s) ← state.executeBondLess cur s candidate
  pure { s with candidateInfo := Function.update s.candidateInfo candidate (some state) }

/-- `cancel_candidate_bond_less`. -/
def cancelCandidateBondLess (s : State A C) (collator : A) : Except Error (State A C) := do
  let some state := s.candidateInfo collator | throw .candidateDNE
  let state ← state.cancelBondLess
  pure { s with candidateInfo := Function.update s.candidateInfo collator (some state) }

/-- `add_candidates_whitelist` (root). -/
def addCandidatesWhitelist (s : State A C) (candidate : A) : State A C :=
  match SortedVec.binarySearchBy (SortedVec.cmpKey id candidate) s.candidates with
  | .error index => { s with candidates := s.candidates.insertIdx index candidate }
  | .ok _ => s

/-- `remove_candidates_whitelist` (root). -/
def removeCandidatesWhitelist (s : State A C) (candidate : A) : State A C :=
  match SortedVec.binarySearchBy (SortedVec.cmpKey id candidate) s.candidates with
  | .ok index => { s with candidates := s.candidates.eraseIdx index }
  | .error _ => s

end Calls

/-- The calls, each with the account that signed it where the call uses it. -/
inductive Call (A C : Type) where
  | joinCandidates (acc : A) (bond : Nat)
  | scheduleLeaveCandidates (collator : A)
  | executeLeaveCandidates (candidate : A)
  | cancelLeaveCandidates (collator : A)
  | goOffline (collator : A)
  | goOnline (collator : A)
  | candidateBondMore (collator : A) (more : Nat)
  | scheduleCandidateBondLess (collator : A) (less : Nat)
  | executeCandidateBondLess (candidate : A)
  | cancelCandidateBondLess (collator : A)
  | delegate (delegator candidate : A) (amount : Nat)
  | delegateWithAutoCompound (delegator candidate : A) (amount : Nat) (autoCompound : Percent)
  | scheduleLeaveDelegators (delegator : A)
  | executeLeaveDelegators (delegator : A)
  | cancelLeaveDelegators (delegator : A)
  | scheduleRevokeDelegation (delegator collator : A)
  | delegatorBondMore (delegator candidate : A) (more : Nat)
  | scheduleDelegatorBondLess (delegator candidate : A) (less : Nat)
  | executeDelegationRequest (delegator candidate : A)
  | cancelDelegationRequest (delegator candidate : A)
  | setAutoCompound (delegator candidate : A) (value : Percent)
  | addCandidatesWhitelist (candidate : A)
  | removeCandidatesWhitelist (candidate : A)
  | newRound
  | payout (candidate delegator : A) (amount : Nat) (compoundPercent : Percent)
  | setCurrency (c : C)

/-- Dispatch one call. -/
def step (cfg : Config) (cur : Currency A C) (s : State A C) : Call A C → Except Error (State A C)
  | .joinCandidates acc bond => joinCandidates cfg cur s acc bond
  | .scheduleLeaveCandidates collator => scheduleLeaveCandidates cfg s collator
  | .executeLeaveCandidates candidate => executeLeaveCandidates cur s candidate
  | .cancelLeaveCandidates collator => cancelLeaveCandidates s collator
  | .goOffline collator => goOffline s collator
  | .goOnline collator => goOnline s collator
  | .candidateBondMore collator more => candidateBondMore cur s collator more
  | .scheduleCandidateBondLess collator less => scheduleCandidateBondLess cfg s collator less
  | .executeCandidateBondLess candidate => executeCandidateBondLess cur s candidate
  | .cancelCandidateBondLess collator => cancelCandidateBondLess s collator
  | .delegate delegator candidate amount =>
    delegateWithAutoCompound cfg cur s candidate delegator amount 0
  | .delegateWithAutoCompound delegator candidate amount autoCompound =>
    delegateWithAutoCompound cfg cur s candidate delegator amount autoCompound
  | .scheduleLeaveDelegators delegator => delegatorScheduleRevokeAll cfg s delegator
  | .executeLeaveDelegators delegator => delegatorExecuteScheduledRevokeAll cfg cur s delegator
  | .cancelLeaveDelegators delegator => delegatorCancelScheduledRevokeAll s delegator
  | .scheduleRevokeDelegation delegator collator => delegationScheduleRevoke cfg s collator delegator
  | .delegatorBondMore delegator candidate more =>
    (delegationBondMoreWithoutEvent cfg cur s delegator candidate more).map (·.2)
  | .scheduleDelegatorBondLess delegator candidate less =>
    delegationScheduleBondDecrease cfg s candidate delegator less
  | .executeDelegationRequest delegator candidate =>
    delegationExecuteScheduledRequest cfg cur s candidate delegator
  | .cancelDelegationRequest delegator candidate => delegationCancelRequest s candidate delegator
  | .setAutoCompound delegator candidate value => setAutoCompound s candidate delegator value
  | .addCandidatesWhitelist candidate => .ok (addCandidatesWhitelist s candidate)
  | .removeCandidatesWhitelist candidate => .ok (removeCandidatesWhitelist s candidate)
  | .newRound => .ok { s with round := s.round + 1 }
  | .payout candidate delegator amount compoundPercent =>
    .ok (mintAndCompound cfg cur s amount compoundPercent candidate delegator)
  | .setCurrency c => .ok { s with currency := c }

/-- A genesis state: no candidates, delegators, requests or pool, a sorted
    whitelist, round 1 (`RoundInfo::new(1, 0, ..)`), and any currency. -/
def Genesis (s : State A C) : Prop :=
  (∀ a, s.candidateInfo a = none) ∧ (∀ a, s.topDelegations a = none) ∧
  (∀ a, s.bottomDelegations a = none) ∧ (∀ a, s.delegatorState a = none) ∧
  (∀ a, s.delegationScheduledRequests a = []) ∧ (∀ a, s.autoCompoundingDelegations a = []) ∧
  s.total = 0 ∧ s.candidatePool = [] ∧ s.round = 1 ∧ s.candidates.Pairwise (· < ·)

/-- The genesis state with the given whitelist and currency. -/
def genesis (candidates : List A) (c : C) : State A C :=
  ⟨fun _ => none, fun _ => none, fun _ => none, fun _ => none, fun _ => [], fun _ => [], 0, [],
    1, candidates, c⟩

/-- The states a run of successful calls reaches from genesis. -/
def Reachable (cfg : Config) (cur : Currency A C) : State A C → Prop :=
  Reach.Reachable Genesis (step cfg cur)

theorem Genesis.genesis {candidates : List A} (h : candidates.Pairwise (· < ·)) (c : C) :
    Genesis (genesis candidates c) :=
  ⟨fun _ => rfl, fun _ => rfl, fun _ => rfl, fun _ => rfl, fun _ => rfl, fun _ => rfl, rfl, rfl,
    rfl, h⟩

/-! ## The test runtime of `mock.rs` -/

/-- The constants of the test runtime `Test`. -/
def mockConfig : Config where
  maxTopDelegationsPerCandidate := 4
  maxBottomDelegationsPerCandidate := 4
  maxDelegationsPerDelegator := 4
  minCandidateStk := 10
  minDelegation := 3
  minDelegatorStk := 5
  leaveCandidatesDelay := 2
  candidateBondLessDelay := 2
  leaveDelegatorsDelay := 2
  revokeDelegationDelay := 2

/-- `pallet_balances` of the test runtime, over `u64` accounts, each with a free and
    a reserved balance: `reserve` moves free to reserved when the free balance
    covers it, `unreserve` moves back what is reserved up to the amount, and
    `deposit_into_existing` needs an account with a balance. -/
def mockBalances : Currency Nat (Nat → Nat × Nat) where
  freeBalance c a := (c a).1
  reserve c a n :=
    if n ≤ (c a).1 then some (Function.update c a ((c a).1 - n, (c a).2 + n)) else none
  unreserve c a n := Function.update c a ((c a).1 + min n (c a).2, (c a).2 - min n (c a).2)
  depositIntoExisting c a n :=
    if (c a).1 + (c a).2 = 0 then none else some (Function.update c a ((c a).1 + n, (c a).2))

end Staking
end Litentry
