import Litentry.Staking.Candidate

/-!
# The delegator side: delegating, requests, bond changes

`auto_compound.rs` (`delegate_with_auto_compound`, `set_auto_compound`),
`delegation_requests.rs` (scheduling, cancelling and executing a request towards
one collator, and the revoke-all of leaving delegators), the delegator half of a
bond increase (`Delegator::increase_delegation`,
`delegation_bond_more_without_event`), `delegator_leaves_candidate`, and the
payout hook's `mint_and_compound`.

Each call is a function of the state to the next state or an error; the
dispatch of a call is transactional, so an error leaves the state as it was.
`mint_and_compound` runs inside `on_initialize`, which is not: it cannot fail,
and a failed compounding leaves the minted reward where it is.
-/

set_option autoImplicit false

namespace Litentry
namespace Staking

variable {A C : Type} [LinearOrder A]

section Calls

variable (cfg : Config) (cur : Currency A C)

open CandidateMetadata AutoCompoundDelegations

/-- `AutoCompoundDelegations::delegate_with_auto_compound`. The auto-compounding
    vector is read before the candidate side runs and written back after it. -/
def delegateWithAutoCompound (s : State A C) (candidate delegator : A) (amount : Nat)
    (autoCompound : Percent) : Except Error (State A C) := do
  if cur.freeBalance s.currency delegator < amount then throw .insufficientBalance
  let delegatorState ← match s.delegatorState delegator with
    | some state => do
      -- delegation after first
      if amount < cfg.minDelegation then throw .delegationBelowMin
      if cfg.maxDelegationsPerDelegator ≤ state.delegations.length then
        throw .exceedMaxDelegationsPerDelegator
      let (added, state) := state.addDelegation ⟨candidate, amount⟩
      if !added then throw .alreadyDelegatedCandidate
      pure state
    | none => do
      -- first delegation
      if amount < cfg.minDelegatorStk then throw .delegatorBondBelowMin
      if s.isCandidate delegator then throw .candidateExists
      pure (Delegator.new delegator candidate amount)
  let some candidateState := s.candidateInfo candidate | throw .candidateDNE
  let autoCompoundingState :=
    if autoCompound ≠ 0 then some (s.autoCompoundingDelegations candidate) else none
  let ((_, lessTotalStaked), candidateState, s) ←
    addDelegation cfg cur s candidateState candidate ⟨delegator, amount⟩
  if cur.freeBalance s.currency delegator < amount then throw .insufficientBalance
  let some currency := cur.reserve s.currency delegator amount | throw .currency
  let netTotalIncrease := match lessTotalStaked with
    | some less => amount - less
    | none => amount
  let newTotalLocked := s.total + netTotalIncrease
  let configs := match autoCompoundingState with
    | some state => Function.update s.autoCompoundingDelegations candidate
        (setForDelegator state delegator autoCompound).2
    | none => s.autoCompoundingDelegations
  pure { s with
    currency := currency
    autoCompoundingDelegations := configs
    total := newTotalLocked
    candidateInfo := Function.update s.candidateInfo candidate (some candidateState)
    delegatorState := Function.update s.delegatorState delegator (some delegatorState) }

/-- `AutoCompoundDelegations::set_auto_compound`: zero removes the entry. -/
def setAutoCompound (s : State A C) (candidate delegator : A) (value : Percent) :
    Except Error (State A C) := do
  let some delegatorState := s.delegatorState delegator | throw .delegatorDNE
  if !delegatorState.delegations.any (fun b => b.owner = candidate) then throw .delegationDNE
  let configs := s.autoCompoundingDelegations candidate
  let (stateUpdated, configs) :=
    if value = 0 then removeForDelegator configs delegator
    else setForDelegator configs delegator value
  if stateUpdated then
    let configs := Function.update s.autoCompoundingDelegations candidate configs
    pure { s with autoCompoundingDelegations := configs }
  else pure s

/-- `Pallet::delegator_leaves_candidate`: remove the delegation from the candidate
    side, unstake `amount` (the delegator-side figure). -/
def delegatorLeavesCandidate (s : State A C) (candidate delegator : A) (amount : Nat) :
    Except Error (State A C) := do
  let some state := s.candidateInfo candidate | throw .candidateDNE
  let (_, state, s) ← rmDelegationIfExists cfg s state candidate delegator amount
  pure { s with
    currency := cur.unreserve s.currency delegator amount
    total := s.total - amount
    candidateInfo := Function.update s.candidateInfo candidate (some state) }

/-- The part of `Delegator::increase_delegation` before the candidate side: the
    position and amount of the first bond to `candidate`, the candidate's metadata,
    and the currency after the reserve. -/
def Delegator.reserveIncrease (s : State A C) (self : Delegator A) (candidate : A)
    (amount : Nat) : Except Error (Nat × Nat × CandidateMetadata × C) := do
  let some i := self.delegations.findIdx? (fun x => x.owner = candidate)
    | throw .delegationDNE
  let some x := self.delegations[i]? | throw .delegationDNE
  let some collatorState := s.candidateInfo candidate | throw .candidateDNE
  let some currency := cur.reserve s.currency self.id amount | throw .currency
  pure (i, x.amount, collatorState, currency)

/-- `Delegator::increase_delegation`: grow the first bond to `candidate`, reserve,
    and grow the candidate side by the bond's amount before the increase. -/
def Delegator.increaseDelegation (s : State A C) (self : Delegator A) (candidate : A)
    (amount : Nat) : Except Error (Bool × State A C) := do
  let (i, beforeAmount, collatorState, currency) ←
    Delegator.reserveIncrease cur s self candidate amount
  let self := { self with
    delegations := self.delegations.modify i (fun b => ⟨b.owner, b.amount + amount⟩)
    total := self.total + amount }
  let s := { s with currency := currency }
  let before := collatorState.totalCounted
  let (inTop, collatorState, s) ←
    CandidateMetadata.increaseDelegation cfg s collatorState candidate self.id beforeAmount amount
  let after := collatorState.totalCounted
  let s := if collatorState.isActive ∧ before ≠ after then s.updateActive candidate after else s
  pure (inTop, { s with
    candidateInfo := Function.update s.candidateInfo candidate (some collatorState)
    total := s.total + amount
    delegatorState := Function.update s.delegatorState self.id (some self) })

/-- `delegation_bond_more_without_event`: refused while a revoke is pending. -/
def delegationBondMoreWithoutEvent (s : State A C) (delegator candidate : A) (more : Nat) :
    Except Error (Bool × State A C) := do
  if delegationRequestRevokeExists s candidate delegator then throw .pendingDelegationRevoke
  let some state := s.delegatorState delegator | throw .delegatorDNE
  Delegator.increaseDelegation cfg cur s state candidate more

/-- What a failed `delegation_bond_more_without_event` leaves behind outside a
    transaction: the candidate side fails only after the reserve was made, and the
    reserve stays. -/
def delegationBondMoreLeftover (s : State A C) (delegator candidate : A) (more : Nat) :
    State A C :=
  match s.delegatorState delegator with
  | some state =>
    if delegationRequestRevokeExists s candidate delegator then s
    else match Delegator.reserveIncrease cur s state candidate more with
      | .ok (_, _, _, currency) => { s with currency := currency }
      | .error _ => s
  | none => s

/-- `mint_and_compound`, run by the payout hook: mint the reward, then bond
    `compound_percent` of it back; a failure of the compounding is only logged. -/
def mintAndCompound (s : State A C) (amt : Nat) (compoundPercent : Percent)
    (candidate delegator : A) : State A C :=
  match cur.depositIntoExisting s.currency delegator amt with
  | none => s
  | some currency =>
    let s := { s with currency := currency }
    let compoundAmount := compoundPercent.mulCeil amt
    if compoundAmount = 0 then s
    else
      match delegationBondMoreWithoutEvent cfg cur s delegator candidate compoundAmount with
      | .ok (_, s') => s'
      | .error _ => delegationBondMoreLeftover cur s delegator candidate compoundAmount

/-! ## `delegation_requests.rs` -/

/-- `delegation_schedule_revoke`: a `Revoke` of the whole bond. -/
def delegationScheduleRevoke (s : State A C) (collator delegator : A) :
    Except Error (State A C) := do
  let some state := s.delegatorState delegator | throw .delegatorDNE
  let scheduledRequests := s.delegationScheduledRequests collator
  if scheduledRequests.any (fun req => req.delegator = delegator) then
    throw .pendingDelegationRequestAlreadyExists
  let some bondedAmount := state.getBondAmount collator | throw .delegationDNE
  let when := s.round + cfg.revokeDelegationDelay
  let scheduledRequests := scheduledRequests ++ [⟨delegator, when, .revoke bondedAmount⟩]
  let state := { state with lessTotal := state.lessTotal + bondedAmount }
  pure { s with
    delegationScheduledRequests :=
      Function.update s.delegationScheduledRequests collator scheduledRequests
    delegatorState := Function.update s.delegatorState delegator (some state) }

/-- `delegation_schedule_bond_decrease`: the bond must stay above `MinDelegation`
    and the delegator's net total above `MinDelegatorStk`. -/
def delegationScheduleBondDecrease (s : State A C) (collator delegator : A)
    (decreaseAmount : Nat) : Except Error (State A C) := do
  let some state := s.delegatorState delegator | throw .delegatorDNE
  let scheduledRequests := s.delegationScheduledRequests collator
  if scheduledRequests.any (fun req => req.delegator = delegator) then
    throw .pendingDelegationRequestAlreadyExists
  let some bondedAmount := state.getBondAmount collator | throw .delegationDNE
  if bondedAmount ≤ decreaseAmount then throw .delegatorBondBelowMin
  let newAmount := bondedAmount - decreaseAmount
  if newAmount < cfg.minDelegation then throw .delegationBelowMin
  let netTotal := state.total - state.lessTotal
  let maxSubtractedAmount := netTotal - cfg.minDelegatorStk
  if maxSubtractedAmount < decreaseAmount then throw .delegatorBondBelowMin
  let when := s.round + cfg.revokeDelegationDelay
  let scheduledRequests := scheduledRequests ++ [⟨delegator, when, .decrease decreaseAmount⟩]
  let state := { state with lessTotal := state.lessTotal + decreaseAmount }
  pure { s with
    delegationScheduledRequests :=
      Function.update s.delegationScheduledRequests collator scheduledRequests
    delegatorState := Function.update s.delegatorState delegator (some state) }

/-- `delegation_cancel_request`. -/
def delegationCancelRequest (s : State A C) (collator delegator : A) :
    Except Error (State A C) := do
  let some state := s.delegatorState delegator | throw .delegatorDNE
  let (some _, state, scheduledRequests) :=
      cancelRequestWithState delegator state (s.delegationScheduledRequests collator)
    | throw .pendingDelegationRequestDNE
  pure { s with
    delegationScheduledRequests :=
      Function.update s.delegationScheduledRequests collator scheduledRequests
    delegatorState := Function.update s.delegatorState delegator (some state) }

/-- The `Revoke` arm of `delegation_execute_scheduled_request`: a delegator's last
    delegation may always go, another only if `MinDelegatorStk` stays bonded. -/
def executeRevoke (s : State A C) (collator delegator : A) (state : Delegator A)
    (scheduledRequests : List (ScheduledRequest A)) (requestIdx amount : Nat) :
    Except Error (State A C) := do
  let leaving ← if state.delegations.length = 1 then pure true
    else if amount ≤ state.total - cfg.minDelegatorStk then pure false
    else throw .delegatorBondBelowMin
  let scheduledRequests := scheduledRequests.eraseIdx requestIdx
  let state := { state with lessTotal := state.lessTotal - amount }
  let state := (state.rmDelegation collator).2
  let s := removeAutoCompound s collator delegator
  let s ← delegatorLeavesCandidate cfg cur s collator delegator amount
  let requests := Function.update s.delegationScheduledRequests collator scheduledRequests
  let s := { s with delegationScheduledRequests := requests }
  if leaving then
    pure { s with delegatorState := Function.update s.delegatorState delegator none }
  else
    pure { s with delegatorState := Function.update s.delegatorState delegator (some state) }

/-- The `Decrease` arm: the first bond to the collator shrinks, which must leave
    more than nothing and keep the delegator's total above both minimums. -/
def executeDecrease (s : State A C) (collator delegator : A) (state : Delegator A)
    (scheduledRequests : List (ScheduledRequest A)) (requestIdx amount : Nat) :
    Except Error (State A C) := do
  let scheduledRequests := scheduledRequests.eraseIdx requestIdx
  let state := { state with lessTotal := state.lessTotal - amount }
  let some i := state.delegations.findIdx? (fun b => b.owner = collator)
    | throw .delegationDNE
  let some bond := state.delegations[i]? | throw .delegationDNE
  if bond.amount ≤ amount then throw .delegationBelowMin
  let amountBefore := bond.amount
  let state := { state with
    delegations := state.delegations.modify i (fun b => ⟨b.owner, b.amount - amount⟩)
    total := state.total - amount }
  let newTotal := state.total
  if newTotal < cfg.minDelegation then throw .delegationBelowMin
  if newTotal < cfg.minDelegatorStk then throw .delegatorBondBelowMin
  let some collatorInfo := s.candidateInfo collator | throw .candidateDNE
  let s := { s with currency := cur.unreserve s.currency delegator amount }
  let (_, collatorInfo, s) ←
    decreaseDelegation cfg s collatorInfo collator delegator amountBefore amount
  pure { s with
    candidateInfo := Function.update s.candidateInfo collator (some collatorInfo)
    total := s.total - amount
    delegationScheduledRequests :=
      Function.update s.delegationScheduledRequests collator scheduledRequests
    delegatorState := Function.update s.delegatorState delegator (some state) }

/-- `delegation_execute_scheduled_request`. -/
def delegationExecuteScheduledRequest (s : State A C) (collator delegator : A) :
    Except Error (State A C) := do
  let some state := s.delegatorState delegator | throw .delegatorDNE
  let scheduledRequests := s.delegationScheduledRequests collator
  let some requestIdx := scheduledRequests.findIdx? (fun req => req.delegator = delegator)
    | throw .pendingDelegationRequestDNE
  let some request := scheduledRequests[requestIdx]? | throw .pendingDelegationRequestDNE
  if s.round < request.whenExecutable then throw .pendingDelegationRequestNotDueYet
  match request.action with
  | .revoke amount => executeRevoke cfg cur s collator delegator state scheduledRequests requestIdx amount
  | .decrease amount =>
    executeDecrease cfg cur s collator delegator state scheduledRequests requestIdx amount

/-- One turn of the loop of `delegator_schedule_revoke_all`: cancel the request
    towards the bond's collator, put back a `Revoke` (the same one if it was
    already a `Revoke`), and add the bond to `less_total`. -/
def revokeAllStep (s : State A C) (delegator : A) (when : Nat)
    (acc : Delegator A × Nat × List (A × List (ScheduledRequest A))) (bond : Bond A) :
    Delegator A × Nat × List (A × List (ScheduledRequest A)) :=
  let (state, existingRevokeCount, updated) := acc
  let (request, state, scheduledRequests) :=
    cancelRequestWithState delegator state (s.delegationScheduledRequests bond.owner)
  let fresh : ScheduledRequest A := ⟨delegator, when, .revoke bond.amount⟩
  let (existingRevokeCount, request) := match request with
    | some req => match req.action with
      | .revoke _ => (existingRevokeCount + 1, req)
      | .decrease _ => (existingRevokeCount, fresh)
    | none => (existingRevokeCount, fresh)
  ({ state with lessTotal := state.lessTotal + bond.amount }, existingRevokeCount,
    updated ++ [(bond.owner, scheduledRequests ++ [request])])

/-- Write the per-collator request vectors a loop collected. -/
def writeRequests (s : State A C) (updated : List (A × List (ScheduledRequest A))) :
    State A C :=
  updated.foldl (fun s u =>
    let requests := Function.update s.delegationScheduledRequests u.1 u.2
    { s with delegationScheduledRequests := requests }) s

@[simp] theorem writeRequests_candidatePool :
    ∀ (s : State A C) (updated : List (A × List (ScheduledRequest A))),
      (writeRequests s updated).candidatePool = s.candidatePool
  | _, [] => rfl
  | _, _ :: us => writeRequests_candidatePool _ us

@[simp] theorem writeRequests_candidateInfo :
    ∀ (s : State A C) (updated : List (A × List (ScheduledRequest A))),
      (writeRequests s updated).candidateInfo = s.candidateInfo
  | _, [] => rfl
  | _, _ :: us => writeRequests_candidateInfo _ us

/-- `delegator_schedule_revoke_all`: refused when every delegation already has a
    `Revoke` pending. -/
def delegatorScheduleRevokeAll (s : State A C) (delegator : A) : Except Error (State A C) := do
  let some state := s.delegatorState delegator | throw .delegatorDNE
  let when := s.round + cfg.leaveDelegatorsDelay
  let (state, existingRevokeCount, updated) :=
    state.delegations.foldl (revokeAllStep s delegator when) (state, 0, [])
  if existingRevokeCount = state.delegations.length then throw .delegatorAlreadyLeaving
  let s := writeRequests s updated
  pure { s with delegatorState := Function.update s.delegatorState delegator (some state) }

/-- Whether the delegator has a `Revoke` pending towards `collator`. -/
def hasRevoke (s : State A C) (collator delegator : A) : Bool :=
  (s.delegationScheduledRequests collator).any fun req =>
    req.delegator = delegator && match req.action with
      | .revoke _ => true
      | .decrease _ => false

/-- `delegator_cancel_scheduled_revoke_all`: every delegation must have a `Revoke`
    pending; all its requests are cancelled. -/
def delegatorCancelScheduledRevokeAll (s : State A C) (delegator : A) :
    Except Error (State A C) := do
  let some state := s.delegatorState delegator | throw .delegatorDNE
  if !state.delegations.all (fun bond => hasRevoke s bond.owner delegator) then
    throw .delegatorNotLeaving
  let (state, updated) := state.delegations.foldl (fun acc bond =>
      let (_, state, scheduledRequests) :=
        cancelRequestWithState delegator acc.1 (s.delegationScheduledRequests bond.owner)
      (state, acc.2 ++ [(bond.owner, scheduledRequests)])) (state, [])
  let s := writeRequests s updated
  pure { s with delegatorState := Function.update s.delegatorState delegator (some state) }

/-- The validation of `delegator_execute_scheduled_revoke_all` for one bond: its
    collator's requests, and the index of a `Revoke` that is due. -/
def validateRevoke (s : State A C) (delegator : A) (bond : Bond A) :
    Except Error (Bond A × List (ScheduledRequest A) × Nat) := do
  let scheduledRequests := s.delegationScheduledRequests bond.owner
  let some requestIdx := scheduledRequests.findIdx? (fun req =>
      req.delegator = delegator && match req.action with
        | .revoke _ => true
        | .decrease _ => false)
    | throw .delegatorNotLeaving
  let some request := scheduledRequests[requestIdx]? | throw .delegatorNotLeaving
  if s.round < request.whenExecutable then throw .delegatorCannotLeaveYet
  pure (bond, scheduledRequests, requestIdx)

/-- `delegator_execute_scheduled_revoke_all`: every delegation must have a due
    `Revoke`; each is removed from its candidate (a failure there is only logged),
    its request and auto-compounding entry go, and so does the delegator's state. -/
def delegatorExecuteScheduledRevokeAll (s : State A C) (delegator : A) :
    Except Error (State A C) := do
  let some state := s.delegatorState delegator | throw .delegatorDNE
  let validated ← state.delegations.mapM (validateRevoke s delegator)
  let (s, updated) := validated.foldl (fun acc v =>
      let (bond, scheduledRequests, requestIdx) := v
      let s := match delegatorLeavesCandidate cfg cur acc.1 bond.owner delegator bond.amount with
        | .ok s' => s'
        | .error _ => acc.1
      let s := removeAutoCompound s bond.owner delegator
      (s, acc.2 ++ [(bond.owner, scheduledRequests.eraseIdx requestIdx)])) (s, [])
  let s := writeRequests s updated
  pure { s with delegatorState := Function.update s.delegatorState delegator none }

end Calls

end Staking
end Litentry
