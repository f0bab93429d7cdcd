import Litentry.Staking.Types

/-!
# Storage helpers shared by the calls

The small pallet functions several calls go through: the queries `is_candidate`,
`is_delegator` and `is_white_list`; `update_active`, which refreshes a
candidate's entry in `CandidatePool`; the auto-compounding vector of a candidate
(`auto_compound.rs`), edited by bisection on the delegator; and the two helpers of
`delegation_requests.rs` that drop a delegator's pending request towards a
collator and credit its amount back to `less_total`.
-/

set_option autoImplicit false

namespace Litentry
namespace Staking

variable {A C : Type} [LinearOrder A]

namespace State

/-- `Pallet::is_candidate`. -/
def isCandidate (s : State A C) (acc : A) : Bool := (s.candidateInfo acc).isSome

/-- `Pallet::is_delegator`. -/
def isDelegator (s : State A C) (acc : A) : Bool := (s.delegatorState acc).isSome

/-- `Pallet::is_white_list`: `binary_search` on the sorted `Candidates` vector. -/
def isWhiteList (s : State A C) (acc : A) : Bool :=
  match SortedVec.binarySearchBy (SortedVec.cmpKey id acc) s.candidates with
  | .ok _ => true
  | .error _ => false

/-- `Pallet::update_active`: remove the candidate's bond from the pool and insert it
    again with the new total. -/
def updateActive (s : State A C) (candidate : A) (total : Nat) : State A C :=
  { s with candidatePool :=
      (SortedVec.insertKey Bond.owner ⟨candidate, total⟩
        (SortedVec.removeKey Bond.owner candidate s.candidatePool).2).2 }

@[simp] theorem updateActive_candidateInfo (s : State A C) (candidate : A) (total : Nat) :
    (s.updateActive candidate total).candidateInfo = s.candidateInfo := rfl

end State

/-! ## Auto-compounding configuration -/

namespace AutoCompoundDelegations

/-- `set_for_delegator`: overwrite the value at the delegator's entry, answering
    whether it changed, or insert a new entry at the insertion point. -/
def setForDelegator (l : List (AutoCompoundConfig A)) (delegator : A) (value : Percent) :
    Bool × List (AutoCompoundConfig A) :=
  match SortedVec.binarySearchBy (SortedVec.cmpKey AutoCompoundConfig.delegator delegator) l with
  | .ok index =>
    if (l[index]?.map (·.value)) = some value then (false, l)
    else (true, l.modify index fun c => { c with value := value })
  | .error index => (true, l.insertIdx index ⟨delegator, value⟩)

/-- `remove_for_delegator`. -/
def removeForDelegator (l : List (AutoCompoundConfig A)) (delegator : A) :
    Bool × List (AutoCompoundConfig A) :=
  SortedVec.removeKey AutoCompoundConfig.delegator delegator l

/-- `remove_auto_compound`: storage is written only when an entry was removed. -/
def removeAutoCompound (s : State A C) (candidate delegator : A) : State A C :=
  match removeForDelegator (s.autoCompoundingDelegations candidate) delegator with
  | (true, l) =>
    let configs := Function.update s.autoCompoundingDelegations candidate l
    { s with autoCompoundingDelegations := configs }
  | (false, _) => s

section Frame

variable (s : State A C) (candidate delegator : A)

@[simp] theorem removeAutoCompound_candidatePool :
    (removeAutoCompound s candidate delegator).candidatePool = s.candidatePool := by
  unfold removeAutoCompound
  split <;> rfl

@[simp] theorem removeAutoCompound_candidateInfo :
    (removeAutoCompound s candidate delegator).candidateInfo = s.candidateInfo := by
  unfold removeAutoCompound
  split <;> rfl

end Frame

end AutoCompoundDelegations

/-! ## Pending requests -/

/-- `cancel_request_with_state`: remove the delegator's first request from the
    vector and take its amount off `less_total`. -/
def cancelRequestWithState (delegator : A) (state : Delegator A)
    (scheduledRequests : List (ScheduledRequest A)) :
    Option (ScheduledRequest A) × Delegator A × List (ScheduledRequest A) :=
  match scheduledRequests.findIdx? (fun req => req.delegator = delegator) with
  | none => (none, state, scheduledRequests)
  | some requestIdx =>
    match scheduledRequests[requestIdx]? with
    | none => (none, state, scheduledRequests)
    | some request =>
      (some request, { state with lessTotal := state.lessTotal - request.action.amount },
        scheduledRequests.eraseIdx requestIdx)

/-- `delegation_remove_request_with_state`: the same on the stored vector of
    `collator`, written back only when a request was removed. -/
def delegationRemoveRequestWithState (s : State A C) (collator delegator : A)
    (state : Delegator A) : Delegator A × State A C :=
  match cancelRequestWithState delegator state (s.delegationScheduledRequests collator) with
  | (some _, state', reqs) =>
    let requests := Function.update s.delegationScheduledRequests collator reqs
    (state', { s with delegationScheduledRequests := requests })
  | (none, _, _) => (state, s)

section Frame

variable (s : State A C) (collator delegator : A) (state : Delegator A)

@[simp] theorem delegationRemoveRequestWithState_candidatePool :
    (delegationRemoveRequestWithState s collator delegator state).2.candidatePool =
      s.candidatePool := by
  unfold delegationRemoveRequestWithState
  split <;> rfl

@[simp] theorem delegationRemoveRequestWithState_candidateInfo :
    (delegationRemoveRequestWithState s collator delegator state).2.candidateInfo =
      s.candidateInfo := by
  unfold delegationRemoveRequestWithState
  split <;> rfl

end Frame

/-- `delegation_request_revoke_exists`. -/
def delegationRequestRevokeExists (s : State A C) (collator delegator : A) : Bool :=
  (s.delegationScheduledRequests collator).any fun req =>
    req.delegator = delegator && match req.action with
      | .revoke _ => true
      | .decrease _ => false

end Staking
end Litentry
