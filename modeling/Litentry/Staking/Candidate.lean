import Litentry.Staking.Storage

/-!
# `CandidateMetadata`: the candidate side of a delegation

The methods of `CandidateMetadata` in `types.rs`. Each takes the candidate's
metadata by `&mut self` and reads and writes storage besides: the two delegation
lists of the candidate, the pool (through `reset_top_data`), and, when a new
bottom delegation kicks the lowest one, the kicked delegator's state, requests
and auto-compounding entry. So each is a function of the state and the metadata
returning both, with the method's own result; the caller writes the metadata
back to `CandidateInfo`.

Where a method returns `Err` the caller's dispatch fails; where it panics (an
`expect` on a missing entry, `pop` or `remove(0)` of an empty vector) the result
is `.error (.aborted _)`. No method writes storage before its last point of
failure except through a nested call that has itself succeeded, so an error here
never carries a half-written state.
-/

set_option autoImplicit false

namespace Litentry
namespace Staking

/-- `DelegatorAdded`: where a new delegation went. -/
inductive DelegatorAdded where
  | addedToTop (newTotal : Nat)
  | addedToBottom
  deriving DecidableEq, Repr

namespace CandidateMetadata

variable {A C : Type} [LinearOrder A]

/-- `CandidateMetadata::new`. -/
def new (bond : Nat) : CandidateMetadata :=
  ⟨bond, 0, bond, 0, 0, 0, .empty, .empty, none, .active⟩

/-- `is_active`. -/
def isActive (m : CandidateMetadata) : Bool :=
  match m.status with
  | .active => true
  | _ => false

/-- `is_leaving`. -/
def isLeaving (m : CandidateMetadata) : Bool :=
  match m.status with
  | .leaving _ => true
  | _ => false

section Methods

variable (cfg : Config) (cur : Currency A C)

/-- `reset_top_data`: refresh the top metadata from the list; when the counted
    total changed and the candidate is active, refresh its pool entry. -/
def resetTopData (s : State A C) (m : CandidateMetadata) (candidate : A)
    (top : Delegations A) : CandidateMetadata × State A C :=
  let m' := { m with
    lowestTopDelegationAmount := top.lowestDelegationAmount
    topCapacity := top.topCapacity cfg
    totalCounted := m.bond + top.total }
  if m.totalCounted ≠ m'.totalCounted ∧ m'.isActive then
    (m', s.updateActive candidate m'.totalCounted)
  else (m', s)

/-- `reset_bottom_data`. -/
def resetBottomData (m : CandidateMetadata) (bottom : Delegations A) : CandidateMetadata :=
  { m with
    lowestBottomDelegationAmount := bottom.lowestDelegationAmount
    highestBottomDelegationAmount := bottom.highestDelegationAmount
    bottomCapacity := bottom.bottomCapacity cfg }

/-- The kick inside `add_bottom_delegation`: the popped lowest bottom bond's
    delegator gets its stake back and loses the delegation, its pending request
    towards `candidate` and its auto-compounding entry; its state goes when this
    was its only delegation. -/
def kickBottom (s : State A C) (candidate : A) (kicked : Bond A) :
    Except Error (State A C) := do
  let s := { s with currency := cur.unreserve s.currency kicked.owner kicked.amount }
  let some state := s.delegatorState kicked.owner
    | throw (.aborted "Delegation existence => DelegatorState existence")
  let leaving := state.delegations.length = 1
  let state := (state.rmDelegation candidate).2
  let (state, s) := delegationRemoveRequestWithState s candidate kicked.owner state
  let s := AutoCompoundDelegations.removeAutoCompound s candidate kicked.owner
  if leaving then
    pure { s with delegatorState := Function.update s.delegatorState kicked.owner none }
  else
    pure { s with delegatorState := Function.update s.delegatorState kicked.owner (some state) }

/-- `add_bottom_delegation`: when the bottom list is at capacity, pop and kick its
    lowest bond; count the new delegation unless it was bumped from the top or
    replaced a kicked one; insert it. -/
def addBottomDelegation (s : State A C) (m : CandidateMetadata) (bumpedFromTop : Bool)
    (candidate : A) (delegation : Bond A) : Except Error (CandidateMetadata × State A C) := do
  let some bottom := s.bottomDelegations candidate
    | throw (.aborted "CandidateInfo existence => BottomDelegations existence")
  let (increaseDelegationCount, bottom, s) ←
    if bottom.delegations.length = cfg.maxBottomDelegationsPerCandidate then do
      let some kicked := bottom.delegations.getLast?
        | throw (.aborted "if at full capacity (>0), then >0 bottom delegations exist; qed")
      let bottom : Delegations A := ⟨bottom.delegations.dropLast, bottom.total - kicked.amount⟩
      let s ← kickBottom cur s candidate kicked
      pure (false, bottom, s)
    else pure (!bumpedFromTop, bottom, s)
  let m := if increaseDelegationCount then { m with delegationCount := m.delegationCount + 1 }
    else m
  let bottom := bottom.insertSortedGreatestToLeast delegation
  let m := resetBottomData cfg m bottom
  pure (m, { s with bottomDelegations := Function.update s.bottomDelegations candidate (some bottom) })

/-- `add_top_delegation`: when the top list is at capacity, pop its lowest bond
    into the bottom (answering the lowest bottom amount when that kicks one);
    insert the new bond and refresh the top metadata. -/
def addTopDelegation (s : State A C) (m : CandidateMetadata) (candidate : A)
    (delegation : Bond A) : Except Error (Option Nat × CandidateMetadata × State A C) := do
  let some top := s.topDelegations candidate
    | throw (.aborted "CandidateInfo existence => TopDelegations existence")
  let (lessTotalStaked, top, m, s) ←
    if top.delegations.length = cfg.maxTopDelegationsPerCandidate then do
      let some newBottom := top.delegations.getLast? | throw (.aborted "")
      let top : Delegations A := ⟨top.delegations.dropLast, top.total - newBottom.amount⟩
      let less := if m.bottomCapacity = .full then some m.lowestBottomDelegationAmount else none
      let (m, s) ← addBottomDelegation cfg cur s m true candidate newBottom
      pure (less, top, m, s)
    else pure (none, top, m, s)
  let top := top.insertSortedGreatestToLeast delegation
  let (m, s) := resetTopData cfg s m candidate top
  -- only count the delegation when no bottom one was kicked for it
  let m := if lessTotalStaked.isNone then { m with delegationCount := m.delegationCount + 1 }
    else m
  pure (lessTotalStaked, m, { s with topDelegations := Function.update s.topDelegations candidate (some top) })

/-- `add_delegation`: into the top unless the top is full and the new amount is
    not above its lowest; into a full bottom only above its lowest, which is then
    kicked and whose amount is answered. -/
def addDelegation (s : State A C) (m : CandidateMetadata) (candidate : A)
    (delegation : Bond A) :
    Except Error ((DelegatorAdded × Option Nat) × CandidateMetadata × State A C) :=
  match m.topCapacity with
  | .full =>
    if m.lowestTopDelegationAmount < delegation.amount then do
      let (less, m, s) ← addTopDelegation cfg cur s m candidate delegation
      pure ((.addedToTop m.totalCounted, less), m, s)
    else do
      let less ← if m.bottomCapacity = .full then
          if delegation.amount > m.lowestBottomDelegationAmount then
            pure (some m.lowestBottomDelegationAmount)
          else throw .cannotDelegateLessThanOrEqualToLowestBottomWhenFull
        else pure none
      let (m, s) ← addBottomDelegation cfg cur s m false candidate delegation
      pure ((.addedToBottom, less), m, s)
  | _ => do
    -- the amount `add_top_delegation` answers is dropped on this arm
    let (_, m, s) ← addTopDelegation cfg cur s m candidate delegation
    pure ((.addedToTop m.totalCounted, none), m, s)

/-- The `filter` of `rm_*_delegation`: the list without the delegator's bonds, and
    the amount of the last one it dropped. -/
def takeOut (l : List (Bond A)) (delegator : A) : List (Bond A) × Option Nat :=
  (l.filter (fun d => d.owner ≠ delegator),
    ((l.filter (fun d => d.owner = delegator)).getLast?.map (·.amount)))

/-- `rm_top_delegation`: drop the delegator from the top, promote the highest
    bottom bond if there is one, refresh the metadata; answers whether the counted
    total stayed the same. -/
def rmTopDelegation (s : State A C) (m : CandidateMetadata) (candidate delegator : A) :
    Except Error (Bool × CandidateMetadata × State A C) := do
  let oldTotalCounted := m.totalCounted
  let some top := s.topDelegations candidate
    | throw (.aborted "CandidateInfo exists => TopDelegations exists")
  let (rest, actualAmountOption) := takeOut top.delegations delegator
  let some actualAmount := actualAmountOption | throw .delegationDNE
  let top : Delegations A := ⟨rest, top.total - actualAmount⟩
  let (top, m, s) ← if m.bottomCapacity ≠ .empty then do
      let some bottom := s.bottomDelegations candidate
        | throw (.aborted "bottom is nonempty as just checked")
      let highest :: others := bottom.delegations
        | throw (.aborted "removal index (is 0) should be < len (is 0)")
      let bottom : Delegations A := ⟨others, bottom.total - highest.amount⟩
      let m := resetBottomData cfg m bottom
      let s := { s with bottomDelegations := Function.update s.bottomDelegations candidate (some bottom) }
      pure (top.insertSortedGreatestToLeast highest, m, s)
    else pure (top, m, s)
  let (m, s) := resetTopData cfg s m candidate top
  let m := { m with delegationCount := m.delegationCount - 1 }
  pure (oldTotalCounted = m.totalCounted, m,
    { s with topDelegations := Function.update s.topDelegations candidate (some top) })

/-- `rm_bottom_delegation`. -/
def rmBottomDelegation (s : State A C) (m : CandidateMetadata) (candidate delegator : A) :
    Except Error (Bool × CandidateMetadata × State A C) := do
  let some bottom := s.bottomDelegations candidate
    | throw (.aborted "CandidateInfo exists => BottomDelegations exists")
  let (rest, actualAmountOption) := takeOut bottom.delegations delegator
  let some actualAmount := actualAmountOption | throw .delegationDNE
  let bottom : Delegations A := ⟨rest, bottom.total - actualAmount⟩
  let m := resetBottomData cfg m bottom
  let m := { m with delegationCount := m.delegationCount - 1 }
  pure (false, m,
    { s with bottomDelegations := Function.update s.bottomDelegations candidate (some bottom) })

/-- `rm_delegation_if_exists`: look in the top when the top is not full or the
    amount is at least its lowest, in the bottom otherwise; where the lowest top
    equals the highest bottom the bond may be in either, so a miss in the top
    falls back to the bottom. -/
def rmDelegationIfExists (s : State A C) (m : CandidateMetadata) (candidate delegator : A)
    (amount : Nat) : Except Error (Bool × CandidateMetadata × State A C) :=
  let amountGeqLowestTop := m.lowestTopDelegationAmount ≤ amount
  let topIsNotFull := m.topCapacity ≠ .full
  let lowestTopEqHighestBottom := m.lowestTopDelegationAmount = m.highestBottomDelegationAmount
  if topIsNotFull ∨ (amountGeqLowestTop ∧ ¬lowestTopEqHighestBottom) then
    rmTopDelegation cfg s m candidate delegator
  else if amountGeqLowestTop ∧ lowestTopEqHighestBottom then
    match rmTopDelegation cfg s m candidate delegator with
    | .error .delegationDNE => rmBottomDelegation cfg s m candidate delegator
    | result => result
  else rmBottomDelegation cfg s m candidate delegator

/-- The `map` of the increase and decrease methods: `f` applied to the delegator's
    bonds, and whether there was one. -/
def mapOwner (l : List (Bond A)) (delegator : A) (f : Nat → Nat) : List (Bond A) × Bool :=
  (l.map (fun d => if d.owner = delegator then ⟨d.owner, f d.amount⟩ else d),
    l.any (fun d => d.owner = delegator))

/-- `increase_top_delegation`. -/
def increaseTopDelegation (s : State A C) (m : CandidateMetadata) (candidate delegator : A)
    (more : Nat) : Except Error (Bool × CandidateMetadata × State A C) := do
  let some top := s.topDelegations candidate
    | throw (.aborted "CandidateInfo exists => TopDelegations exists")
  let (ds, inTop) := mapOwner top.delegations delegator (· + more)
  if ¬inTop then throw .delegationDNE
  let top := Delegations.sortGreatestToLeast ⟨ds, top.total + more⟩
  let (m, s) := resetTopData cfg s m candidate top
  pure (true, m, { s with topDelegations := Function.update s.topDelegations candidate (some top) })

/-- `increase_bottom_delegation`: above the lowest top the bond moves up, and a
    full top gives up its lowest bond to the bottom; otherwise it grows in place. -/
def increaseBottomDelegation (s : State A C) (m : CandidateMetadata) (candidate delegator : A)
    (bond more : Nat) : Except Error (Bool × CandidateMetadata × State A C) := do
  let some bottom := s.bottomDelegations candidate | throw .candidateDNE
  let (inTopAfter, bottom, m, s) ←
    if bond + more > m.lowestTopDelegationAmount then do
      let (rest, found) := takeOut bottom.delegations delegator
      let some amount := found | throw .delegationDNE
      let delegation : Bond A := ⟨delegator, amount + more⟩
      -- the bottom total is lowered by the delegator-side `bond`
      let bottom : Delegations A := ⟨rest, bottom.total - bond⟩
      let some top := s.topDelegations candidate
        | throw (.aborted "CandidateInfo existence => TopDelegations existence")
      let (top, bottom) ← if top.topCapacity cfg = .full then do
          let some newBottom := top.delegations.getLast?
            | throw (.aborted "Top capacity full => Exists at least 1 top delegation")
          let top : Delegations A := ⟨top.delegations.dropLast, top.total - newBottom.amount⟩
          pure (top, bottom.insertSortedGreatestToLeast newBottom)
        else pure (top, bottom)
      let top := top.insertSortedGreatestToLeast delegation
      let (m, s) := resetTopData cfg s m candidate top
      pure (true, bottom, m,
        { s with topDelegations := Function.update s.topDelegations candidate (some top) })
    else do
      let (ds, inBottom) := mapOwner bottom.delegations delegator (· + more)
      if ¬inBottom then throw .delegationDNE
      pure (false, Delegations.sortGreatestToLeast ⟨ds, bottom.total + more⟩, m, s)
  let m := resetBottomData cfg m bottom
  pure (inTopAfter, m,
    { s with bottomDelegations := Function.update s.bottomDelegations candidate (some bottom) })

/-- `increase_delegation`: top or bottom by the delegator-side `bond`, as in
    `rm_delegation_if_exists`. -/
def increaseDelegation (s : State A C) (m : CandidateMetadata) (candidate delegator : A)
    (bond more : Nat) : Except Error (Bool × CandidateMetadata × State A C) :=
  let lowestTopEqHighestBottom := m.lowestTopDelegationAmount = m.highestBottomDelegationAmount
  let bondGeqLowestTop := m.lowestTopDelegationAmount ≤ bond
  if bondGeqLowestTop ∧ ¬lowestTopEqHighestBottom then
    increaseTopDelegation cfg s m candidate delegator more
  else if bondGeqLowestTop ∧ lowestTopEqHighestBottom then
    match increaseTopDelegation cfg s m candidate delegator more with
    | .error .delegationDNE => increaseBottomDelegation cfg s m candidate delegator bond more
    | result => result
  else increaseBottomDelegation cfg s m candidate delegator bond more

/-- `decrease_top_delegation`: below the highest bottom, with a full top and a
    nonempty bottom, the bond swaps places with the highest bottom one; otherwise
    it shrinks in place. -/
def decreaseTopDelegation (s : State A C) (m : CandidateMetadata) (candidate delegator : A)
    (bond less : Nat) : Except Error (Bool × CandidateMetadata × State A C) := do
  let bondAfterLessThanHighestBottom := bond - less < m.highestBottomDelegationAmount
  let fullTopAndNonemptyBottom := m.topCapacity = .full ∧ m.bottomCapacity ≠ .empty
  let some top := s.topDelegations candidate | throw .candidateDNE
  let (inTopAfter, top, m, s) ←
    if bondAfterLessThanHighestBottom ∧ fullTopAndNonemptyBottom then do
      -- the filter's closure lowers the top total by every bond it drops
      let dropped := top.delegations.filter (fun d => d.owner = delegator)
      let top : Delegations A :=
        ⟨top.delegations.filter (fun d => d.owner ≠ delegator),
          dropped.foldl (fun t d => t - d.amount) top.total⟩
      let some amount := dropped.getLast?.map (·.amount) | throw .delegationDNE
      let delegation : Bond A := ⟨delegator, amount - less⟩
      let some bottom := s.bottomDelegations candidate
        | throw (.aborted "CandidateInfo existence => BottomDelegations existence")
      let highest :: others := bottom.delegations
        | throw (.aborted "removal index (is 0) should be < len (is 0)")
      let bottom : Delegations A := ⟨others, bottom.total - highest.amount⟩
      let top := top.insertSortedGreatestToLeast highest
      let bottom := bottom.insertSortedGreatestToLeast delegation
      let m := resetBottomData cfg m bottom
      pure (false, top, m,
        { s with bottomDelegations := Function.update s.bottomDelegations candidate (some bottom) })
    else do
      let (ds, isInTop) := mapOwner top.delegations delegator (· - less)
      if ¬isInTop then throw .delegationDNE
      pure (true, Delegations.sortGreatestToLeast ⟨ds, top.total - less⟩, m, s)
  let (m, s) := resetTopData cfg s m candidate top
  pure (inTopAfter, m, { s with topDelegations := Function.update s.topDelegations candidate (some top) })

/-- `decrease_bottom_delegation`: the bond shrinks in place and the list is sorted
    again; `total` is left as it was. -/
def decreaseBottomDelegation (s : State A C) (m : CandidateMetadata) (candidate delegator : A)
    (less : Nat) : Except Error (Bool × CandidateMetadata × State A C) := do
  let some bottom := s.bottomDelegations candidate
    | throw (.aborted "CandidateInfo exists => BottomDelegations exists")
  let (ds, inBottom) := mapOwner bottom.delegations delegator (· - less)
  if ¬inBottom then throw .delegationDNE
  let bottom := Delegations.sortGreatestToLeast ⟨ds, bottom.total⟩
  let m := resetBottomData cfg m bottom
  pure (false, m, { s with bottomDelegations := Function.update s.bottomDelegations candidate (some bottom) })

/-- `decrease_delegation`: top or bottom by the delegator-side `bond`. -/
def decreaseDelegation (s : State A C) (m : CandidateMetadata) (candidate delegator : A)
    (bond less : Nat) : Except Error (Bool × CandidateMetadata × State A C) :=
  let lowestTopEqHighestBottom := m.lowestTopDelegationAmount = m.highestBottomDelegationAmount
  let bondGeqLowestTop := m.lowestTopDelegationAmount ≤ bond
  if bondGeqLowestTop ∧ ¬lowestTopEqHighestBottom then
    decreaseTopDelegation cfg s m candidate delegator bond less
  else if bondGeqLowestTop ∧ lowestTopEqHighestBottom then
    match decreaseTopDelegation cfg s m candidate delegator bond less with
    | .error .delegationDNE => decreaseBottomDelegation cfg s m candidate delegator less
    | result => result
  else decreaseBottomDelegation cfg s m candidate delegator less

end Methods

end CandidateMetadata

end Staking
end Litentry
