import Litentry.Lib.SortedVec

/-!
# `pallet_parachain_staking`: the data model

The storage of the staking pallet (`pallets/parachain-staking/src/lib.rs`) and
the types it holds (`types.rs`, `delegation_requests.rs`, `auto_compound.rs`),
over an arbitrary account type `A` ordered as `AccountId` is.

Two choices hold throughout.

* **Balances are `Nat`.** `Balance` is `u128`, and the pallet adds balances with
  `saturating_add`, which is `+` here: the model follows the code on the runs in
  which no such sum reaches `2 ^ 128`, and says nothing of the others. Every amount
  added is stake some account reserved, out of a `u128` total issuance, so such a
  run needs a total that is far from any real chain; no result here proves that it
  cannot happen. `saturating_sub` is `Nat`'s truncated `-`, which is exactly what
  it computes.
* **The currency is a parameter.** `T::Currency` is `pallet_balances`, outside
  this repository. A state carries the currency's own state `c : C`, and a
  `Currency A C` supplies the four operations the pallet calls on it. Nothing
  proved here depends on what they do beyond whether they succeed.

Storage maps are functions: `OptionQuery` maps into `Option`, `ValueQuery` maps
into the value type with its default.
-/

set_option autoImplicit false

namespace Litentry
namespace Staking

/-! ## 1. Bonds and delegation lists -/

/-- `Bond<AccountId, Balance>`. Its `Ord` and `PartialEq` compare `owner` alone. -/
structure Bond (A : Type*) where
  owner : A
  amount : Nat
  deriving DecidableEq, Repr

/-- `CollatorStatus`. -/
inductive CollatorStatus where
  | active
  | idle
  /-- Bonded until the inner round. -/
  | leaving (round : Nat)
  deriving DecidableEq, Repr

/-- `CapacityStatus` of a top or bottom delegation list; `Partial` is `partiallyFull`. -/
inductive CapacityStatus where
  | full
  | empty
  | partiallyFull
  deriving DecidableEq, Repr

/-- `Delegations<AccountId, Balance>`: the `TopDelegations` or `BottomDelegations`
    of a candidate, greatest to least, with the cached `total`. -/
structure Delegations (A : Type*) where
  delegations : List (Bond A)
  total : Nat
  deriving DecidableEq, Repr

/-- `Delegations::default()`. -/
def Delegations.empty {A : Type*} : Delegations A := ⟨[], 0⟩

/-- `CandidateBondLessRequest`. -/
structure CandidateBondLessRequest where
  amount : Nat
  whenExecutable : Nat
  deriving DecidableEq, Repr

/-- `CandidateMetadata`: all candidate info except the two delegation lists. -/
structure CandidateMetadata where
  bond : Nat
  delegationCount : Nat
  totalCounted : Nat
  lowestTopDelegationAmount : Nat
  highestBottomDelegationAmount : Nat
  lowestBottomDelegationAmount : Nat
  topCapacity : CapacityStatus
  bottomCapacity : CapacityStatus
  request : Option CandidateBondLessRequest
  status : CollatorStatus
  deriving DecidableEq, Repr

/-- `Delegator`: the delegations of one account, kept as an `OrderedSet` (strictly
    increasing in `owner`), with their cached `total` and the sum `lessTotal` of
    the pending requests. `DelegatorStatus` has the one variant `Active` and no
    modelled function reads it, so it is left out. -/
structure Delegator (A : Type*) where
  id : A
  delegations : List (Bond A)
  total : Nat
  lessTotal : Nat
  deriving DecidableEq, Repr

/-- `DelegationAction`. -/
inductive DelegationAction where
  | revoke (amount : Nat)
  | decrease (amount : Nat)
  deriving DecidableEq, Repr

/-- `DelegationAction::amount`. -/
def DelegationAction.amount : DelegationAction → Nat
  | .revoke a => a
  | .decrease a => a

/-- `ScheduledRequest`. -/
structure ScheduledRequest (A : Type*) where
  delegator : A
  whenExecutable : Nat
  action : DelegationAction
  deriving DecidableEq, Repr

/-- `Percent`, parts per hundred. -/
abbrev Percent := Fin 101

/-- The literals of `Percent` (`Percent::zero()` above all) use this one proof that its
modulus is nonzero. -/
instance Percent.neZero : NeZero (101 : Nat) := ⟨by decide⟩

/-- `Percent::mul_ceil`: `⌈n · p / 100⌉`. -/
def Percent.mulCeil (p : Percent) (n : Nat) : Nat := (n * p.val + 99) / 100

/-- `AutoCompoundConfig`. -/
structure AutoCompoundConfig (A : Type*) where
  delegator : A
  value : Percent
  deriving DecidableEq, Repr

/-! ## 2. Configuration, currency, errors, state -/

/-- The constants of `pallet_parachain_staking::Config` the modelled calls read. -/
structure Config where
  maxTopDelegationsPerCandidate : Nat
  maxBottomDelegationsPerCandidate : Nat
  maxDelegationsPerDelegator : Nat
  minCandidateStk : Nat
  minDelegation : Nat
  minDelegatorStk : Nat
  leaveCandidatesDelay : Nat
  candidateBondLessDelay : Nat
  leaveDelegatorsDelay : Nat
  revokeDelegationDelay : Nat
  deriving DecidableEq, Repr

/-- What the pallet calls on `T::Currency` (`ReservableCurrency`), over a currency
    state `C`. `reserve` and `depositIntoExisting` may fail (`none`). -/
structure Currency (A C : Type*) where
  freeBalance : C → A → Nat
  reserve : C → A → Nat → Option C
  unreserve : C → A → Nat → C
  depositIntoExisting : C → A → Nat → Option C

/-- The pallet's `Error`, the variants the modelled calls return, with two more:
    `currency` is the error `T::Currency::reserve` returns, and `aborted` a panic (a failed
    `expect`, an index out of bounds), which no dispatch survives. -/
inductive Error where
  | delegatorDNE
  | candidateDNE
  | delegationDNE
  | delegatorExists
  | candidateExists
  | candidateBondBelowMin
  | insufficientBalance
  | delegatorBondBelowMin
  | delegationBelowMin
  | alreadyOffline
  | alreadyActive
  | delegatorAlreadyLeaving
  | delegatorNotLeaving
  | delegatorCannotLeaveYet
  | candidateAlreadyLeaving
  | candidateNotLeaving
  | candidateCannotLeaveYet
  | cannotGoOnlineIfLeaving
  | exceedMaxDelegationsPerDelegator
  | alreadyDelegatedCandidate
  | pendingCandidateRequestsDNE
  | pendingCandidateRequestAlreadyExists
  | pendingCandidateRequestNotDueYet
  | pendingDelegationRequestDNE
  | pendingDelegationRequestAlreadyExists
  | pendingDelegationRequestNotDueYet
  | cannotDelegateLessThanOrEqualToLowestBottomWhenFull
  | pendingDelegationRevoke
  | candidateUnauthorized
  | currency
  | aborted (msg : String)
  deriving DecidableEq, Repr

/-- The storage items of the pallet the modelled calls read or write, and the
    currency state. `round` is `Round::current`, `candidates` the whitelist. -/
structure State (A C : Type*) where
  candidateInfo : A → Option CandidateMetadata
  topDelegations : A → Option (Delegations A)
  bottomDelegations : A → Option (Delegations A)
  delegatorState : A → Option (Delegator A)
  delegationScheduledRequests : A → List (ScheduledRequest A)
  autoCompoundingDelegations : A → List (AutoCompoundConfig A)
  total : Nat
  candidatePool : List (Bond A)
  round : Nat
  candidates : List A
  currency : C

/-! ## 3. `Delegations` -/

namespace Delegations

variable {A : Type*}

/-- `sort_greatest_to_least`: `sort_by(|a, b| b.amount.cmp(&a.amount))`. Rust's
    `sort_by` is stable, and a stable sort's result is determined by its input;
    insertion sort is one. -/
def sortGreatestToLeast (d : Delegations A) : Delegations A :=
  { d with delegations := d.delegations.insertionSort (fun a b => b.amount ≤ a.amount) }

/-- The `while` loop of the `Ok(i)` arm of `insert_sorted_greatest_to_least`, on
    the suffix from `new_index`: step over the bonds of the same amount, insert
    before the first other one, or `push` at the end. -/
def insertAfterEqual (x : Bond A) : List (Bond A) → List (Bond A)
  | [] => [x]
  | y :: ys => if y.amount = x.amount then y :: insertAfterEqual x ys else x :: y :: ys

/-- `insert_sorted_greatest_to_least`: add the amount to `total`; push when the
    last bond has the same amount; otherwise bisect, and after a match step over
    the bonds of equal amount (first come, first served). -/
def insertSortedGreatestToLeast (d : Delegations A) (delegation : Bond A) : Delegations A :=
  let total := d.total + delegation.amount
  if d.delegations.getLast?.map (·.amount) = some delegation.amount then
    ⟨d.delegations ++ [delegation], total⟩
  else
    match SortedVec.binarySearchBy (fun x => compare delegation.amount x.amount)
        d.delegations with
    | .ok i =>
      ⟨d.delegations.take (i + 1) ++ insertAfterEqual delegation (d.delegations.drop (i + 1)),
        total⟩
    | .error i => ⟨d.delegations.insertIdx i delegation, total⟩

/-- `top_capacity::<T>`. -/
def topCapacity (cfg : Config) (d : Delegations A) : CapacityStatus :=
  if cfg.maxTopDelegationsPerCandidate ≤ d.delegations.length then .full
  else if d.delegations.isEmpty then .empty
  else .partiallyFull

/-- `bottom_capacity::<T>`. -/
def bottomCapacity (cfg : Config) (d : Delegations A) : CapacityStatus :=
  if cfg.maxBottomDelegationsPerCandidate ≤ d.delegations.length then .full
  else if d.delegations.isEmpty then .empty
  else .partiallyFull

/-- `lowest_delegation_amount`: the last amount, `0` when empty. -/
def lowestDelegationAmount (d : Delegations A) : Nat :=
  (d.delegations.getLast?.map (·.amount)).getD 0

/-- `highest_delegation_amount`: the first amount, `0` when empty. -/
def highestDelegationAmount (d : Delegations A) : Nat :=
  (d.delegations.head?.map (·.amount)).getD 0

end Delegations

/-! ## 4. `Delegator` -/

namespace Delegator

variable {A : Type*} [LinearOrder A]

/-- `OrderedSet::from`: sort by `owner` (`Bond`'s `Ord`), then `dedup` by `owner`
    (`Bond`'s `PartialEq`), keeping the first of each run. -/
def orderedSetFrom (v : List (Bond A)) : List (Bond A) :=
  (v.insertionSort (fun a b => a.owner ≤ b.owner)).destutter (fun a b => a.owner ≠ b.owner)

/-- `Delegator::new`. -/
def new (id collator : A) (amount : Nat) : Delegator A :=
  ⟨id, orderedSetFrom [⟨collator, amount⟩], amount, 0⟩

/-- `Delegator::add_delegation`: `OrderedSet::insert`, and the amount into `total`
    when it happened. -/
def addDelegation (d : Delegator A) (bond : Bond A) : Bool × Delegator A :=
  match SortedVec.insertKey Bond.owner bond d.delegations with
  | (true, ds) => (true, { d with delegations := ds, total := d.total + bond.amount })
  | (false, _) => (false, d)

/-- `Delegator::rm_delegation`: drop the bond to `collator`, rebuild the set, and
    answer the remaining total; `none` when there was no such bond. -/
def rmDelegation (d : Delegator A) (collator : A) : Option Nat × Delegator A :=
  match d.delegations.find? (fun x => x.owner = collator) with
  | some x =>
    let d' := { d with
      delegations := orderedSetFrom (d.delegations.filter (fun x => x.owner ≠ collator)),
      total := d.total - x.amount }
    (some d'.total, d')
  | none => (none, d)

/-- `Delegator::get_bond_amount`. -/
def getBondAmount (d : Delegator A) (collator : A) : Option Nat :=
  (d.delegations.find? (fun b => b.owner = collator)).map (·.amount)

end Delegator

end Staking
end Litentry
