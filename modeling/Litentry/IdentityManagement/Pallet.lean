import Litentry.Primitives.Identity
import Litentry.Lib.Reach
import Litentry.Lib.Triple

/-!
# `pallet_identity_management` of the enclave (IMT)

The identity store of the TEE worker (`tee-worker/litentry/pallets/
identity-management`): per owner `who` an ID graph of linked identities, each with
its `IdentityContext`; the set `LinkedIdentities` of every identity that belongs
to some graph; and `IDGraphLens`, the length counter of each graph.

**No rollback.** Inside the enclave the runtime's `sp-io` makes
`start_transaction`, `rollback_transaction` and `commit_transaction` no-ops, and
the STF executor keeps the state a failed trusted call leaves. So a call is an
`EStateM Error State Unit`: its writes stay whichever way it ends, and `step`
takes the state from both outcomes. The calls are dispatched with the root
origin, so the `ManageOrigin` check always passes and is left out.

`update_identity` is the shape `deactivate_identity`, `activate_identity` and
`set_identity_networks` share: create the prime graph when there is none, check
the pair exists, then `try_mutate` its context.
-/

set_option autoImplicit false

namespace Litentry
namespace IdentityManagement

/-! ## 1. Contexts and state -/

/-- `IdentityStatus`. -/
inductive IdentityStatus where
  | active
  | inactive
  deriving DecidableEq, Repr

/-- `IdentityContext`: the block it was linked at, its networks, its status. -/
structure IdentityContext where
  linkBlock : Nat
  web3networks : List Web3Network
  status : IdentityStatus
  deriving DecidableEq

namespace IdentityContext

/-- `dedup`: `sort`, then `Vec::dedup`, which drops each element equal to the one
    before it. -/
def dedup (web3networks : List Web3Network) : List Web3Network :=
  (web3networks.insertionSort (· ≤ ·)).destutter (· ≠ ·)

/-- `IdentityContext::new`. -/
def new (linkBlock : Nat) (web3networks : List Web3Network) : IdentityContext :=
  ⟨linkBlock, dedup web3networks, .active⟩

/-- `set_web3networks`. -/
def setWeb3networks (c : IdentityContext) (web3networks : List Web3Network) : IdentityContext :=
  { c with web3networks := dedup web3networks }

/-- `deactivate`. -/
def deactivate (c : IdentityContext) : IdentityContext := { c with status := .inactive }

/-- `activate`. -/
def activate (c : IdentityContext) : IdentityContext := { c with status := .active }

end IdentityContext

/-- The pallet's `Error`. -/
inductive Error where
  | identityAlreadyLinked
  | identityNotExist
  | linkPrimeIdentityDisallowed
  | iDGraphLenLimitReached
  | wrongWeb3NetworkTypes
  | notSupportedIdentity
  deriving DecidableEq, Repr

/-- The three storage items, and the block number `frame_system` answers. -/
structure State where
  linkedIdentities : Identity → Bool
  idGraphs : Identity → Identity → Option IdentityContext
  idGraphLens : Identity → Nat
  blockNumber : Nat

/-- A call of the pallet: writes stay when it fails. -/
abbrev M := EStateM Error State

/-! ## 2. The calls -/

section Calls

-- `T::MaxIDGraphLength`
variable (maxIDGraphLength : Nat)

/-- `insert_identity_with_limit`: count the new entry in `IDGraphLens` (a `u32`,
    by `checked_add`, within the limit), then add it to `LinkedIdentities` and to
    the owner's graph. -/
def insertIdentityWithLimit (owner identity : Identity) (context : IdentityContext) : M Unit := do
  let s ← get
  let newLen := s.idGraphLens owner + 1
  if 2 ^ 32 ≤ newLen then throw .iDGraphLenLimitReached
  if maxIDGraphLength < newLen then throw .iDGraphLenLimitReached
  let graph := Function.update (s.idGraphs owner) identity (some context)
  set { s with
    idGraphLens := Function.update s.idGraphLens owner newLen
    linkedIdentities := Function.update s.linkedIdentities identity true
    idGraphs := Function.update s.idGraphs owner graph }

/-- `maybe_create_id_graph`: without a prime entry, make `who` the prime identity
    of a new graph, linked at block `1` with its default networks; refused when
    `who` is linked in some graph. -/
def maybeCreateIdGraph (who : Identity) : M Unit := do
  let s ← get
  if (s.idGraphs who who).isNone then
    if s.linkedIdentities who then throw .identityAlreadyLinked
    insertIdentityWithLimit maxIDGraphLength who who (IdentityContext.new 1 who.defaultWeb3networks)

/-- `link_identity`. -/
def linkIdentity (who identity : Identity) (web3networks : List Web3Network) : M Unit := do
  let s ← get
  if s.linkedIdentities identity then throw .identityAlreadyLinked
  if identity = who then throw .linkPrimeIdentityDisallowed
  if !identity.matchesWeb3networks web3networks then throw .wrongWeb3NetworkTypes
  maybeCreateIdGraph maxIDGraphLength who
  let s ← get
  insertIdentityWithLimit maxIDGraphLength who identity (IdentityContext.new s.blockNumber web3networks)

/-- `IDGraphs::try_mutate` on one entry: take the context, apply `f`, and put the
    result back; nothing is written when `f` fails. -/
def tryMutateContext (who identity : Identity)
    (f : IdentityContext → Except Error IdentityContext) : M Unit := do
  let s ← get
  let some c := s.idGraphs who identity | throw .identityNotExist
  match f c with
  | .ok c =>
    let graph := Function.update (s.idGraphs who) identity (some c)
    set { s with idGraphs := Function.update s.idGraphs who graph }
  | .error e => throw e

/-- The body `deactivate_identity`, `activate_identity` and
    `set_identity_networks` share. -/
def updateIdentity (who identity : Identity) (f : IdentityContext → Except Error IdentityContext) :
    M Unit := do
  maybeCreateIdGraph maxIDGraphLength who
  let s ← get
  if (s.idGraphs who identity).isNone then throw .identityNotExist
  tryMutateContext who identity f

/-- `deactivate_identity`. -/
def deactivateIdentity (who identity : Identity) : M Unit :=
  updateIdentity maxIDGraphLength who identity fun c => .ok c.deactivate

/-- `activate_identity`. -/
def activateIdentity (who identity : Identity) : M Unit :=
  updateIdentity maxIDGraphLength who identity fun c => .ok c.activate

/-- `set_identity_networks`: the networks are checked inside the mutation. -/
def setIdentityNetworks (who identity : Identity) (web3networks : List Web3Network) : M Unit :=
  updateIdentity maxIDGraphLength who identity fun c =>
    if !identity.matchesWeb3networks web3networks then .error .wrongWeb3NetworkTypes
    else .ok (c.setWeb3networks web3networks)

end Calls

/-- One turn of the loop of `remove_identity`: the identity must be linked and in
    the graph of `who`; it leaves both. -/
def removeOne (who identity : Identity) : M Unit := do
  let s ← get
  if !s.linkedIdentities identity then throw .identityNotExist
  if (s.idGraphs who identity).isNone then throw .identityNotExist
  let graph := Function.update (s.idGraphs who) identity none
  set { s with
    idGraphs := Function.update s.idGraphs who graph
    linkedIdentities := Function.update s.linkedIdentities identity false }

/-- `remove_identity`: the listed identities one by one, or with an empty list the
    whole graph of `who`. `IDGraphLens` is not written. -/
def removeIdentity (who : Identity) (identities : List Identity) : M Unit :=
  if identities.isEmpty then do
    let s ← get
    -- every identity of the graph leaves `LinkedIdentities`, then `clear_prefix`
    let linked := fun x => if (s.idGraphs who x).isSome then false else s.linkedIdentities x
    set { s with
      linkedIdentities := linked
      idGraphs := Function.update s.idGraphs who fun _ => none }
  else identities.forM (removeOne who)

/-! ## 3. The store as a machine -/

/-- The calls the STF makes on the pallet. -/
inductive Call where
  | linkIdentity (who identity : Identity) (web3networks : List Web3Network)
  | deactivateIdentity (who identity : Identity)
  | activateIdentity (who identity : Identity)
  | setIdentityNetworks (who identity : Identity) (web3networks : List Web3Network)
  | removeIdentity (who : Identity) (identities : List Identity)
  | maybeCreateIdGraph (who : Identity)

/-- The pallet function a call runs. -/
def Call.run (maxIDGraphLength : Nat) : Call → M Unit
  | .linkIdentity who identity web3networks =>
    IdentityManagement.linkIdentity maxIDGraphLength who identity web3networks
  | .deactivateIdentity who identity =>
    IdentityManagement.deactivateIdentity maxIDGraphLength who identity
  | .activateIdentity who identity => IdentityManagement.activateIdentity maxIDGraphLength who identity
  | .setIdentityNetworks who identity web3networks =>
    IdentityManagement.setIdentityNetworks maxIDGraphLength who identity web3networks
  | .removeIdentity who identities => IdentityManagement.removeIdentity who identities
  | .maybeCreateIdGraph who => IdentityManagement.maybeCreateIdGraph maxIDGraphLength who

/-- One call; it never blocks the machine. -/
def step (maxIDGraphLength : Nat) (s : State) (c : Call) : Except Empty State :=
  .ok (Hoare.final ((c.run maxIDGraphLength).run s))

/-- The empty store at block `n`. -/
def genesis (n : Nat) : State := ⟨fun _ => false, fun _ _ => none, fun _ => 0, n⟩

/-- The empty store, at some block. -/
def Fresh (s : State) : Prop :=
  (∀ x, s.linkedIdentities x = false) ∧ (∀ who x, s.idGraphs who x = none) ∧
    ∀ who, s.idGraphLens who = 0

/-- The states any sequence of calls, successful or not, reaches from an empty
    store. -/
def Reachable (maxIDGraphLength : Nat) : State → Prop :=
  Reach.Reachable Fresh (step maxIDGraphLength)

end IdentityManagement
end Litentry
