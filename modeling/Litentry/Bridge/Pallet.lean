import Litentry.Primitives.Identity
import Litentry.Lib.Reach

/-!
# `pallet_bridge`: relayers voting on proposals

The chain side of ChainBridge. A committee keeps the set of relayers, the vote
threshold and the chains the bridge talks to. Relayers vote for or against a
proposal, a call of the runtime keyed by its source chain and deposit nonce. A
proposal with enough votes for it is dispatched with the bridge's own account as
origin; one with enough votes against it is rejected. `signal_transfer_fungible`
is the other direction: another pallet asks for a transfer to a whitelisted chain.

Every call runs in a storage transaction, so a call that fails, the dispatch of
an approved proposal included, leaves no write behind: each function here returns
the new state or an error, and the machine drops a failed call. The storage of
the other pallets, which a dispatched proposal acts on, is the field `rest`; a
proposal is taken not to call back into this pallet. The origin check of the
admin calls (`T::BridgeCommitteeOrigin`) is left out: the committee may make any
of them at any time. Events are left out, except `BridgeEvents`, a storage item
the relayers' listener reads.
-/

set_option autoImplicit false

namespace Litentry
namespace Bridge

/-! ## 1. Types and state -/

/-- `BridgeChainId`. -/
abbrev BridgeChainId := UInt8

/-- `DepositNonce`. -/
abbrev DepositNonce := UInt64

/-- `ResourceId`. -/
abbrev ResourceId := Bytes 32

/-- `ProposalStatus`. -/
inductive ProposalStatus where
  | initiated
  | approved
  | rejected
  deriving DecidableEq, Repr

/-- `ProposalVotes`: who voted for and against, the status, and the block at
    which the proposal expires. -/
structure ProposalVotes (A : Type) where
  votesFor : List A
  votesAgainst : List A
  status : ProposalStatus
  expiry : Nat
  deriving DecidableEq

namespace ProposalVotes

variable {A : Type} [DecidableEq A]

/-- `try_to_complete`: approved once the votes for reach the threshold; rejected
    once the relayers are at least as many as the threshold and the votes against
    leave too few to reach it, in wrapping `u32` arithmetic; otherwise left as it
    is. Also returns the status reached. -/
def tryToComplete (v : ProposalVotes A) (threshold total : UInt32) :
    ProposalVotes A × ProposalStatus :=
  if threshold.toNat ≤ v.votesFor.length then ({ v with status := .approved }, .approved)
  else if threshold ≤ total ∧ total < UInt32.ofNat v.votesAgainst.length + threshold then
    ({ v with status := .rejected }, .rejected)
  else (v, .initiated)

/-- `is_complete`. -/
def isComplete (v : ProposalVotes A) : Bool := v.status != .initiated

/-- `has_voted`. -/
def hasVoted (v : ProposalVotes A) (who : A) : Bool :=
  v.votesFor.contains who || v.votesAgainst.contains who

/-- `is_expired`. -/
def isExpired (v : ProposalVotes A) (now : Nat) : Bool := decide (v.expiry ≤ now)

/-- `ProposalVotes { expiry, ..Default::default() }`: no votes yet. -/
def fresh (expiry : Nat) : ProposalVotes A := ⟨[], [], .initiated, expiry⟩

/-- The push of `commit_vote`: the vote of `who` on the side it is for. -/
def addVote (v : ProposalVotes A) (who : A) (inFavour : Bool) : ProposalVotes A :=
  if inFavour then { v with votesFor := v.votesFor ++ [who] }
  else { v with votesAgainst := v.votesAgainst ++ [who] }

end ProposalVotes

/-- `BridgeEvent`: the one kind this runtime emits. -/
inductive BridgeEvent where
  | fungibleTransfer (destId : BridgeChainId) (nonce : DepositNonce) (resourceId : ResourceId)
      (amount : Nat) (recipient : List UInt8)

/-- The pallet's storage, the block number, and the storage of the rest of the
    runtime. -/
structure State (A P ρ : Type) where
  chainNonces : BridgeChainId → Option DepositNonce
  relayerThreshold : UInt32
  relayers : A → Bool
  relayerCount : UInt32
  votes : BridgeChainId → DepositNonce × P → Option (ProposalVotes A)
  bridgeEvents : List BridgeEvent
  blockNumber : Nat
  rest : ρ

/-- What the runtime fixes: `T::BridgeChainId`, `T::ProposalLifetime`, the
    pallet's account `account_id()`, and how a proposal is dispatched from an
    origin. -/
structure Config (A P ρ ε : Type) where
  bridgeChainId : BridgeChainId
  proposalLifetime : Nat
  accountId : A
  dispatch : P → A → ρ → Except ε ρ

/-- The pallet's `Error`, the variants this code raises. -/
inductive Error where
  | invalidChainId
  | invalidThreshold
  | chainNotWhitelisted
  | chainAlreadyWhitelisted
  | relayerAlreadyExists
  | relayerInvalid
  | mustBeRelayer
  | relayerAlreadyVoted
  | proposalDoesNotExist
  | proposalAlreadyComplete
  | proposalExpired
  | nonceOverflow
  deriving DecidableEq, Repr

/-- A call fails with an error of this pallet, or with the error of the proposal
    it dispatched. -/
inductive DispatchError (ε : Type) where
  | module (e : Error)
  | proposal (e : ε)

/-! ## 2. The pallet's functions -/

section Functions

variable {A P ρ ε : Type} [DecidableEq A] [DecidableEq P] (cfg : Config A P ρ ε)

/-- `Votes::insert`. -/
def insertVotes (s : State A P ρ) (srcId : BridgeChainId) (key : DepositNonce × P)
    (v : ProposalVotes A) : State A P ρ :=
  { s with votes := Function.update s.votes srcId (Function.update (s.votes srcId) key (some v)) }

/-- `is_relayer`. -/
def isRelayer (s : State A P ρ) (who : A) : Bool := s.relayers who

/-- `chain_whitelisted`. -/
def chainWhitelisted (s : State A P ρ) (id : BridgeChainId) : Bool := (s.chainNonces id).isSome

/-- `bump_nonce`: the chain's nonce plus one, stored and returned; `checked_add`
    on a `u64`. -/
def bumpNonce (s : State A P ρ) (id : BridgeChainId) :
    Except (DispatchError ε) (DepositNonce × State A P ρ) :=
  let nonce := (s.chainNonces id).getD 0
  if 2 ^ 64 ≤ nonce.toNat + 1 then .error (.module .nonceOverflow)
  else .ok (nonce + 1, { s with chainNonces := Function.update s.chainNonces id (some (nonce + 1)) })

/-- `set_relayer_threshold`. -/
def setRelayerThreshold (s : State A P ρ) (threshold : UInt32) :
    Except (DispatchError ε) (State A P ρ) := do
  if threshold = 0 then throw (.module .invalidThreshold)
  pure { s with relayerThreshold := threshold }

/-- `whitelist`: the chain starts at nonce `0`. -/
def whitelist (s : State A P ρ) (id : BridgeChainId) : Except (DispatchError ε) (State A P ρ) := do
  if id = cfg.bridgeChainId then throw (.module .invalidChainId)
  if chainWhitelisted s id then throw (.module .chainAlreadyWhitelisted)
  pure { s with chainNonces := Function.update s.chainNonces id (some 0) }

/-- `register_relayer`: `RelayerCount` is a `u32` raised by `+= 1`, which wraps
    in the runtime's release build. -/
def registerRelayer (s : State A P ρ) (relayer : A) : Except (DispatchError ε) (State A P ρ) := do
  if isRelayer s relayer then throw (.module .relayerAlreadyExists)
  pure { s with
    relayers := Function.update s.relayers relayer true
    relayerCount := s.relayerCount + 1 }

/-- `unregister_relayer`. -/
def unregisterRelayer (s : State A P ρ) (relayer : A) : Except (DispatchError ε) (State A P ρ) := do
  if !isRelayer s relayer then throw (.module .relayerInvalid)
  pure { s with
    relayers := Function.update s.relayers relayer false
    relayerCount := s.relayerCount - 1 }

/-- `commit_vote`: a proposal seen for the first time starts with no votes and
    expires `ProposalLifetime` blocks from now. -/
def commitVote (s : State A P ρ) (who : A) (nonce : DepositNonce) (srcId : BridgeChainId)
    (prop : P) (inFavour : Bool) : Except (DispatchError ε) (State A P ρ) := do
  let now := s.blockNumber
  let votes := (s.votes srcId (nonce, prop)).getD (.fresh (now + cfg.proposalLifetime))
  if votes.isComplete then throw (.module .proposalAlreadyComplete)
  if votes.isExpired now then throw (.module .proposalExpired)
  if votes.hasVoted who then throw (.module .relayerAlreadyVoted)
  pure (insertVotes s srcId (nonce, prop) (votes.addVote who inFavour))

/-- `finalize_execution`: dispatch the call from the pallet's account. -/
def finalizeExecution (s : State A P ρ) (call : P) : Except (DispatchError ε) (State A P ρ) :=
  match cfg.dispatch call cfg.accountId s.rest with
  | .ok rest => .ok { s with rest := rest }
  | .error e => .error (.proposal e)

/-- `try_resolve_proposal`: complete the proposal against the current threshold
    and relayer count, store it, and dispatch it when approved. -/
def tryResolveProposal (s : State A P ρ) (nonce : DepositNonce) (srcId : BridgeChainId)
    (prop : P) : Except (DispatchError ε) (State A P ρ) := do
  let some votes := s.votes srcId (nonce, prop) | throw (.module .proposalDoesNotExist)
  let now := s.blockNumber
  if votes.isComplete then throw (.module .proposalAlreadyComplete)
  if votes.isExpired now then throw (.module .proposalExpired)
  let (votes, status) := votes.tryToComplete s.relayerThreshold s.relayerCount
  let s := insertVotes s srcId (nonce, prop) votes
  match status with
  | .approved => finalizeExecution cfg s prop
  -- `cancel_execution` only deposits an event
  | .rejected => pure s
  | .initiated => pure s

/-- `vote_for`. -/
def voteFor (s : State A P ρ) (who : A) (nonce : DepositNonce) (srcId : BridgeChainId) (prop : P) :
    Except (DispatchError ε) (State A P ρ) := do
  let s ← commitVote cfg s who nonce srcId prop true
  tryResolveProposal cfg s nonce srcId prop

/-- `vote_against`. -/
def voteAgainst (s : State A P ρ) (who : A) (nonce : DepositNonce) (srcId : BridgeChainId)
    (prop : P) : Except (DispatchError ε) (State A P ρ) := do
  let s ← commitVote cfg s who nonce srcId prop false
  tryResolveProposal cfg s nonce srcId prop

/-- `acknowledge_proposal`, signed by `who`. -/
def acknowledgeProposal (s : State A P ρ) (who : A) (nonce : DepositNonce)
    (srcId : BridgeChainId) (call : P) : Except (DispatchError ε) (State A P ρ) := do
  if !isRelayer s who then throw (.module .mustBeRelayer)
  if !chainWhitelisted s srcId then throw (.module .chainNotWhitelisted)
  voteFor cfg s who nonce srcId call

/-- `reject_proposal`, signed by `who`. -/
def rejectProposal (s : State A P ρ) (who : A) (nonce : DepositNonce) (srcId : BridgeChainId)
    (call : P) : Except (DispatchError ε) (State A P ρ) := do
  if !isRelayer s who then throw (.module .mustBeRelayer)
  if !chainWhitelisted s srcId then throw (.module .chainNotWhitelisted)
  voteAgainst cfg s who nonce srcId call

/-- `signal_transfer_fungible`: record a transfer to a whitelisted chain under its
    next nonce; the amount is `saturated_into::<u128>()`. -/
def signalTransferFungible (s : State A P ρ) (destId : BridgeChainId) (resourceId : ResourceId)
    (recipient : List UInt8) (amount : Nat) : Except (DispatchError ε) (State A P ρ) := do
  if !chainWhitelisted s destId then throw (.module .chainNotWhitelisted)
  let (nonce, s) ← bumpNonce s destId
  pure { s with
    bridgeEvents := s.bridgeEvents ++
      [.fungibleTransfer destId nonce resourceId (min amount (2 ^ 128 - 1)) recipient] }

/-- A new block: `frame_system` moves the block number on, and `on_initialize`
    kills `BridgeEvents`. -/
def newBlock (s : State A P ρ) : State A P ρ :=
  { s with blockNumber := s.blockNumber + 1, bridgeEvents := [] }

end Functions

/-! ## 3. The pallet as a machine -/

/-- The pallet's extrinsics, and the passing of a block. `eval_vote_state` may be
    signed by anyone, and the `_r_id` argument of the votes is unused. -/
inductive Call (A P : Type) where
  | setThreshold (threshold : UInt32)
  | whitelistChain (id : BridgeChainId)
  | addRelayer (v : A)
  | removeRelayer (v : A)
  | acknowledgeProposal (who : A) (nonce : DepositNonce) (srcId : BridgeChainId) (call : P)
  | rejectProposal (who : A) (nonce : DepositNonce) (srcId : BridgeChainId) (call : P)
  | evalVoteState (nonce : DepositNonce) (srcId : BridgeChainId) (prop : P)
  | newBlock

section Machine

variable {A P ρ ε : Type} [DecidableEq A] [DecidableEq P] (cfg : Config A P ρ ε)

/-- One call of the pallet; a failed call is rolled back. -/
def step (s : State A P ρ) : Call A P → Except (DispatchError ε) (State A P ρ)
  | .setThreshold threshold => setRelayerThreshold s threshold
  | .whitelistChain id => whitelist cfg s id
  | .addRelayer v => registerRelayer s v
  | .removeRelayer v => unregisterRelayer s v
  | .acknowledgeProposal who nonce srcId call => acknowledgeProposal cfg s who nonce srcId call
  | .rejectProposal who nonce srcId call => rejectProposal cfg s who nonce srcId call
  | .evalVoteState nonce srcId prop => tryResolveProposal cfg s nonce srcId prop
  | .newBlock => .ok (newBlock s)

/-- The pallet's storage before any call, every item at its default; the block
    number and the rest of the runtime are any. -/
def Fresh (s : State A P ρ) : Prop :=
  (∀ id, s.chainNonces id = none) ∧ s.relayerThreshold = 1 ∧ (∀ a, s.relayers a = false) ∧
    s.relayerCount = 0 ∧ (∀ srcId key, s.votes srcId key = none) ∧ s.bridgeEvents = []

/-- The fresh state at block `n` with the rest of the runtime `rest`. -/
def genesis (n : Nat) (rest : ρ) : State A P ρ :=
  ⟨fun _ => none, 1, fun _ => false, 0, fun _ _ => none, [], n, rest⟩

omit [DecidableEq A] [DecidableEq P] in
theorem Fresh.genesis (n : Nat) (rest : ρ) : Fresh (genesis n rest : State A P ρ) :=
  ⟨fun _ => rfl, rfl, fun _ => rfl, rfl, fun _ _ => rfl, rfl⟩

/-- The states any interleaving of calls reaches from a fresh pallet. -/
def Reachable : State A P ρ → Prop := Reach.Reachable Fresh (step cfg)

end Machine

end Bridge
end Litentry
