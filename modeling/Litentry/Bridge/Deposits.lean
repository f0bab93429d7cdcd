import Litentry.Bridge.Transfer

/-!
# Deposit nonces are never reused

A transfer out of this chain reaches the relayers as the event `signal_transfer_fungible`
appends to `BridgeEvents`, under the deposit `(dest_id, nonce)`; the bridge of the
destination chain takes each deposit nonce of a source chain once, so two transfers under
one deposit would be one transfer lost. `BridgeEvents` is killed at every block, so what
was signalled over a run is a ghost beside the runtime (`history`): the events each step
appended.

Over every run of the runtime the signalled deposits are pairwise distinct, and each is
at most its chain's current nonce (`deposit_nonces_unique`). Two things of the code carry
it: `bump_nonce` moves a chain's nonce on by one with `checked_add`, so no nonce is met
twice on the way up; and `whitelist_chain` refuses a chain already whitelisted, which
would put its nonce back to `0`.
-/

set_option autoImplicit false

namespace Litentry

namespace Bridge

/-- The deposit a signalled transfer is carried under. -/
def BridgeEvent.deposit : BridgeEvent → BridgeChainId × DepositNonce
  | .fungibleTransfer destId nonce _ _ _ => (destId, nonce)

variable {A P ρ ε : Type} {s s' : State A P ρ}

/-- What `signal_transfer_fungible` does: the chain's nonce moves on by one, without
    wrapping, and the transfer is signalled under the new nonce. -/
theorem signalTransferFungible_ok {destId : BridgeChainId} {resourceId : ResourceId}
    {recipient : List UInt8} {amount : Nat}
    (h : signalTransferFungible (ε := ε) s destId resourceId recipient amount = .ok s') :
    ∃ n, s.chainNonces destId = some n ∧ (n + 1).toNat = n.toNat + 1 ∧
      s'.chainNonces = Function.update s.chainNonces destId (some (n + 1)) ∧
      s'.bridgeEvents = s.bridgeEvents ++
        [.fungibleTransfer destId (n + 1) resourceId (min amount (2 ^ 128 - 1)) recipient] := by
  simp only [signalTransferFungible, bind, Except.bind, throw, throwThe, MonadExceptOf.throw,
    Reach.ite_error_eq_ok] at h
  obtain ⟨hw, h⟩ := h
  simp only [Bool.not_eq_true, Bool.not_eq_false', chainWhitelisted] at hw
  obtain ⟨n, hn⟩ := Option.isSome_iff_exists.1 hw
  obtain ⟨⟨nonce, s₁⟩, hb, h⟩ := Reach.bind_eq_ok.1 h
  unfold bumpNonce at hb
  rw [hn, Option.getD_some] at hb
  dsimp only at hb
  split_ifs at hb with hlt
  cases hb
  cases h
  refine ⟨n, hn, ?_, rfl, rfl⟩
  rw [UInt64.toNat_add]
  simp only [UInt64.toNat_one]
  omega

end Bridge

namespace BridgeTransfer

open Bridge (BridgeChainId DepositNonce ResourceId BridgeEvent)
open AssetsHandler (Currencies)

section Deposits

variable {A AssetId σ τ ε : Type} [DecidableEq A] (cfg : Config A)
  (cur : Currencies A AssetId σ τ ε)

/-- The ghost of a run: the transfers signalled so far, to which each step adds the
    events it appended to `BridgeEvents`. -/
def history (g : List BridgeEvent) (s : World A AssetId σ τ) (_ : Call A AssetId)
    (s' : World A AssetId σ τ) : List BridgeEvent :=
  g ++ s'.bridgeEvents.drop s.bridgeEvents.length

/-- The states of a run of the runtime from genesis, each with the transfers the run
    signalled. -/
def Signalled : World A AssetId σ τ × List BridgeEvent → Prop :=
  Reach.Reachable (Reach.ghostInit (Genesis cfg) []) (Reach.withGhost history (step cfg cur))

/-- The signalled deposits are distinct, each at most its chain's nonce. -/
def NonceInv (s : World A AssetId σ τ) (g : List BridgeEvent) : Prop :=
  (g.map BridgeEvent.deposit).Nodup ∧
    ∀ e ∈ g, ∃ n, s.chainNonces e.deposit.1 = some n ∧ e.deposit.2.toNat ≤ n.toNat

variable {cfg cur} {s s' : World A AssetId σ τ} {g : List BridgeEvent}

/-- **What a step does to the nonces and the events.** It leaves both, whitelists a new
    chain at nonce `0`, or signals one transfer under its chain's next nonce. -/
theorem step_nonces {c : Call A AssetId} (h : step cfg cur s c = .ok s') :
    (s'.chainNonces = s.chainNonces ∧ s'.bridgeEvents.drop s.bridgeEvents.length = []) ∨
    (∃ id, s.chainNonces id = none ∧ s'.chainNonces = Function.update s.chainNonces id (some 0) ∧
      s'.bridgeEvents = s.bridgeEvents) ∨
    (∃ destId n e, s.chainNonces destId = some n ∧ (n + 1).toNat = n.toNat + 1 ∧
      e.deposit = (destId, n + 1) ∧
      s'.chainNonces = Function.update s.chainNonces destId (some (n + 1)) ∧
      s'.bridgeEvents = s.bridgeEvents ++ [e]) := by
  cases c with
  | bridge c =>
    cases Bridge.step_move (Reach.mapError_eq_ok.1 h) with
    | whitelist id _ hw =>
      refine .inr (.inl ⟨id, ?_, rfl, rfl⟩)
      simpa [Bridge.chainWhitelisted] using hw
    | newBlock => exact .inl ⟨rfl, by simp [Bridge.newBlock]⟩
    | setThreshold => exact .inl ⟨rfl, by simp⟩
    | addRelayer => exact .inl ⟨rfl, by simp⟩
    | removeRelayer => exact .inl ⟨rfl, by simp⟩
    | resolve => exact .inl ⟨rfl, by simp [Bridge.insertVotes]⟩
  | transferAssets source amount recipient destId resourceId =>
    simp only [step, transferAssets, bind, Except.bind, throw, throwThe, MonadExceptOf.throw,
      Reach.ite_error_eq_ok] at h
    obtain ⟨-, h⟩ := h
    obtain ⟨⟨actual, rest⟩, -, h⟩ := Reach.bind_eq_ok.1 h
    obtain ⟨n, hn, hlt, hc, he⟩ := Bridge.signalTransferFungible_ok (Reach.mapError_eq_ok.1 h)
    exact .inr (.inr ⟨destId, n, _, hn, hlt, rfl, hc, he⟩)
  | setResource => cases h; exact .inl ⟨rfl, by simp⟩
  | removeResource => cases h; exact .inl ⟨rfl, by simp⟩
  | setMaximumIssuance => cases h; exact .inl ⟨rfl, by simp⟩
  | setExternalBalances => cases h; exact .inl ⟨rfl, by simp⟩

/-- **One step.** -/
theorem step_nonceInv {c : Call A AssetId} (hi : NonceInv s g) (h : step cfg cur s c = .ok s') :
    NonceInv s' (history g s c s') := by
  obtain ⟨hnd, hle⟩ := hi
  unfold history
  rcases step_nonces h with ⟨hc, hd⟩ | ⟨id, hid, hc, he⟩ | ⟨destId, n, e, hn, hlt, hdep, hc, he⟩
  · -- nothing signalled, no nonce moved
    rw [hd, List.append_nil]
    exact ⟨hnd, fun e he => hc ▸ hle e he⟩
  · -- a new chain: no deposit was signalled to it
    rw [he, List.drop_length, List.append_nil]
    refine ⟨hnd, fun e he' => ?_⟩
    obtain ⟨m, hm, hmle⟩ := hle e he'
    have hne : e.deposit.1 ≠ id := fun heq => by rw [heq, hid] at hm; cases hm
    exact ⟨m, by rw [hc, Function.update_of_ne hne, hm], hmle⟩
  · -- a transfer under the next nonce, above every deposit signalled to its chain
    rw [he, List.drop_left]
    have hfresh : e.deposit ∉ g.map BridgeEvent.deposit := by
      intro hmem
      obtain ⟨e', he', hd'⟩ := List.mem_map.1 hmem
      obtain ⟨m, hm, hmle⟩ := hle e' he'
      rw [hd', hdep, hn] at hm
      cases hm
      rw [hd', hdep] at hmle
      simp only at hmle
      omega
    refine ⟨?_, ?_⟩
    · rw [List.map_append, List.map_singleton]
      refine List.nodup_append.2 ⟨hnd, List.nodup_singleton _, ?_⟩
      simp only [List.mem_singleton]
      rintro a ha b rfl rfl
      exact hfresh ha
    · intro e' he'
      rcases List.mem_append.1 he' with he' | he'
      · obtain ⟨m, hm, hmle⟩ := hle e' he'
        by_cases hdest : e'.deposit.1 = destId
        · rw [hdest, hn] at hm
          cases hm
          exact ⟨n + 1, by rw [hc, hdest, Function.update_self], by omega⟩
        · exact ⟨m, by rw [hc, Function.update_of_ne hdest, hm], hmle⟩
      · rw [List.mem_singleton] at he'
        subst he'
        exact ⟨n + 1, by rw [hc, hdep, Function.update_self], by rw [hdep]⟩

/-- Over every run of the runtime, the transfers signalled have pairwise distinct
    deposits `(dest_id, nonce)`, each at most the chain's current nonce. -/
theorem deposit_nonces_unique (h : Signalled cfg cur (s, g)) :
    (g.map BridgeEvent.deposit).Nodup ∧
      ∀ e ∈ g, ∃ n, s.chainNonces e.deposit.1 = some n ∧ e.deposit.2.toNat ≤ n.toNat := by
  -- the pair keeps the invariant from the empty history on
  have key : ∀ sg, Signalled cfg cur sg → NonceInv sg.1 sg.2 := by
    intro sg hsg
    induction hsg with
    | init h₀ =>
      rw [h₀.2]
      exact ⟨List.nodup_nil, fun e he => absurd he List.not_mem_nil⟩
    | step c _ hst ih =>
      obtain ⟨s₂, hs, rfl⟩ := Reach.withGhost_eq_ok.1 hst
      exact step_nonceInv ih hs
  exact key (s, g) h

end Deposits

/-- Chain `0` whitelisted with a native resource of fee `1`; `RELAYER_A` bridges `30` in
    and sends `10` out twice. -/
def depositRun : List (Call Nat Nat) :=
  [.bridge (.whitelistChain 0),
   .setResource nativeTokenResourceId ⟨1, none⟩,
   .bridge (.addRelayer 2),
   .bridge (.acknowledgeProposal 2 1 0 (.transfer 2 30 nativeTokenResourceId)),
   .transferAssets 2 10 [0, 0, 0, 0] 0 nativeTokenResourceId,
   .transferAssets 2 10 [0, 0, 0, 0] 0 nativeTokenResourceId]

theorem depositRun_checks :
    Reach.runChecks (Reach.withGhost history (step mockConfig issuanceOnly)) (mockGenesis, [])
      depositRun (fun sg => sg.2.map BridgeEvent.deposit == [(0, 1), (0, 2)]) = true := by
  decide

theorem deposit_nonces_unique_after_depositRun : ∃ s g,
    Signalled mockConfig issuanceOnly (s, g) ∧ g.map BridgeEvent.deposit = [(0, 1), (0, 2)] ∧
      ((g.map BridgeEvent.deposit).Nodup ∧
        ∀ e ∈ g, ∃ n, s.chainNonces e.deposit.1 = some n ∧ e.deposit.2.toNat ≤ n.toNat) := by
  obtain ⟨⟨s, g⟩, hs, hp⟩ := Reach.Reachable.of_runChecks
    (show Reach.ghostInit (Genesis mockConfig) [] (mockGenesis, []) from ⟨mockGenesis_genesis, rfl⟩)
    depositRun_checks
  exact ⟨s, g, hs, beq_iff_eq.1 hp, deposit_nonces_unique hs⟩

end BridgeTransfer
end Litentry
