import Litentry.Bridge.Voting
import Litentry.Bridge.AssetsHandler

/-!
# `pallet_bridge_transfer`, and the runtime around the bridge

The pallet the bridge's two directions go through. `transfer_assets` sends the
native token or an asset out: the handler burns it and the bridge signals the
amount less the fee. `transfer` brings it in, and only the bridge's own account
may call it: it is the call a proposal of `pallet_bridge` carries, dispatched once
the relayers approve it.

The runtime here is `pallet_bridge` with `transfer` as the call its proposals
dispatch, over the storage of the assets handler and its two currencies. Its
machine takes the bridge's calls, `transfer_assets`, and the committee's calls
of the handler. Every call is transactional: a failed one is dropped.

What it does to the native token on both sides of the bridge, the total issuance
plus `ExternalBalances`: once `ExternalBalances` is written, a run that does not
call `set_external_balances` raises it by exactly the fees of its native
transfers out (`run_supply`), and not by zero as soon as one fee is positive.
-/

set_option autoImplicit false

namespace Litentry
namespace BridgeTransfer

open Bridge (BridgeChainId ResourceId)
open AssetsHandler (Currencies)

/-! ## 1. The pallet -/

/-- The call a bridge proposal carries, `BridgeTransfer::transfer`. -/
inductive Proposal (A : Type) where
  | transfer (dest : A) (amount : Nat) (rid : ResourceId)
  deriving DecidableEq

/-- The error of a call of the runtime. -/
inductive DispatchError (ε : Type) where
  | badOrigin
  | bridge (e : Bridge.Error)
  | handler (e : AssetsHandler.DispatchError ε)

/-- What the runtime fixes: the handler's constants, `T::BridgeChainId`,
    `T::ProposalLifetime`, the bridge's account `account_id()`, and
    `T::TransferAssetsMembers`. -/
structure Config (A : Type) where
  handler : AssetsHandler.Config A
  bridgeChainId : BridgeChainId
  proposalLifetime : Nat
  bridgeAccount : A
  transferAssetsMembers : A → Bool

/-- The runtime's state: the bridge's storage, with the handler's, which its
    proposals act on, as the rest. -/
abbrev World (A AssetId σ τ : Type) := Bridge.State A (Proposal A) (AssetsHandler.State AssetId σ τ)

section Calls

variable {A AssetId σ τ ε : Type} [DecidableEq A] (cfg : Config A) (cur : Currencies A AssetId σ τ ε)

/-- `transfer`, from `origin`: `T::BridgeOrigin` lets only the bridge's account
    through. -/
def transfer (s : AssetsHandler.State AssetId σ τ) (origin dest : A) (amount : Nat) (rid : ResourceId) :
    Except (DispatchError ε) (AssetsHandler.State AssetId σ τ) := do
  if origin ≠ cfg.bridgeAccount then throw .badOrigin
  let (_, s) ← (AssetsHandler.prepareTokenBridgeIn cfg.handler cur s rid dest amount).mapError .handler
  pure s

/-- `Proposal::dispatch` from an origin. -/
def Proposal.dispatch : Proposal A → A → AssetsHandler.State AssetId σ τ →
    Except (DispatchError ε) (AssetsHandler.State AssetId σ τ)
  | .transfer dest amount rid, origin, s => BridgeTransfer.transfer cfg cur s origin dest amount rid

/-- `pallet_bridge` as this runtime configures it. -/
def bridgeConfig : Bridge.Config A (Proposal A) (AssetsHandler.State AssetId σ τ) (DispatchError ε) :=
  ⟨cfg.bridgeChainId, cfg.proposalLifetime, cfg.bridgeAccount, Proposal.dispatch cfg cur⟩

/-- An error of the bridge as one of the runtime. -/
def ofBridge : Bridge.DispatchError (DispatchError ε) → DispatchError ε
  | .module e => .bridge e
  | .proposal e => e

/-- `transfer_assets`, signed by `source`. -/
def transferAssets (s : World A AssetId σ τ) (source : A) (amount : Nat) (recipient : List UInt8)
    (destId : BridgeChainId) (resourceId : ResourceId) : Except (DispatchError ε) (World A AssetId σ τ) := do
  if !cfg.transferAssetsMembers source then throw .badOrigin
  let (actualDestAmount, rest) ←
    (AssetsHandler.prepareTokenBridgeOut cfg.handler cur s.rest resourceId source amount).mapError .handler
  (Bridge.signalTransferFungible { s with rest := rest } destId resourceId recipient
    actualDestAmount).mapError ofBridge

end Calls

/-! ## 2. The runtime as a machine -/

/-- The calls of the runtime: the bridge's, `transfer_assets`, and the
    committee's calls of the handler. -/
inductive Call (A AssetId : Type) where
  | bridge (c : Bridge.Call A (Proposal A))
  | transferAssets (source : A) (amount : Nat) (recipient : List UInt8) (destId : BridgeChainId)
      (resourceId : ResourceId)
  | setResource (resourceId : ResourceId) (asset : AssetsHandler.AssetInfo AssetId)
  | removeResource (resourceId : ResourceId)
  | setMaximumIssuance (maximumIssuance : Nat)
  | setExternalBalances (externalBalances : Nat)

section Machine

variable {A AssetId σ τ ε : Type} [DecidableEq A] (cfg : Config A) (cur : Currencies A AssetId σ τ ε)

/-- One call; a failed call is rolled back. -/
def step (s : World A AssetId σ τ) : Call A AssetId → Except (DispatchError ε) (World A AssetId σ τ)
  | .bridge c => (Bridge.step (bridgeConfig cfg cur) s c).mapError ofBridge
  | .transferAssets source amount recipient destId resourceId =>
    transferAssets cfg cur s source amount recipient destId resourceId
  | .setResource resourceId asset => .ok { s with rest := AssetsHandler.setResource s.rest resourceId asset }
  | .removeResource resourceId => .ok { s with rest := AssetsHandler.removeResource s.rest resourceId }
  | .setMaximumIssuance m => .ok { s with rest := AssetsHandler.setMaximumIssuance s.rest m }
  | .setExternalBalances e => .ok { s with rest := AssetsHandler.setExternalBalances s.rest e }

/-- A fresh runtime: the bridge fresh, no resources, `ExternalBalances` never
    written, `MaximumIssuance` at its default; the currencies in any state. -/
def Genesis (s : World A AssetId σ τ) : Prop :=
  Bridge.Fresh s ∧ (∀ r, s.rest.resourceToAssetInfo r = none) ∧ s.rest.externalBalances = none ∧
    s.rest.maximumIssuance = cfg.handler.defaultMaximumIssuance

/-- The native token on both sides of the bridge. -/
def supply (s : World A AssetId σ τ) : Nat := AssetsHandler.supply cfg.handler cur s.rest

/-- The fee a call keeps on this chain: that of a native transfer out. -/
def nativeFee (s : World A AssetId σ τ) : Call A AssetId → Nat
  | .transferAssets _ _ _ _ resourceId =>
    match s.rest.resourceToAssetInfo resourceId with
    | some ⟨fee, none⟩ => fee
    | _ => 0
  | _ => 0

/-- The calls that leave `ExternalBalances` to the handler. -/
def Call.KeepsExternal : Call A AssetId → Prop
  | .setExternalBalances _ => False
  | _ => True

end Machine

/-! ## 3. What the runtime does to the native supply -/

section Supply

variable {A AssetId σ τ ε : Type} [DecidableEq A] {cfg : Config A} {cur : Currencies A AssetId σ τ ε}

theorem transfer_ok {s s' : AssetsHandler.State AssetId σ τ} {origin dest : A} {amount : Nat}
    {rid : ResourceId} (h : transfer cfg cur s origin dest amount rid = .ok s') :
    origin = cfg.bridgeAccount ∧
      ∃ minted, AssetsHandler.prepareTokenBridgeIn cfg.handler cur s rid dest amount = .ok (minted, s') := by
  simp only [transfer, bind, Except.bind, throw, throwThe, MonadExceptOf.throw,
    Reach.ite_error_eq_ok, not_not] at h
  obtain ⟨ho, h⟩ := h
  obtain ⟨⟨minted, s₁⟩, hin, h⟩ := Reach.bind_eq_ok.1 h
  cases h
  exact ⟨ho, minted, Reach.mapError_eq_ok.1 hin⟩

/-- A dispatched proposal keeps the supply, and a written `ExternalBalances`
    stays written. -/
theorem dispatch_supply (hcur : cur.Exact) {p : Proposal A} {origin : A}
    {s s' : AssetsHandler.State AssetId σ τ} (h : Proposal.dispatch cfg cur p origin s = .ok s') :
    AssetsHandler.supply cfg.handler cur s' = AssetsHandler.supply cfg.handler cur s ∧
      (s.externalBalances.isSome → s'.externalBalances.isSome) := by
  cases p with
  | transfer dest amount rid =>
    obtain ⟨-, minted, hin⟩ := transfer_ok h
    exact AssetsHandler.prepareTokenBridgeIn_supply hcur hin

omit [DecidableEq A] in
theorem signalTransferFungible_rest {P ρ ε' : Type} {s s' : Bridge.State A P ρ} {destId : BridgeChainId}
    {resourceId : ResourceId} {recipient : List UInt8} {amount : Nat}
    (h : Bridge.signalTransferFungible (ε := ε') s destId resourceId recipient amount = .ok s') :
    s'.rest = s.rest := by
  simp only [Bridge.signalTransferFungible, bind, Except.bind, throw, throwThe,
    MonadExceptOf.throw, Reach.ite_error_eq_ok] at h
  obtain ⟨-, h⟩ := h
  obtain ⟨⟨nonce, s₁⟩, hb, h⟩ := Reach.bind_eq_ok.1 h
  unfold Bridge.bumpNonce at hb
  dsimp only at hb
  split_ifs at hb
  cases hb
  cases h
  rfl

omit [DecidableEq A] in
theorem transferAssets_ok {s s' : World A AssetId σ τ} {source : A} {amount : Nat}
    {recipient : List UInt8} {destId : BridgeChainId} {resourceId : ResourceId}
    (h : transferAssets cfg cur s source amount recipient destId resourceId = .ok s') :
    ∃ actual, AssetsHandler.prepareTokenBridgeOut cfg.handler cur s.rest resourceId source amount =
      .ok (actual, s'.rest) := by
  simp only [transferAssets, bind, Except.bind, throw, throwThe, MonadExceptOf.throw,
    Reach.ite_error_eq_ok] at h
  obtain ⟨-, h⟩ := h
  obtain ⟨⟨actual, rest⟩, hout, h⟩ := Reach.bind_eq_ok.1 h
  rw [signalTransferFungible_rest (Reach.mapError_eq_ok.1 h)]
  exact ⟨actual, Reach.mapError_eq_ok.1 hout⟩

/-- **One call and the supply.** With `ExternalBalances` written, a call other
    than `set_external_balances` keeps it written and raises the supply by its
    native fee. -/
theorem step_supply (hcur : cur.Exact) {s s' : World A AssetId σ τ} {c : Call A AssetId}
    (hstored : s.rest.externalBalances.isSome) (hc : c.KeepsExternal)
    (h : step cfg cur s c = .ok s') :
    s'.rest.externalBalances.isSome ∧ supply cfg cur s' = supply cfg cur s + nativeFee s c := by
  cases c with
  | bridge c =>
    -- a call of the bridge touches the handler only through the proposal it dispatches
    have hm := Bridge.step_move (Reach.mapError_eq_ok.1 h)
    rcases hm.dispatch with ⟨hrest, -⟩ | ⟨_, _, prop, -, -, hd⟩
    · refine ⟨hrest ▸ hstored, ?_⟩
      simp only [supply, hrest, nativeFee, Nat.add_zero]
    · obtain ⟨hsup, hst⟩ := dispatch_supply hcur hd
      exact ⟨hst hstored, hsup⟩
  | transferAssets source amount recipient destId resourceId =>
    obtain ⟨actual, hout⟩ := transferAssets_ok h
    obtain ⟨e, he⟩ := Option.isSome_iff_exists.1 hstored
    simp only [supply, nativeFee]
    cases hinfo : s.rest.resourceToAssetInfo resourceId with
    | none =>
      unfold AssetsHandler.prepareTokenBridgeOut at hout
      rw [hinfo] at hout
      cases hout
    | some info =>
      obtain ⟨fee, asset⟩ := info
      cases asset with
      | none =>
        exact ⟨(AssetsHandler.prepareTokenBridgeOut_native hcur hinfo hout).2.2.2.1,
          AssetsHandler.prepareTokenBridgeOut_supply_of_stored hcur hinfo he hout⟩
      | some asset =>
        obtain ⟨hsup, hext⟩ := AssetsHandler.prepareTokenBridgeOut_asset hinfo hout
        exact ⟨hext ▸ hstored, hsup⟩
  | setResource => cases h; exact ⟨hstored, rfl⟩
  | removeResource => cases h; exact ⟨hstored, rfl⟩
  | setMaximumIssuance => cases h; exact ⟨hstored, rfl⟩
  | setExternalBalances => exact hc.elim

/-- **Over a run.** From a state with `ExternalBalances` written, a run that does
    not call `set_external_balances` raises the supply by the sum of the fees of
    its native transfers out. -/
theorem run_supply (hcur : cur.Exact) {s s' : World A AssetId σ τ} {cs : List (Call A AssetId)}
    (hstored : s.rest.externalBalances.isSome) (hcs : ∀ c ∈ cs, c.KeepsExternal)
    (h : Reach.runAll (step cfg cur) s cs = .ok s') :
    supply cfg cur s' = supply cfg cur s + Reach.sumSteps (step cfg cur) nativeFee s cs :=
  Reach.runAll_sum (I := fun s => s.rest.externalBalances.isSome)
    (fun _ _ _ hs hc hst => step_supply hcur hs hc hst) hstored hcs h

end Supply

/-! ## 4. The test runtime of `mock.rs` -/

/-- A native token of which only the total issuance is kept: a burn needs that
    much issued, a mint always succeeds. Assets of `pallet_assets` are refused. -/
def issuanceOnly : Currencies Nat Nat Nat Unit Unit where
  totalIssuance := id
  burnFrom := fun b _ amount => if amount ≤ b then .ok (amount, b - amount) else .error ()
  mintInto := fun b _ amount => .ok (amount, b + amount)
  burnFromAsset := fun _ _ _ _ => .error ()
  mintIntoAsset := fun _ _ _ _ => .error ()

theorem issuanceOnly_exact : issuanceOnly.Exact where
  burnFrom_ok := by
    intro b _ amount burnt b' h
    simp only [issuanceOnly] at h
    split_ifs at h with hle
    cases h
    exact ⟨rfl, show b - amount + amount = b by omega⟩
  mintInto_ok := by
    intro b _ amount minted b' h
    cases h
    rfl

/-- The constants of `mock.rs`: treasury `0x8`, `MaximumIssuance` and
    `ExternalTotalIssuance` both `20_000_000_000_000`, `u64` balances, chain `5`,
    proposal lifetime `50`, the bridge's account `PalletId(*b"litry/bg")`, and
    `RELAYER_A`, `RELAYER_B`, `RELAYER_C` as the members that may transfer out. -/
def mockConfig : Config Nat where
  handler := ⟨8, 20000000000000, 20000000000000, 64⟩
  bridgeChainId := 5
  proposalLifetime := 50
  bridgeAccount := 8247332732018126701
  transferAssetsMembers := fun a => decide (a ∈ [2, 3, 4])

/-- `NativeTokenResourceId` of `mock.rs`. -/
def nativeTokenResourceId : ResourceId :=
  ⟨[0, 0, 0, 0, 0, 0, 0, 0, 0, 0, 0, 0, 0, 0, 0, 10, 33, 223, 232, 112, 40, 242, 20, 221, 151, 107,
    232, 71, 159, 90, 240, 1], rfl⟩

/-- `new_test_ext`: three accounts endowed with `100_000_000` each, at block `0`. -/
def mockGenesis : World Nat Nat Nat Unit :=
  Bridge.genesis 0 ⟨fun _ => none, none, 20000000000000, 300000000, ()⟩

theorem mockGenesis_genesis : Genesis mockConfig mockGenesis :=
  ⟨Bridge.Fresh.genesis _ _, fun _ => rfl, rfl, rfl⟩

/-- A native resource with fee `1`; `RELAYER_A` a relayer; a bridge-in of `10`
    to `RELAYER_A`, approved by its one vote, which writes `ExternalBalances`; then
    `transfer_assets` of `10` by `RELAYER_A` to chain `0`. -/
def feeRun : List (Call Nat Nat) :=
  [.bridge (.whitelistChain 0),
   .setResource nativeTokenResourceId ⟨1, none⟩,
   .bridge (.addRelayer 2),
   .bridge (.acknowledgeProposal 2 1 0 (.transfer 2 10 nativeTokenResourceId)),
   .transferAssets 2 10 [0, 0, 0, 0] 0 nativeTokenResourceId]

theorem feeRun_checks :
    Reach.runChecks (step mockConfig issuanceOnly) mockGenesis feeRun
      (fun s => supply mockConfig issuanceOnly s == supply mockConfig issuanceOnly mockGenesis + 1) =
      true := by
  decide

theorem nativeSupply_drifts_by_fee :
    ∃ s cs s', Genesis mockConfig s ∧ (∀ c ∈ cs, Call.KeepsExternal c) ∧
      Reach.runAll (step mockConfig issuanceOnly) s cs = .ok s' ∧
      supply mockConfig issuanceOnly s' = supply mockConfig issuanceOnly s + 1 := by
  obtain ⟨s', hr, hs'⟩ := Reach.runAll_of_runChecks feeRun_checks
  refine ⟨mockGenesis, feeRun, s', mockGenesis_genesis, ?_, hr, by simpa using hs'⟩
  simp [feeRun, Call.KeepsExternal]


/-- Where the first four calls of `feeRun` leave the runtime: after the bridge-in, with
    `ExternalBalances` written. -/
def bridgedIn : World Nat Nat Nat Unit :=
  (Reach.runAll (step mockConfig issuanceOnly) mockGenesis (feeRun.take 4)).toOption.getD mockGenesis

theorem transferOut_checks :
    Reach.runChecks (step mockConfig issuanceOnly) bridgedIn (feeRun.drop 4)
      (fun _ => bridgedIn.rest.externalBalances.isSome) = true := by
  decide

theorem run_supply_after_bridgeIn : ∃ s',
    Reach.runAll (step mockConfig issuanceOnly) bridgedIn (feeRun.drop 4) = .ok s' ∧
      supply mockConfig issuanceOnly s' = supply mockConfig issuanceOnly bridgedIn +
        Reach.sumSteps (step mockConfig issuanceOnly) nativeFee bridgedIn (feeRun.drop 4) := by
  obtain ⟨s', hr, hstored⟩ := Reach.runAll_of_runChecks transferOut_checks
  exact ⟨s', hr, run_supply issuanceOnly_exact hstored (by simp [feeRun, Call.KeepsExternal]) hr⟩

/-- The handler of `new_test_ext` with the native resource at fee `1`, `ExternalBalances` never
    written. -/
def nativeHandler : AssetsHandler.State Nat Nat Unit :=
  AssetsHandler.setResource mockGenesis.rest nativeTokenResourceId ⟨1, none⟩

theorem prepareTokenBridgeOut_supply_of_unset_at_mock : ∃ actual s',
    AssetsHandler.prepareTokenBridgeOut mockConfig.handler issuanceOnly nativeHandler
        nativeTokenResourceId 2 10 = .ok (actual, s') ∧
      AssetsHandler.supply mockConfig.handler issuanceOnly s' =
        AssetsHandler.supply mockConfig.handler issuanceOnly nativeHandler + 1 + 10 := by
  obtain ⟨⟨actual, s'⟩, h⟩ : ∃ r, AssetsHandler.prepareTokenBridgeOut mockConfig.handler
      issuanceOnly nativeHandler nativeTokenResourceId 2 10 = .ok r := ⟨_, rfl⟩
  exact ⟨actual, s', h, AssetsHandler.prepareTokenBridgeOut_supply_of_unset issuanceOnly_exact
    (by simp [nativeHandler, AssetsHandler.setResource]) rfl (by decide) h⟩

end BridgeTransfer
end Litentry
