import Litentry.Bridge.Pallet

/-!
# `pallet_assets_handler`: what a bridge transfer does to the balances

The `BridgeHandler` the bridge transfers go through. A resource id maps to an
`AssetInfo`: a fee, and an asset of `pallet_assets`, or `None` for the native
token. For the native token the pallet keeps `ExternalBalances`, the amount of
the token held on the other side of the bridge:

* `prepare_token_bridge_in` checks `MaximumIssuance`, lowers `ExternalBalances`
  by the amount, and mints it to the recipient;
* `prepare_token_bridge_out` burns the amount, raises `ExternalBalances` by the
  amount burnt, mints the fee to the treasury, and returns the amount less the
  fee, which is what the other side receives.

`ExternalBalances` has a default that is computed when it is read:
`ExternalTotalIssuance` less the native token's current total issuance, or `0`.
So the state records whether it was ever written.

The two currencies are parameters (`Currencies`): the native token's
`pallet_balances` and `pallet_assets`, each with its own state. What the results
about them assume is `Currencies.Exact`: a burn with `Precision::Exact` burns
exactly the amount asked and lowers the total issuance by it, and a mint raises
it by the amount minted.
-/

set_option autoImplicit false

namespace Litentry
namespace AssetsHandler

open Bridge (ResourceId)

/-! ## 1. State -/

/-- `AssetInfo`: the fee, and the asset, `None` for the native token. -/
structure AssetInfo (AssetId : Type) where
  fee : Nat
  asset : Option AssetId
  deriving DecidableEq

/-- The pallet's storage, with the states of the two currencies it mints and
    burns. -/
structure State (AssetId σ τ : Type) where
  resourceToAssetInfo : ResourceId → Option (AssetInfo AssetId)
  externalBalances : Option Nat
  maximumIssuance : Nat
  balances : σ
  assets : τ

/-- What the runtime fixes: `T::TreasuryAccount`, `T::DefaultMaximumIssuance`,
    `T::ExternalTotalIssuance`, and the width of `T::Balance`. -/
structure Config (A : Type) where
  treasuryAccount : A
  defaultMaximumIssuance : Nat
  externalTotalIssuance : Nat
  balanceBits : Nat

/-- The operations of the two currencies the handler calls: for the native token
    (`pallet_balances`) its total issuance, `burn_from` with `Precision::Exact`
    and `Fortitude::Polite`, and `mint_into`; for `pallet_assets` the same per
    asset. Each returns the amount burnt or minted. -/
structure Currencies (A AssetId σ τ ε : Type) where
  totalIssuance : σ → Nat
  burnFrom : σ → A → Nat → Except ε (Nat × σ)
  mintInto : σ → A → Nat → Except ε (Nat × σ)
  burnFromAsset : τ → AssetId → A → Nat → Except ε (Nat × τ)
  mintIntoAsset : τ → AssetId → A → Nat → Except ε (Nat × τ)

/-- What is assumed of the native token: an exact burn burns the amount asked
    and lowers the total issuance by it; a mint raises it by the amount. -/
structure Currencies.Exact {A AssetId σ τ ε : Type} (cur : Currencies A AssetId σ τ ε) : Prop where
  burnFrom_ok : ∀ {b : σ} {who : A} {amount burnt : Nat} {b' : σ},
    cur.burnFrom b who amount = .ok (burnt, b') →
      burnt = amount ∧ cur.totalIssuance b' + amount = cur.totalIssuance b
  mintInto_ok : ∀ {b : σ} {who : A} {amount minted : Nat} {b' : σ},
    cur.mintInto b who amount = .ok (minted, b') →
      cur.totalIssuance b' = cur.totalIssuance b + amount

/-- The pallet's `Error`. -/
inductive Error where
  | invalidResourceId
  | cannotPayAsFee
  | reachMaximumSupply
  | overflow
  deriving DecidableEq, Repr

/-- A call of the handler fails with its own error, with
    `ArithmeticError::Overflow`, or with an error of a currency. -/
inductive DispatchError (ε : Type) where
  | module (e : Error)
  | arithmeticOverflow
  | currency (e : ε)

/-- `checked_add` on `T::Balance`, of `bits` bits. -/
def checkedAdd (bits a b : Nat) : Option Nat := if a + b < 2 ^ bits then some (a + b) else none

/-- `checked_sub`. -/
def checkedSub (a b : Nat) : Option Nat := if b ≤ a then some (a - b) else none

/-! ## 2. The handler -/

section Handler

variable {A AssetId σ τ ε : Type} (cfg : Config A) (cur : Currencies A AssetId σ τ ε)

/-- `ExternalBalances::get`: the stored value, or the default
    `ExternalTotalIssuance.checked_sub(total_issuance)`, else `0`. -/
def externalBalances (s : State AssetId σ τ) : Nat :=
  s.externalBalances.getD (cfg.externalTotalIssuance - cur.totalIssuance s.balances)

/-- `prepare_token_bridge_in`: returns what `mint_into` returns. -/
def prepareTokenBridgeIn (s : State AssetId σ τ) (resourceId : ResourceId) (who : A) (amount : Nat) :
    Except (DispatchError ε) (Nat × State AssetId σ τ) :=
  match s.resourceToAssetInfo resourceId with
  | none => .error (.module .invalidResourceId)
  | some ⟨_, none⟩ => do
    -- the native token: the maximum issuance, then the external balances
    let totalIssuance := cur.totalIssuance s.balances
    let some newIssuance := checkedAdd cfg.balanceBits totalIssuance amount
      | throw (.module .overflow)
    if s.maximumIssuance < newIssuance then throw (.module .reachMaximumSupply)
    let some external := checkedSub (externalBalances cfg cur s) amount
      | throw (.module .overflow)
    let s := { s with externalBalances := some external }
    let (minted, balances) ← (cur.mintInto s.balances who amount).mapError .currency
    pure (minted, { s with balances := balances })
  | some ⟨_, some asset⟩ => do
    let (minted, assets) ← (cur.mintIntoAsset s.assets asset who amount).mapError .currency
    pure (minted, { s with assets := assets })

/-- `prepare_token_bridge_out`: returns the amount burnt less the fee. -/
def prepareTokenBridgeOut (s : State AssetId σ τ) (resourceId : ResourceId) (who : A) (amount : Nat) :
    Except (DispatchError ε) (Nat × State AssetId σ τ) :=
  match s.resourceToAssetInfo resourceId with
  | none => .error (.module .invalidResourceId)
  | some ⟨fee, none⟩ => do
    let (burnAmount, balances) ← (cur.burnFrom s.balances who amount).mapError .currency
    let s := { s with balances := balances }
    if burnAmount ≤ fee then throw (.module .cannotPayAsFee)
    -- read after the burn: an unwritten default counts the burnt amount already
    let some external := checkedAdd cfg.balanceBits (externalBalances cfg cur s) burnAmount
      | throw (.module .overflow)
    let s := { s with externalBalances := some external }
    let (_, balances) ← (cur.mintInto s.balances cfg.treasuryAccount fee).mapError .currency
    let s := { s with balances := balances }
    let some actual := checkedSub burnAmount fee | throw .arithmeticOverflow
    pure (actual, s)
  | some ⟨fee, some asset⟩ => do
    let (burnAmount, assets) ← (cur.burnFromAsset s.assets asset who amount).mapError .currency
    if burnAmount ≤ fee then throw (.module .cannotPayAsFee)
    let (_, assets) ← (cur.mintIntoAsset assets asset cfg.treasuryAccount fee).mapError .currency
    let some actual := checkedSub burnAmount fee | throw .arithmeticOverflow
    pure (actual, { s with assets := assets })

end Handler

/-! ## 3. The calls of the committee -/

section Admin

variable {AssetId σ τ : Type}

/-- `set_resource`. -/
def setResource (s : State AssetId σ τ) (resourceId : ResourceId) (asset : AssetInfo AssetId) :
    State AssetId σ τ :=
  { s with resourceToAssetInfo := Function.update s.resourceToAssetInfo resourceId (some asset) }

/-- `remove_resource`. -/
def removeResource (s : State AssetId σ τ) (resourceId : ResourceId) : State AssetId σ τ :=
  { s with resourceToAssetInfo := Function.update s.resourceToAssetInfo resourceId none }

/-- `set_maximum_issuance`. -/
def setMaximumIssuance (s : State AssetId σ τ) (maximumIssuance : Nat) : State AssetId σ τ :=
  { s with maximumIssuance := maximumIssuance }

/-- `set_external_balances`. -/
def setExternalBalances (s : State AssetId σ τ) (externalBalances : Nat) : State AssetId σ τ :=
  { s with externalBalances := some externalBalances }

end Admin

/-! ## 4. What a transfer does to the balances -/

section Supply

variable {A AssetId σ τ ε : Type} (cfg : Config A) (cur : Currencies A AssetId σ τ ε)

/-- The native token on both sides of the bridge: its total issuance here, and
    `ExternalBalances`. -/
def supply (s : State AssetId σ τ) : Nat := cur.totalIssuance s.balances + externalBalances cfg cur s

variable {cfg cur} {s s' : State AssetId σ τ} {rid : ResourceId} {who : A} {amount : Nat}

theorem checkedAdd_eq_some {bits a b c : Nat} :
    checkedAdd bits a b = some c ↔ a + b < 2 ^ bits ∧ c = a + b := by
  unfold checkedAdd
  split_ifs with h <;> simp [h, eq_comm]

theorem checkedSub_eq_some {a b c : Nat} : checkedSub a b = some c ↔ b ≤ a ∧ c = a - b := by
  unfold checkedSub
  split_ifs with h <;> simp [h, eq_comm]

/-- What a native bridge-in does when it succeeds. -/
theorem prepareTokenBridgeIn_native_ok {fee minted : Nat}
    (hinfo : s.resourceToAssetInfo rid = some ⟨fee, none⟩)
    (h : prepareTokenBridgeIn cfg cur s rid who amount = .ok (minted, s')) :
    ∃ b', cur.totalIssuance s.balances + amount < 2 ^ cfg.balanceBits ∧
      cur.totalIssuance s.balances + amount ≤ s.maximumIssuance ∧
      amount ≤ externalBalances cfg cur s ∧ cur.mintInto s.balances who amount = .ok (minted, b') ∧
      s' = { s with
        externalBalances := some (externalBalances cfg cur s - amount)
        balances := b' } := by
  unfold prepareTokenBridgeIn at h
  rw [hinfo] at h
  simp only [bind, Except.bind, throw, throwThe, MonadExceptOf.throw, pure, Except.pure] at h
  split at h
  · rename_i newIssuance hnew
    rw [checkedAdd_eq_some] at hnew
    obtain ⟨hmax, h⟩ := Reach.ite_error_eq_ok.1 h
    split at h
    · rename_i external hext
      rw [checkedSub_eq_some] at hext
      obtain ⟨⟨m, b'⟩, hm, h⟩ := Reach.bind_eq_ok.1 h
      rw [Reach.mapError_eq_ok] at hm
      cases h
      refine ⟨b', hnew.1, by omega, hext.1, hm, ?_⟩
      rw [hext.2]
    · cases h
  · cases h

/-- What a bridge-in of an asset of `pallet_assets` does when it succeeds. -/
theorem prepareTokenBridgeIn_asset_ok {fee minted : Nat} {asset : AssetId}
    (hinfo : s.resourceToAssetInfo rid = some ⟨fee, some asset⟩)
    (h : prepareTokenBridgeIn cfg cur s rid who amount = .ok (minted, s')) :
    ∃ t', cur.mintIntoAsset s.assets asset who amount = .ok (minted, t') ∧
      s' = { s with assets := t' } := by
  unfold prepareTokenBridgeIn at h
  rw [hinfo] at h
  obtain ⟨⟨m, t'⟩, hm, h⟩ := Reach.bind_eq_ok.1 h
  rw [Reach.mapError_eq_ok] at hm
  cases h
  exact ⟨t', hm, rfl⟩

/-- What a native bridge-out does when it succeeds. -/
theorem prepareTokenBridgeOut_native_ok {fee actual : Nat}
    (hinfo : s.resourceToAssetInfo rid = some ⟨fee, none⟩)
    (h : prepareTokenBridgeOut cfg cur s rid who amount = .ok (actual, s')) :
    ∃ burnt b₁ minted b₂, cur.burnFrom s.balances who amount = .ok (burnt, b₁) ∧ fee < burnt ∧
      externalBalances cfg cur { s with balances := b₁ } + burnt < 2 ^ cfg.balanceBits ∧
      cur.mintInto b₁ cfg.treasuryAccount fee = .ok (minted, b₂) ∧ actual = burnt - fee ∧
      s' = { s with
        externalBalances := some (externalBalances cfg cur { s with balances := b₁ } + burnt)
        balances := b₂ } := by
  unfold prepareTokenBridgeOut at h
  rw [hinfo] at h
  obtain ⟨⟨burnt, b₁⟩, hb, h⟩ := Reach.bind_eq_ok.1 h
  rw [Reach.mapError_eq_ok] at hb
  simp only [bind, Except.bind, throw, throwThe, MonadExceptOf.throw, pure, Except.pure,
    Reach.ite_error_eq_ok, not_le] at h
  obtain ⟨hfee, h⟩ := h
  split at h
  · rename_i external hext
    rw [checkedAdd_eq_some] at hext
    obtain ⟨⟨minted, b₂⟩, hm, h⟩ := Reach.bind_eq_ok.1 h
    rw [Reach.mapError_eq_ok] at hm
    split at h
    · rename_i act hact
      rw [checkedSub_eq_some] at hact
      cases h
      exact ⟨burnt, b₁, minted, b₂, hb, hfee, hext.1, hm, hact.2, by rw [hext.2]⟩
    · cases h
  · cases h

/-- What a bridge-out of an asset of `pallet_assets` does when it succeeds. -/
theorem prepareTokenBridgeOut_asset_ok {fee actual : Nat} {asset : AssetId}
    (hinfo : s.resourceToAssetInfo rid = some ⟨fee, some asset⟩)
    (h : prepareTokenBridgeOut cfg cur s rid who amount = .ok (actual, s')) :
    ∃ burnt t₁ minted t₂, cur.burnFromAsset s.assets asset who amount = .ok (burnt, t₁) ∧
      fee < burnt ∧ cur.mintIntoAsset t₁ asset cfg.treasuryAccount fee = .ok (minted, t₂) ∧
      actual = burnt - fee ∧ s' = { s with assets := t₂ } := by
  unfold prepareTokenBridgeOut at h
  rw [hinfo] at h
  obtain ⟨⟨burnt, t₁⟩, hb, h⟩ := Reach.bind_eq_ok.1 h
  rw [Reach.mapError_eq_ok] at hb
  simp only [bind, Except.bind, throw, throwThe, MonadExceptOf.throw, pure, Except.pure,
    Reach.ite_error_eq_ok, not_le] at h
  obtain ⟨hfee, h⟩ := h
  obtain ⟨⟨minted, t₂⟩, hm, h⟩ := Reach.bind_eq_ok.1 h
  rw [Reach.mapError_eq_ok] at hm
  split at h
  · rename_i act hact
    rw [checkedSub_eq_some] at hact
    cases h
    exact ⟨burnt, t₁, minted, t₂, hb, hfee, hm, hact.2, rfl⟩
  · cases h

/-- **A bridge-in keeps the supply**, and a written `ExternalBalances` stays written. -/
theorem prepareTokenBridgeIn_supply (hcur : cur.Exact) {minted : Nat}
    (h : prepareTokenBridgeIn cfg cur s rid who amount = .ok (minted, s')) :
    supply cfg cur s' = supply cfg cur s ∧
      (s.externalBalances.isSome → s'.externalBalances.isSome) := by
  cases hinfo : s.resourceToAssetInfo rid with
  | none =>
    unfold prepareTokenBridgeIn at h
    rw [hinfo] at h
    cases h
  | some info =>
    obtain ⟨fee, asset⟩ := info
    cases asset with
    | none =>
      obtain ⟨b', -, -, hle, hm, rfl⟩ := prepareTokenBridgeIn_native_ok hinfo h
      -- the amount leaves the external balances and is minted here
      have hti := hcur.mintInto_ok hm
      refine ⟨?_, fun _ => rfl⟩
      simp only [supply, externalBalances, Option.getD_some] at hle ⊢
      rw [hti]
      omega
    | some asset =>
      obtain ⟨t', -, rfl⟩ := prepareTokenBridgeIn_asset_ok hinfo h
      exact ⟨rfl, id⟩

/-- **A native bridge-out returns the amount less the fee**, and leaves the supply
    at the total issuance before it, plus the fee, plus `ExternalBalances` as read
    after the burn. -/
theorem prepareTokenBridgeOut_native (hcur : cur.Exact) {fee actual : Nat}
    (hinfo : s.resourceToAssetInfo rid = some ⟨fee, none⟩)
    (h : prepareTokenBridgeOut cfg cur s rid who amount = .ok (actual, s')) :
    actual = amount - fee ∧ fee < amount ∧ amount ≤ cur.totalIssuance s.balances ∧
      s'.externalBalances.isSome ∧
      supply cfg cur s' = cur.totalIssuance s.balances + fee +
        s.externalBalances.getD (cfg.externalTotalIssuance - (cur.totalIssuance s.balances - amount)) := by
  obtain ⟨burnt, b₁, minted, b₂, hb, hfee, -, hm, rfl, rfl⟩ := prepareTokenBridgeOut_native_ok hinfo h
  obtain ⟨rfl, hburn⟩ := hcur.burnFrom_ok hb
  have hmint := hcur.mintInto_ok hm
  -- the burn lowered the issuance by exactly the amount
  have hb₁ : cur.totalIssuance b₁ = cur.totalIssuance s.balances - burnt := by omega
  refine ⟨rfl, hfee, by omega, rfl, ?_⟩
  simp only [supply, externalBalances, Option.getD_some]
  rw [hmint, hb₁]
  omega

/-- With `ExternalBalances` written, a native bridge-out raises the supply by its fee. -/
theorem prepareTokenBridgeOut_supply_of_stored (hcur : cur.Exact) {fee actual e : Nat}
    (hinfo : s.resourceToAssetInfo rid = some ⟨fee, none⟩) (he : s.externalBalances = some e)
    (h : prepareTokenBridgeOut cfg cur s rid who amount = .ok (actual, s')) :
    supply cfg cur s' = supply cfg cur s + fee := by
  rw [(prepareTokenBridgeOut_native hcur hinfo h).2.2.2.2]
  simp only [supply, externalBalances, he, Option.getD_some]
  omega

/-- With `ExternalBalances` never written, its default already counts the burnt
    amount when it is read, and the amount is added again: a native bridge-out
    raises the supply by its fee and by the amount. -/
theorem prepareTokenBridgeOut_supply_of_unset (hcur : cur.Exact) {fee actual : Nat}
    (hinfo : s.resourceToAssetInfo rid = some ⟨fee, none⟩) (he : s.externalBalances = none)
    (hle : cur.totalIssuance s.balances ≤ cfg.externalTotalIssuance)
    (h : prepareTokenBridgeOut cfg cur s rid who amount = .ok (actual, s')) :
    supply cfg cur s' = supply cfg cur s + fee + amount := by
  obtain ⟨-, -, hamount, -, hs'⟩ := prepareTokenBridgeOut_native hcur hinfo h
  rw [hs']
  simp only [supply, externalBalances, he, Option.getD_none]
  omega

/-- A bridge-out of an asset of `pallet_assets` leaves the native token alone. -/
theorem prepareTokenBridgeOut_asset {fee actual : Nat} {asset : AssetId}
    (hinfo : s.resourceToAssetInfo rid = some ⟨fee, some asset⟩)
    (h : prepareTokenBridgeOut cfg cur s rid who amount = .ok (actual, s')) :
    supply cfg cur s' = supply cfg cur s ∧ s'.externalBalances = s.externalBalances := by
  obtain ⟨burnt, t₁, minted, t₂, -, -, -, -, rfl⟩ := prepareTokenBridgeOut_asset_ok hinfo h
  exact ⟨rfl, rfl⟩

end Supply

end AssetsHandler
end Litentry
