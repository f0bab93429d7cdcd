import Litentry.AssetManager.Pallet

/-!
# XCM locations of assets, and the conversion to asset ids

An asset arriving over XCM is named by a `MultiLocation`. The runtime turns a location
into a `CurrencyId` (`LIT` itself, `SelfReserve`, or a foreign asset,
`ParachainReserve(location)`), and the asset manager maps a `CurrencyId` to a numeric
asset id and back (`runtime/common/src/xcm_impl.rs`, `AssetIdMuliLocationConvert`).

`LIT` has two locations. The old anchoring is seen from the relay chain:
`(1, [Parachain(para_id), PalletInstance(balances_index)])`. The new anchoring is seen
from the parachain itself: `(0, [PalletInstance(balances_index)])`. Both decode to
`SelfReserve`, and `SelfReserve` is rendered as the old anchoring. So the conversion
loses information in two places. Both anchorings collapse to one `CurrencyId`. And a
`ParachainReserve` of an anchoring location is rendered as a location that decodes to
`SelfReserve`. The round trip through the asset manager holds for every registered
default type except such a `ParachainReserve` (`assetConversion_roundTrip`), and the
asset manager accepts one (`convertRef_reverseRef_fails`).

A `MultiLocation` is compared for equality and nothing else; `Junction` keeps every
variant of `xcm::v3`, the `network` fields, `Plurality` and `GlobalConsensus` among them,
with fixed-size byte arrays as lists.
-/

set_option autoImplicit false

namespace Litentry
namespace Xcm

/-- `xcm::v3::NetworkId`. -/
inductive NetworkId where
  | byGenesis (genesis : List UInt8)
  | byFork (blockNumber : Nat) (blockHash : List UInt8)
  | polkadot
  | kusama
  | westend
  | rococo
  | wococo
  | ethereum (chainId : Nat)
  | bitcoinCore
  | bitcoinCash
  deriving DecidableEq

/-- `xcm::v3::BodyId`. -/
inductive BodyId where
  | unit
  | moniker (name : List UInt8)
  | index (index : Nat)
  | executive
  | technical
  | legislative
  | judicial
  | defense
  | administration
  | treasury
  deriving DecidableEq

/-- `xcm::v3::BodyPart`. -/
inductive BodyPart where
  | voice
  | members (count : Nat)
  | fraction (nom denom : Nat)
  | atLeastProportion (nom denom : Nat)
  | moreThanProportion (nom denom : Nat)
  deriving DecidableEq

/-- `xcm::v3::Junction`. -/
inductive Junction where
  | parachain (id : Nat)
  | accountId32 (network : Option NetworkId) (id : List UInt8)
  | accountIndex64 (network : Option NetworkId) (index : Nat)
  | accountKey20 (network : Option NetworkId) (key : List UInt8)
  | palletInstance (index : UInt8)
  | generalIndex (index : Nat)
  | generalKey (length : UInt8) (data : List UInt8)
  | onlyChild
  | plurality (id : BodyId) (part : BodyPart)
  | globalConsensus (network : NetworkId)
  deriving DecidableEq

/-- `MultiLocation`: the number of parents, and the junctions of `X1` to `X8` (`Here` is
    none). -/
structure MultiLocation where
  parents : UInt8
  interior : List Junction
  interior_length : interior.length ≤ 8
  deriving DecidableEq

section Runtime

-- `ParachainInfo::parachain_id()`, and `index() as u8` of the runtime's balances pallet
variable (paraId : Nat) (balancesIndex : UInt8)

/-- `OldAnchoringSelfReserve::get()`. -/
def oldAnchoringSelfReserve : MultiLocation :=
  ⟨1, [.parachain paraId, .palletInstance balancesIndex], by simp⟩

/-- `NewAnchoringSelfReserve::get()`. -/
def newAnchoringSelfReserve : MultiLocation :=
  ⟨0, [.palletInstance balancesIndex], by simp⟩

/-- `CurrencyId<R>`: `LIT`, or an asset named by its location. -/
inductive CurrencyId where
  | selfReserve
  | parachainReserve (location : MultiLocation)
  deriving DecidableEq

/-- `From<MultiLocation> for CurrencyId<R>`: either anchoring is `SelfReserve`. -/
def CurrencyId.ofLocation (location : MultiLocation) : CurrencyId :=
  if location = oldAnchoringSelfReserve paraId balancesIndex ∨
      location = newAnchoringSelfReserve balancesIndex then .selfReserve
  else .parachainReserve location

/-- `From<CurrencyId<R>> for Option<MultiLocation>`: `SelfReserve` is the old anchoring. -/
def CurrencyId.toLocation : CurrencyId → Option MultiLocation
  | .selfReserve => some (oldAnchoringSelfReserve paraId balancesIndex)
  | .parachainReserve multi => some multi

/-- `CurrencyIdMultiLocationConvert::convert` from a location. -/
def currencyIdOfLocation (multi : MultiLocation) : Option CurrencyId :=
  if multi = oldAnchoringSelfReserve paraId balancesIndex ∨
      multi = newAnchoringSelfReserve balancesIndex then some .selfReserve
  else some (.parachainReserve multi)

/-- `CurrencyIdMultiLocationConvert::convert` to a location. -/
def locationOfCurrencyId (currency : CurrencyId) : Option MultiLocation :=
  CurrencyId.toLocation paraId balancesIndex currency

/-- `AssetIdMuliLocationConvert::convert_ref`: the location's currency, then its id in
    `AssetTypeId`. -/
def convertRef (s : AssetManager.State CurrencyId) (multi : MultiLocation) : Except Unit Nat :=
  match currencyIdOfLocation paraId balancesIndex multi with
  | some currencyId =>
    match s.assetTypeId currencyId with
    | some assetId => .ok assetId
    | none => .error ()
  | none => .error ()

/-- `AssetIdMuliLocationConvert::reverse_ref`: the id's default type in `AssetIdType`, then
    its location. -/
def reverseRef (s : AssetManager.State CurrencyId) (assetId : Nat) : Except Unit MultiLocation :=
  match s.assetIdType assetId with
  | some currencyId =>
    match locationOfCurrencyId paraId balancesIndex currencyId with
    | some multi => .ok multi
    | none => .error ()
  | none => .error ()

/-! ## The currency of a location -/

theorem currencyIdOfLocation_eq (multi : MultiLocation) :
    currencyIdOfLocation paraId balancesIndex multi =
      some (CurrencyId.ofLocation paraId balancesIndex multi) := by
  unfold currencyIdOfLocation CurrencyId.ofLocation
  split_ifs <;> rfl

theorem ofLocation_oldAnchoring :
    CurrencyId.ofLocation paraId balancesIndex (oldAnchoringSelfReserve paraId balancesIndex) =
      .selfReserve :=
  if_pos (.inl rfl)

theorem ofLocation_newAnchoring :
    CurrencyId.ofLocation paraId balancesIndex (newAnchoringSelfReserve balancesIndex) =
      .selfReserve :=
  if_pos (.inr rfl)

/-- A currency that is not a `ParachainReserve` of an anchoring location. -/
def CurrencyId.Plain : CurrencyId → Prop
  | .selfReserve => True
  | .parachainReserve l =>
    l ≠ oldAnchoringSelfReserve paraId balancesIndex ∧ l ≠ newAnchoringSelfReserve balancesIndex

/-- A plain currency survives the trip to its location and back; the two anchorings are
    where the conversion loses information. -/
theorem ofLocation_toLocation {c : CurrencyId} (hc : c.Plain paraId balancesIndex) :
    ∃ l, c.toLocation paraId balancesIndex = some l ∧
      CurrencyId.ofLocation paraId balancesIndex l = c := by
  cases c with
  | selfReserve => exact ⟨_, rfl, ofLocation_oldAnchoring paraId balancesIndex⟩
  | parachainReserve l =>
    refine ⟨l, rfl, ?_⟩
    obtain ⟨hold, hnew⟩ := hc
    unfold CurrencyId.ofLocation
    rw [if_neg (not_or.2 ⟨hold, hnew⟩)]

/-! ## The round trip through the asset manager -/

variable {s : AssetManager.State CurrencyId}

theorem convertRef_eq_ok {multi : MultiLocation} {assetId : Nat} :
    convertRef paraId balancesIndex s multi = .ok assetId ↔
      s.assetTypeId (CurrencyId.ofLocation paraId balancesIndex multi) = some assetId := by
  unfold convertRef
  rw [currencyIdOfLocation_eq]
  dsimp only
  split <;> simp_all

/-- An id whose default type is plain converts to a location that converts back to it. -/
theorem roundTrip_of_default (h : AssetManager.Inv s) {assetId : Nat} {c : CurrencyId}
    (hd : s.assetIdType assetId = some c) (hc : c.Plain paraId balancesIndex) :
    ∃ l, reverseRef paraId balancesIndex s assetId = .ok l ∧
      convertRef paraId balancesIndex s l = .ok assetId := by
  obtain ⟨l, hl, hback⟩ := ofLocation_toLocation paraId balancesIndex hc
  refine ⟨l, ?_, ?_⟩
  · unfold reverseRef locationOfCurrencyId
    rw [hd]
    dsimp only
    rw [hl]
  · rw [convertRef_eq_ok, hback]
    exact h.typeId_of_idType assetId c hd

/-- **The round trip.** In every reachable state of the asset manager whose default types
    are plain: every registered id converts to a location that converts back to it, and
    every location that converts to an id is sent by that id to a location that converts
    back to it. `SelfReserve` is rendered as the old anchoring, and both anchorings decode
    to `SelfReserve`. -/
theorem assetConversion_roundTrip {assetIdMax : Nat} (h : AssetManager.Reachable assetIdMax s)
    (hplain : ∀ assetId c, s.assetIdType assetId = some c → c.Plain paraId balancesIndex) :
    (∀ assetId, (s.assetIdType assetId).isSome → ∃ l,
        reverseRef paraId balancesIndex s assetId = .ok l ∧
          convertRef paraId balancesIndex s l = .ok assetId) ∧
      (∀ l assetId, convertRef paraId balancesIndex s l = .ok assetId → ∃ l',
        reverseRef paraId balancesIndex s assetId = .ok l' ∧
          convertRef paraId balancesIndex s l' = .ok assetId) ∧
      CurrencyId.selfReserve.toLocation paraId balancesIndex =
        some (oldAnchoringSelfReserve paraId balancesIndex) ∧
      currencyIdOfLocation paraId balancesIndex (oldAnchoringSelfReserve paraId balancesIndex) =
        some .selfReserve ∧
      currencyIdOfLocation paraId balancesIndex (newAnchoringSelfReserve balancesIndex) =
        some .selfReserve := by
  have hinv := h.inv
  refine ⟨fun assetId hi => ?_, fun l assetId hl => ?_, rfl, ?_, ?_⟩
  · obtain ⟨c, hc⟩ := Option.isSome_iff_exists.1 hi
    exact roundTrip_of_default paraId balancesIndex hinv hc (hplain assetId c hc)
  · -- the id the location converts to is registered, with some default type
    have hreg := hinv.idType_of_typeId _ assetId ((convertRef_eq_ok paraId balancesIndex).1 hl)
    obtain ⟨c, hc⟩ := Option.isSome_iff_exists.1 hreg
    exact roundTrip_of_default paraId balancesIndex hinv hc (hplain assetId c hc)
  · rw [currencyIdOfLocation_eq, ofLocation_oldAnchoring]
  · rw [currencyIdOfLocation_eq, ofLocation_newAnchoring]

/-- Registering `ParachainReserve` of the old anchoring as a foreign asset gives an id that
    `reverse_ref` sends to the old anchoring, which `convert_ref` reads as `SelfReserve`,
    an asset type nothing registered. -/
theorem convertRef_reverseRef_fails (metadata : AssetManager.AssetMetadata) :
    ∃ s : AssetManager.State CurrencyId, AssetManager.Reachable (2 ^ 128 - 1) s ∧
      (s.assetIdType 0).isSome ∧
      reverseRef paraId balancesIndex s 0 = .ok (oldAnchoringSelfReserve paraId balancesIndex) ∧
      convertRef paraId balancesIndex s (oldAnchoringSelfReserve paraId balancesIndex) = .error () := by
  refine ⟨AssetManager.firstRegistered (.parachainReserve (oldAnchoringSelfReserve paraId balancesIndex))
    metadata, AssetManager.reachable_firstRegistered _ (by decide) _ _, rfl, rfl, ?_⟩
  -- the old anchoring is `SelfReserve`, which is not the registered type
  unfold convertRef
  rw [currencyIdOfLocation_eq, ofLocation_oldAnchoring]
  rfl

end Runtime

/-- The asset of sibling parachain `2034` at general index `0`. -/
def hydraLocation : MultiLocation := ⟨1, [.parachain 2034, .generalIndex 0], by decide⟩

/-- Metadata of an asset with 12 decimals. -/
def twelveDecimals : AssetManager.AssetMetadata := ⟨[], [], 12, 1, false⟩

theorem convertRef_reverseRef_fails_at_litentry :
    ∃ s : AssetManager.State CurrencyId, AssetManager.Reachable (2 ^ 128 - 1) s ∧
      (s.assetIdType 0).isSome ∧
      reverseRef 2013 10 s 0 = .ok (oldAnchoringSelfReserve 2013 10) ∧
      convertRef 2013 10 s (oldAnchoringSelfReserve 2013 10) = .error () :=
  convertRef_reverseRef_fails 2013 10 twelveDecimals

theorem assetConversion_roundTrip_after_register :
    let s := AssetManager.firstRegistered (CurrencyId.parachainReserve hydraLocation) twelveDecimals
    (∀ assetId, (s.assetIdType assetId).isSome → ∃ l,
        reverseRef 2013 10 s assetId = .ok l ∧ convertRef 2013 10 s l = .ok assetId) ∧
      (∀ l assetId, convertRef 2013 10 s l = .ok assetId → ∃ l',
        reverseRef 2013 10 s assetId = .ok l' ∧ convertRef 2013 10 s l' = .ok assetId) ∧
      CurrencyId.selfReserve.toLocation 2013 10 = some (oldAnchoringSelfReserve 2013 10) ∧
      currencyIdOfLocation 2013 10 (oldAnchoringSelfReserve 2013 10) = some .selfReserve ∧
      currencyIdOfLocation 2013 10 (newAnchoringSelfReserve 10) = some .selfReserve :=
  assetConversion_roundTrip 2013 10
    (AssetManager.reachable_firstRegistered (2 ^ 128 - 1) (by decide) _ _)
    (fun assetId c hc => by
      by_cases h0 : assetId = 0
      · subst h0
        cases hc
        exact ⟨by decide, by decide⟩
      · simp [AssetManager.firstRegistered, Function.update, h0] at hc)

end Xcm
end Litentry
