import Litentry.Lib.Word

/-!
# `FirstAssetTrader`: buying and refunding XCM execution weight

The XCM executor pays for execution with the trader of the runtime: `buy_weight` takes
the fee for a weight out of the holding register, `refund_weight` gives back the fee of
weight that was not used, and dropping the trader deposits what it kept
(`runtime/common/src/xcm_impl.rs`).

The trader is generic over the asset type and the asset manager, and so is the model:
`L` is the location type, and `UnitsToWeightRatio L` is what the asset manager answers
for a location, with the conversion `AssetType::from` folded in. Weights are their
`ref_time`, a `u64`; balances and `units_per_second` are `u128`. The release build has no
overflow checks, so the unchecked `*` of `refund_weight` wraps (`Word.wrappingMul`).

The holding register `xcm_executor::Assets` is its fungible part, a map from asset id to
balance in the order `fungible_assets_iter` yields it (the `BTreeMap` order); the
non-fungible part is passed along untouched and is left out.

`buy_weight` counts the bought `ref_time` twice when the asset is the one the trader
keeps for refunds, once before and once after the match. `refund_weight` caps a refund
by that counter, so the trader refunds up to twice what it charged
(`refund_exceeds_charge`).
-/

set_option autoImplicit false

namespace Litentry
namespace Xcm

variable {L : Type} [DecidableEq L]

/-- `xcm::AssetId`: a location, or 32 abstract bytes. -/
inductive AssetId (L : Type) where
  | concrete (location : L)
  | abstract (bytes : List UInt8)
  deriving DecidableEq

/-- The fungible part of `xcm_executor::Assets`, in iteration order. -/
abbrev Assets (L : Type) := AList fun _ : AssetId L => Nat

/-- `XcmError`, as far as the trader raises it. -/
inductive XcmError where
  | tooExpensive
  deriving DecidableEq, Repr

/-- `WEIGHT_REF_TIME_PER_SECOND`. -/
def weightRefTimePerSecond : Nat := 10 ^ 12

/-- `Assets::checked_sub` of a fungible amount: the balance of `id` goes down by `amount`,
    and the entry goes when nothing is left. -/
def checkedSub (payment : Assets L) (id : AssetId L) (amount : Nat) : Option (Assets L) :=
  match payment.lookup id with
  | none => none
  | some balance =>
    if amount ≤ balance then
      some (if balance - amount = 0 then payment.erase id else payment.replace id (balance - amount))
    else none

/-- What `AssetIdInfoGetter: UnitsToWeightRatio<AssetType>` answers for a location. -/
structure UnitsToWeightRatio (L : Type) where
  paymentIsSupported : L → Bool
  getUnitsPerSecond : L → Option Nat

/-- `FirstAssetTrader(u64, Option<(MultiLocation, u128, u128)>)`: the `ref_time` it counts,
    and the asset it refunds in, with the amount it holds and its `units_per_second`. -/
structure FirstAssetTrader (L : Type) where
  refTime : Nat
  stored : Option (L × Nat × Nat)

/-- `FirstAssetTrader::new`. -/
def FirstAssetTrader.new : FirstAssetTrader L := ⟨0, none⟩

/-- The asset a successful purchase leaves for refunds: the stored one, topped up, if it
    is the one paid in (with the `units_per_second` stored first); the paid one if none is
    stored; none if another is stored. -/
def newAsset (stored : Option (L × Nat × Nat)) (id : L) (amount unitsPerSecond : Nat) :
    Option (L × Nat × Nat) :=
  match stored with
  | some (prevId, prevAmount, unitsPerSecond) =>
    if prevId = id then some (id, Word.saturatingAdd 128 prevAmount amount, unitsPerSecond)
    else none
  | none => some (id, amount, unitsPerSecond)

/-- `buy_weight`: the fee for `weight` in the first asset of the payment. -/
def buyWeight (getter : UnitsToWeightRatio L) (weight : Nat) (payment : Assets L)
    (t : FirstAssetTrader L) : Except XcmError (Assets L) × FirstAssetTrader L :=
  match payment.entries.head? with
  | some ⟨.concrete id, _⟩ =>
    if !getter.paymentIsSupported id then (.error .tooExpensive, t)
    else match getter.getUnitsPerSecond id with
      | some unitsPerSecond =>
        let amount := Word.saturatingMul 128 unitsPerSecond weight / weightRefTimePerSecond
        if amount = 0 then (.ok payment, t)
        else match checkedSub payment (.concrete id) amount with
          | some unused =>
            let refTime := Word.saturatingAdd 64 t.refTime weight
            match newAsset t.stored id amount unitsPerSecond with
            | some asset => (.ok unused, ⟨Word.saturatingAdd 64 refTime weight, some asset⟩)
            | none => (.ok unused, { t with refTime := refTime })
          | none => (.error .tooExpensive, t)
      | none => (.error .tooExpensive, t)
  | _ => (.error .tooExpensive, t)

/-- `refund_weight`: the fee of at most `weight`, capped by the counter, in the stored
    asset. -/
def refundWeight (weight : Nat) (t : FirstAssetTrader L) : Option (L × Nat) × FirstAssetTrader L :=
  match t.stored with
  | some (id, prevAmount, unitsPerSecond) =>
    let refTime := min weight t.refTime
    let amount := Word.wrappingMul 128 unitsPerSecond refTime / weightRefTimePerSecond
    (some (id, amount), ⟨t.refTime - refTime, some (id, prevAmount - amount, unitsPerSecond)⟩)
  | none => (none, t)

/-- `Drop for FirstAssetTrader`: the revenue handed to `R::take_revenue`. -/
def drop (t : FirstAssetTrader L) : Option (L × Nat) :=
  t.stored.map fun (id, amount, _) => (id, amount)

/-! ## What one purchase does -/

section Buy

variable {getter : UnitsToWeightRatio L} {weight balance amount unitsPerSecond : Nat} {id : L}

/-- A payment whose only fungible asset is `balance` of the location `id`. -/
def single (id : L) (balance : Nat) : Assets L := AList.singleton (AssetId.concrete id) balance

theorem checkedSub_single (h : amount ≤ balance) :
    checkedSub (single id balance) (.concrete id) amount =
      some (if balance - amount = 0 then (single id balance).erase (.concrete id)
        else (single id balance).replace (.concrete id) (balance - amount)) := by
  have hl : (single id balance).lookup (.concrete id) = some balance := List.dlookup_cons_eq _ _ _
  simp only [checkedSub, hl, if_pos h]

/-- A fresh trader paid enough of a supported asset for a fee that is not `0` keeps the
    asset for refunds, with the fee, and counts the weight twice. -/
theorem buyWeight_new (hsup : getter.paymentIsSupported id = true)
    (hups : getter.getUnitsPerSecond id = some unitsPerSecond)
    (hpos : Word.saturatingMul 128 unitsPerSecond weight / weightRefTimePerSecond ≠ 0)
    (henough : Word.saturatingMul 128 unitsPerSecond weight / weightRefTimePerSecond ≤ balance) :
    (buyWeight getter weight (single id balance) FirstAssetTrader.new).2 =
      ⟨Word.saturatingAdd 64 (Word.saturatingAdd 64 0 weight) weight,
        some (id, Word.saturatingMul 128 unitsPerSecond weight / weightRefTimePerSecond,
          unitsPerSecond)⟩ := by
  unfold buyWeight
  rw [show (single id balance).entries.head? = some ⟨.concrete id, balance⟩ from rfl]
  simp only [hsup, hups, Bool.not_true, Bool.false_eq_true, if_false, hpos,
    checkedSub_single henough]
  rfl

/-- What `buy_weight` can do to the trader: nothing; count the weight once and keep the
    asset it has; or count the weight twice and keep the asset `newAsset` gives. -/
theorem buyWeight_trader (getter : UnitsToWeightRatio L) (weight : Nat) (payment : Assets L)
    (t : FirstAssetTrader L) :
    (buyWeight getter weight payment t).2 = t ∨
      (buyWeight getter weight payment t).2 =
        { t with refTime := Word.saturatingAdd 64 t.refTime weight } ∨
      ∃ id amount unitsPerSecond asset, newAsset t.stored id amount unitsPerSecond = some asset ∧
        (buyWeight getter weight payment t).2 =
          ⟨Word.saturatingAdd 64 (Word.saturatingAdd 64 t.refTime weight) weight, some asset⟩ := by
  unfold buyWeight
  -- every failure, and a fee of `0`, returns before the trader is written
  split
  · rename_i id _ _
    split
    · exact .inl rfl
    · split
      · rename_i unitsPerSecond _
        dsimp only
        split
        · exact .inl rfl
        · split
          · split
            · rename_i asset hasset
              exact .inr (.inr ⟨id, _, unitsPerSecond, asset, hasset, rfl⟩)
            · exact .inr (.inl rfl)
          · exact .inl rfl
      · exact .inl rfl
  · exact .inl rfl

end Buy

/-! ## Runs of the executor against one trader -/

/-- A call the executor makes on the trader. -/
inductive Call (L : Type) where
  | buyWeight (weight : Nat) (payment : Assets L)
  | refundWeight (weight : Nat)

/-- The trader after one call. -/
def Call.run (getter : UnitsToWeightRatio L) : Call L → FirstAssetTrader L → FirstAssetTrader L
  | .buyWeight weight payment, t => (Xcm.buyWeight getter weight payment t).2
  | .refundWeight weight, t => (Xcm.refundWeight weight t).2

/-- The trader after a run of calls. -/
def runCalls (getter : UnitsToWeightRatio L) (calls : List (Call L)) (t : FirstAssetTrader L) :
    FirstAssetTrader L :=
  calls.foldl (fun t c => c.run getter t) t

/-- The trader refunds in `id`, at `unitsPerSecond`. -/
def RefundsIn (id : L) (unitsPerSecond : Nat) (t : FirstAssetTrader L) : Prop :=
  ∃ amount, t.stored = some (id, amount, unitsPerSecond)

section RefundsIn

variable {id : L} {unitsPerSecond : Nat} {t : FirstAssetTrader L}

theorem newAsset_of_refundsIn (h : RefundsIn id unitsPerSecond t) {id' : L} {amount u : Nat}
    {asset : L × Nat × Nat} (hnew : newAsset t.stored id' amount u = some asset) :
    ∃ a, asset = (id, a, unitsPerSecond) := by
  obtain ⟨a, ha⟩ := h
  rw [ha, newAsset] at hnew
  split_ifs at hnew with hid
  cases hnew
  exact ⟨_, by rw [hid]⟩

theorem buyWeight_refundsIn (h : RefundsIn id unitsPerSecond t) (getter : UnitsToWeightRatio L)
    (weight : Nat) (payment : Assets L) :
    RefundsIn id unitsPerSecond (buyWeight getter weight payment t).2 := by
  rcases buyWeight_trader getter weight payment t with ht | ht | ⟨_, _, _, asset, hasset, ht⟩ <;>
    rw [ht]
  · exact h
  · exact h
  · obtain ⟨a, rfl⟩ := newAsset_of_refundsIn h hasset
    exact ⟨a, rfl⟩

omit [DecidableEq L] in
theorem refundWeight_refundsIn (h : RefundsIn id unitsPerSecond t) (weight : Nat) :
    RefundsIn id unitsPerSecond (refundWeight weight t).2 := by
  obtain ⟨a, ha⟩ := h
  simp only [refundWeight, ha]
  exact ⟨_, rfl⟩

/-- Once the trader keeps an asset for refunds, it keeps that asset and its price for every
    call after: refunds are only ever in the first asset it was paid in. -/
theorem runCalls_refundsIn (h : RefundsIn id unitsPerSecond t) (getter : UnitsToWeightRatio L)
    (calls : List (Call L)) : RefundsIn id unitsPerSecond (runCalls getter calls t) := by
  induction calls generalizing t with
  | nil => exact h
  | cons c calls ih =>
    have hc : RefundsIn id unitsPerSecond (c.run getter t) := by
      cases c with
      | buyWeight weight payment => exact buyWeight_refundsIn h getter weight payment
      | refundWeight weight => exact refundWeight_refundsIn h weight
    exact ih hc

end RefundsIn

/-- Buying `weight` in a fresh trader and asking back twice that weight refunds twice the
    fee, which is more than the trader charged, and leaves it no revenue. -/
theorem refund_exceeds_charge (getter : UnitsToWeightRatio L) (id : L)
    (weight balance unitsPerSecond : Nat)
    (hsup : getter.paymentIsSupported id = true)
    (hups : getter.getUnitsPerSecond id = some unitsPerSecond)
    (hweight : 2 * weight < 2 ^ 64) (hmul : unitsPerSecond * (2 * weight) < 2 ^ 128)
    (hpos : 0 < unitsPerSecond * weight / weightRefTimePerSecond)
    (henough : unitsPerSecond * weight / weightRefTimePerSecond ≤ balance) :
    let t₁ := (buyWeight getter weight (single id balance) FirstAssetTrader.new).2
    let r := refundWeight (2 * weight) t₁
    t₁.refTime = 2 * weight ∧
      r.1 = some (id, unitsPerSecond * (2 * weight) / weightRefTimePerSecond) ∧
      unitsPerSecond * weight / weightRefTimePerSecond <
        unitsPerSecond * (2 * weight) / weightRefTimePerSecond ∧
      drop r.2 = some (id, 0) := by
  -- no product saturates and no sum reaches `u64::MAX`
  have hsat : Word.saturatingMul 128 unitsPerSecond weight = unitsPerSecond * weight :=
    Word.saturatingMul_of_lt (Nat.lt_of_le_of_lt (Nat.mul_le_mul_left _ (by omega)) hmul)
  have hcount : Word.saturatingAdd 64 (Word.saturatingAdd 64 0 weight) weight = 2 * weight := by
    unfold Word.saturatingAdd
    omega
  have hwrap : Word.wrappingMul 128 unitsPerSecond (2 * weight) = unitsPerSecond * (2 * weight) :=
    Nat.mod_eq_of_lt hmul
  have hfee : unitsPerSecond * weight / weightRefTimePerSecond ≠ 0 := Nat.pos_iff_ne_zero.1 hpos
  have hbuy : (buyWeight getter weight (single id balance) FirstAssetTrader.new).2 =
      ⟨2 * weight, some (id, unitsPerSecond * weight / weightRefTimePerSecond, unitsPerSecond)⟩ := by
    rw [buyWeight_new hsup hups (by rwa [hsat]) (by rwa [hsat]), hsat, hcount]
  -- twice the fee rounds to at least one more than the fee
  have hdouble : unitsPerSecond * weight / weightRefTimePerSecond <
      unitsPerSecond * (2 * weight) / weightRefTimePerSecond := by
    have h2 : 2 * (unitsPerSecond * weight / weightRefTimePerSecond) ≤
        unitsPerSecond * (2 * weight) / weightRefTimePerSecond := by
      rw [Nat.mul_left_comm]
      exact Nat.mul_div_le_mul_div_assoc 2 _ _
    omega
  refine ⟨by rw [hbuy], ?_, hdouble, ?_⟩
  · simp only [hbuy, refundWeight, Nat.min_self, hwrap]
  · simp only [hbuy, refundWeight, Nat.min_self, hwrap, drop, Option.map_some]
    rw [Nat.sub_eq_zero_of_le (Nat.le_of_lt hdouble)]

/-- An asset manager that supports every location at one unit per second of weight. -/
def unitGetter : UnitsToWeightRatio Nat := ⟨fun _ => true, fun _ => some weightRefTimePerSecond⟩

theorem refund_exceeds_charge_at_unit_price :
    let t₁ := (buyWeight unitGetter 1000 (single 0 1000) FirstAssetTrader.new).2
    let r := refundWeight (2 * 1000) t₁
    t₁.refTime = 2 * 1000 ∧
      r.1 = some (0, weightRefTimePerSecond * (2 * 1000) / weightRefTimePerSecond) ∧
      weightRefTimePerSecond * 1000 / weightRefTimePerSecond <
        weightRefTimePerSecond * (2 * 1000) / weightRefTimePerSecond ∧
      drop r.2 = some (0, 0) :=
  refund_exceeds_charge unitGetter 0 1000 1000 weightRefTimePerSecond rfl rfl (by decide)
    (by decide) (by decide) (by decide)


/-- Paid first in asset `0`, the trader still refunds in asset `0` after a purchase paid in
    asset `1` and a refund. -/
theorem runCalls_refundsIn_after_second_asset :
    RefundsIn 0 weightRefTimePerSecond
      (runCalls unitGetter [.buyWeight 500 (single 1 1000), .refundWeight 100]
        (buyWeight unitGetter 1000 (single 0 1000) FirstAssetTrader.new).2) :=
  runCalls_refundsIn ⟨_, rfl⟩ unitGetter _

end Xcm
end Litentry
