import Litentry.Lib.Word

/-!
# Range credentials

Five credentials of `lc-credentials` report an amount by the bucket of a fixed list of bounds
it falls in: the .bnb domains held, the 999 and the 10k club domains held, the LIT held, and
the LIT staked. Each implements `RangeCredentialDetail` by giving its bounds (`get_range`),
the start of its open-ended last bucket (`get_last_value`) and the name of the amount
(`get_breakdown`); the trait's default `get_assertion_items` turns an amount into the
comparisons that describe its bucket, and each `update_*` pushes their conjunction together
with the boolean `amount > range[0]` into the credential.

`get_assertion_items` finds the bucket with `position(|item| amount < *item)` and then reads
`range[index - 1]` and `range[index]`; it writes `>` for the lower bound of the first bucket
and `>=` for every other, and drops the upper bound when the amount is `0`. What this file
proves (`RangeOk.getAssertionItems`) is that for every list of bounds that starts `0, 1`, is
strictly increasing and ends at `get_last_value`, and for every amount, nothing panics, the
comparisons hold of the amount exactly when it is positive, and for a positive amount they
hold of exactly the values in its bucket. All five credentials have such bounds
(`rangeCredentials_sound`).

The printed bound of an item is `format!("{}", n)`, which is `toString n`; an item is read
back against a value by parsing it (`String.toNat?`). `update_lit_staking_amount` takes a
`u128` and builds the items from `amount as usize`, which keeps the low 64 bits in the
enclave; the other four take a `usize`.
-/

set_option autoImplicit false

namespace Litentry
namespace Credential

/-! ## 1. Assertion logic -/

/-- `Op`. -/
inductive Op where
  | greaterThan
  | lessThan
  | greaterEq
  | lessEq
  | equal
  | notEq
  deriving DecidableEq, Repr

/-- What an `Op` says of a value against a bound. -/
def Op.eval : Op → Nat → Nat → Bool
  | .greaterThan, v, b => b < v
  | .lessThan, v, b => v < b
  | .greaterEq, v, b => b ≤ v
  | .lessEq, v, b => v ≤ b
  | .equal, v, b => v = b
  | .notEq, v, b => v ≠ b

/-- `AssertionLogic`: a comparison of a named amount with a printed bound, or a conjunction
    or a disjunction of such. -/
inductive AssertionLogic where
  | item (src : String) (op : Op) (dst : String)
  | and (items : List AssertionLogic)
  | or (items : List AssertionLogic)
  deriving Repr

/-- `AssertionLogic::new_item`: the name gets a `$` in front if it has none. -/
def AssertionLogic.newItem (src : String) (op : Op) (dst : String) : AssertionLogic :=
  .item (if src.startsWith "$" then src else "$" ++ src) op dst

/-- An item read against a value of its amount: the printed bound parsed back. -/
def AssertionLogic.holdsAt (value : Nat) : AssertionLogic → Bool
  | .item _ op dst => match dst.toNat? with
    | some bound => op.eval value bound
    | none => false
  | _ => false

@[simp] theorem AssertionLogic.holdsAt_newItem (src : String) (op : Op) (bound value : Nat) :
    (AssertionLogic.newItem src op (Nat.repr bound)).holdsAt value = op.eval value bound := by
  simp [newItem, holdsAt]

/-! ## 2. `RangeCredentialDetail` -/

/-- What an implementation of `RangeCredentialDetail` gives the trait's default methods. -/
structure RangeCredentialDetail where
  range : List Nat
  lastValue : Nat
  breakdown : String

namespace RangeCredentialDetail

/-- `match_range_index(range, amount)`: `range.iter().position(|item| amount < *item)`. -/
def matchRangeIndex (range : List Nat) (amount : Nat) : Option Nat :=
  range.findIdx? (amount < ·)

/-- `get_index`. -/
def getIndex (d : RangeCredentialDetail) (amount : Nat) : Option Nat :=
  matchRangeIndex d.range amount

/-- `get_assertion_items`; `none` where it panics, on `index - 1` below zero or an index out
    of the range. -/
def getAssertionItems (d : RangeCredentialDetail) (amount : Nat) :
    Option (List AssertionLogic) :=
  match d.getIndex amount with
  | some index => do
    let min ← Word.checkedSub index 1 >>= (d.range[·]?)
    let max ← d.range[index]?
    let minItem := AssertionLogic.newItem d.breakdown
      (if index == 1 then .greaterThan else .greaterEq) (toString min)
    if amount > 0 then
      let maxItem := AssertionLogic.newItem d.breakdown .lessThan (toString max)
      pure [minItem, maxItem]
    else pure [minItem]
  | none => pure [AssertionLogic.newItem d.breakdown .greaterEq (toString d.lastValue)]

/-- The body every `update_*` shares: the conjunction of the items, and
    `amount > get_range()[0]`; `none` where it panics. -/
def update (d : RangeCredentialDetail) (itemsAmount amount : Nat) :
    Option (AssertionLogic × Bool) := do
  let items ← d.getAssertionItems itemsAmount
  let first ← d.range[0]?
  pure (.and items, decide (amount > first))

end RangeCredentialDetail

/-! ## 3. The five credentials -/

/-- `BNB_DOMAIN_HOLDING_AMOUNT_RANGE`, `get_last_value` 200. -/
def bnbDomainHoldingAmount : RangeCredentialDetail :=
  ⟨[0, 1, 5, 10, 20, 50, 100, 200], 200, "$bnb_domain_holding_amount"⟩

/-- `BnbDigitDomainType`. -/
inductive BnbDigitDomainType where
  | bnb999ClubMember
  | bnb10kClubMember
  deriving DecidableEq, Repr

/-- `BNB_999_CLUB_MEMBER`. -/
def bnb999ClubMember : List Nat := [0, 1, 5, 10, 20, 50]

/-- `BNB_10K_CLUB_MEMBER`. -/
def bnb10kClubMember : List Nat := [0, 1, 5, 10, 20, 50, 100, 200, 500]

/-- `DigitDomain`: `get_last_value` is the last bound, `unwrap_or` a default. -/
def digitDomain : BnbDigitDomainType → RangeCredentialDetail
  | .bnb999ClubMember => ⟨bnb999ClubMember, bnb999ClubMember.getLast?.getD 50, "$999_club_member"⟩
  | .bnb10kClubMember =>
    ⟨bnb10kClubMember, bnb10kClubMember.getLast?.getD 500, "$10k_club_member"⟩

/-- `LIT_BALANCE_RANGE`. -/
def litBalanceRange : List Nat := [0, 1, 50, 100, 200, 500, 800, 1200, 1600, 3000]

/-- `LitHoldingAmount`. -/
def litHoldingAmount : RangeCredentialDetail := ⟨litBalanceRange, 3000, "$lit_holding_amount"⟩

/-- `LIT_STAKING_AMOUNT_RANGE`. -/
def litStakingAmountRange : List Nat := [0, 1, 50, 100, 200, 500, 800, 1200, 1600, 3000]

/-- `LITStakingAmount`. -/
def litStakingAmount : RangeCredentialDetail :=
  ⟨litStakingAmountRange, 3000, "$lit_staking_amount"⟩

/-- The five implementations. -/
def rangeCredentials : List RangeCredentialDetail :=
  [bnbDomainHoldingAmount, digitDomain .bnb999ClubMember, digitDomain .bnb10kClubMember,
    litHoldingAmount, litStakingAmount]

/-- `update_bnb_holding_amount`. -/
def updateBnbHoldingAmount (amount : Nat) : Option (AssertionLogic × Bool) :=
  bnbDomainHoldingAmount.update amount amount

/-- `update_digit_domain_club_amount`. -/
def updateDigitDomainClubAmount (t : BnbDigitDomainType) (amount : Nat) :
    Option (AssertionLogic × Bool) :=
  (digitDomain t).update amount amount

/-- `update_lit_holding_amount`. -/
def updateLitHoldingAmount (amount : Nat) : Option (AssertionLogic × Bool) :=
  litHoldingAmount.update amount amount

/-- `update_lit_staking_amount`: a `u128` amount, its items built from `amount as usize`. -/
def updateLitStakingAmount (amount : Nat) : Option (AssertionLogic × Bool) :=
  litStakingAmount.update (amount % 2 ^ 64) amount

/-! ## 4. Soundness -/

/-- Bounds the trait's default methods read correctly: `0` and `1` first, strictly
    increasing, and the last one `get_last_value`. -/
structure RangeOk (d : RangeCredentialDetail) : Prop where
  start : ∃ rest, d.range = 0 :: 1 :: rest
  increasing : d.range.Pairwise (· < ·)
  last : d.range.getLast? = some d.lastValue

namespace RangeOk

variable {d : RangeCredentialDetail}

theorem lt_of_lt {i j : Nat} (h : RangeOk d) (hi : i < d.range.length)
    (hj : j < d.range.length) (hij : i < j) : d.range[i] < d.range[j] :=
  List.pairwise_iff_getElem.1 h.increasing i j hi hj hij

theorem le_of_le {i j : Nat} (h : RangeOk d) (hi : i < d.range.length)
    (hj : j < d.range.length) (hij : i ≤ j) : d.range[i] ≤ d.range[j] := by
  rcases Nat.lt_or_eq_of_le hij with hlt | rfl
  · exact (h.lt_of_lt hi hj hlt).le
  · exact le_rfl

theorem getElem_zero (h : RangeOk d) : ∃ h0 : 0 < d.range.length, d.range[0] = 0 := by
  obtain ⟨rest, hr⟩ := h.start
  exact ⟨by simp [hr], by simp [hr]⟩

theorem getElem_one (h : RangeOk d) : ∃ h1 : 1 < d.range.length, d.range[1] = 1 := by
  obtain ⟨rest, hr⟩ := h.start
  exact ⟨by simp [hr], by simp [hr]⟩

theorem le_lastValue (h : RangeOk d) {x : Nat} (hx : x ∈ d.range) : x ≤ d.lastValue := by
  obtain ⟨i, hi, rfl⟩ := List.getElem_of_mem hx
  have hlast : d.range[d.range.length - 1] = d.lastValue := by
    have hl := h.last
    rw [List.getLast?_eq_getElem?, List.getElem?_eq_some_iff] at hl
    obtain ⟨_, h'⟩ := hl
    exact h'
  rw [← hlast]
  exact h.le_of_le hi (by omega) (by omega)

theorem lastValue_mem (h : RangeOk d) : d.lastValue ∈ d.range :=
  List.mem_of_getLast? h.last

/-- Where `position` stops: the first bound above the amount is at `index ≥ 1`, and the one
    before it is at most the amount; a positive amount is past the first two bounds. -/
theorem index_spec (h : RangeOk d) {amount index : Nat} (hi : d.getIndex amount = some index) :
    ∃ (hlt : index < d.range.length) (hpos : 1 ≤ index),
      d.range[index - 1] ≤ amount ∧ amount < d.range[index] ∧ (0 < amount → 2 ≤ index) := by
  obtain ⟨hlt, hlow, hbefore⟩ := List.findIdx?_eq_some_iff_getElem.1 hi
  have hbefore' : ∀ j (hj : j < index), d.range[j] ≤ amount := fun j hj => by
    have := hbefore j hj
    simpa using this
  obtain ⟨h0, hr0⟩ := h.getElem_zero
  obtain ⟨h1, hr1⟩ := h.getElem_one
  have hpos : 1 ≤ index := by
    rcases Nat.eq_zero_or_pos index with rfl | hpos
    · simp [hr0] at hlow
    · exact hpos
  refine ⟨hlt, hpos, hbefore' _ (by omega), by simpa using hlow, fun hamt => ?_⟩
  rcases Nat.lt_or_ge index 2 with h2 | h2
  · obtain rfl : index = 1 := by omega
    simp only [hr1, decide_eq_true_eq] at hlow
    omega
  · exact h2

/-- Past the last bound, every bound is at most the amount. -/
theorem index_none {amount : Nat} (hi : d.getIndex amount = none) : ∀ x ∈ d.range, x ≤ amount := by
  intro x hx
  have := List.findIdx?_eq_none_iff.1 hi x hx
  simpa using this

/-- **The items of an amount.** For bounds that are `RangeOk`, `get_assertion_items` never
    panics; its items hold of the amount exactly when it is positive; and for a positive
    amount they hold of exactly the values that lie in the amount's bucket, that is, that
    are at least the same bounds. -/
theorem getAssertionItems (h : RangeOk d) (amount : Nat) :
    ∃ items, d.getAssertionItems amount = some items ∧
      items.all (·.holdsAt amount) = decide (0 < amount) ∧
      (0 < amount → ∀ v, items.all (·.holdsAt v) = true ↔ ∀ x ∈ d.range, x ≤ amount ↔ x ≤ v) := by
  unfold RangeCredentialDetail.getAssertionItems
  cases hi : d.getIndex amount with
  | some index =>
    obtain ⟨hlt, hpos, hlow, hup, htwo⟩ := h.index_spec hi
    have hsub : Word.checkedSub index 1 = some (index - 1) := Word.checkedSub_eq_some.2 ⟨hpos, rfl⟩
    simp only [hsub, Option.bind_some, List.getElem?_eq_getElem (show index - 1 < d.range.length
      by omega), List.getElem?_eq_getElem hlt, Option.bind_eq_bind]
    by_cases hamt : 0 < amount
    · -- a positive amount: the bucket `[range[index - 1], range[index])`, with `>=` below
      have hne : index ≠ 1 := by omega
      refine ⟨_, by simp [hamt]; rfl, ?_, fun _ v => ?_⟩
      · simp [hne, hlow, hup, hamt, Op.eval]
      · simp only [hne, if_false, List.all_cons, List.all_nil, Bool.and_true, Bool.and_eq_true,
          AssertionLogic.holdsAt_newItem, Op.eval, decide_eq_true_eq]
        constructor
        · rintro ⟨hv₁, hv₂⟩ x hx
          obtain ⟨j, hj, rfl⟩ := List.getElem_of_mem hx
          rcases Nat.lt_or_ge j index with hji | hji
          · -- a bound below the bucket is at most both
            have := h.le_of_le hj (show index - 1 < d.range.length by omega) (by omega)
            exact ⟨fun _ => by omega, fun _ => by omega⟩
          · -- a bound from the bucket's top on is above both
            have := h.le_of_le hlt hj hji
            exact ⟨fun _ => by omega, fun _ => by omega⟩
        · intro hv
          have h₁ := (hv _ (List.getElem_mem (show index - 1 < d.range.length by omega))).1 hlow
          have h₂ := mt (hv _ (List.getElem_mem hlt)).2 (by omega)
          exact ⟨h₁, by omega⟩
    · -- amount `0`: only the lower item, `> range[0]`, which fails
      obtain rfl : amount = 0 := by omega
      refine ⟨_, by simp; rfl, ?_, fun h0 => absurd h0 hamt⟩
      obtain ⟨h1, hr1⟩ := h.getElem_one
      have hidx : index = 1 := by
        by_contra hne
        have := h.le_of_le h1 (show index - 1 < d.range.length by omega) (by omega)
        omega
      subst hidx
      obtain ⟨h0, hr0⟩ := h.getElem_zero
      simp [hr0, Op.eval]
  | none =>
    -- past the last bound: `>= get_last_value`
    have hall := index_none hi
    have hlast := hall _ h.lastValue_mem
    obtain ⟨h1, hr1⟩ := h.getElem_one
    have hone := hall _ (List.getElem_mem h1)
    rw [hr1] at hone
    refine ⟨_, rfl, by simp [Op.eval, hlast]; omega, fun _ v => ?_⟩
    simp only [List.all_cons, List.all_nil, Bool.and_true, Nat.toString_eq_repr,
      AssertionLogic.holdsAt_newItem, Op.eval, decide_eq_true_eq]
    constructor
    · intro hv x hx
      exact ⟨fun _ => (h.le_lastValue hx).trans hv, fun _ => hall x hx⟩
    · intro hv
      exact (hv _ h.lastValue_mem).1 hlast

end RangeOk

theorem rangeOk_of_mem {d : RangeCredentialDetail} (hd : d ∈ rangeCredentials) : RangeOk d := by
  simp only [rangeCredentials, List.mem_cons, List.not_mem_nil, or_false] at hd
  rcases hd with rfl | rfl | rfl | rfl | rfl <;>
    exact ⟨⟨_, rfl⟩, by decide, rfl⟩

/-- **Range credentials are sound.** For each of the five credentials and every amount,
    `get_assertion_items` does not panic; the conjunction of its items holds of the amount
    exactly when the amount is above `get_range()[0]`, which is the value `update_*` pushes;
    and for a positive amount it holds of exactly the values in the amount's bucket. The
    `update_*` functions push those items and that value (the LIT staking one for every
    amount that is a `usize`). -/
theorem rangeCredentials_sound :
    (∀ d ∈ rangeCredentials, ∀ amount : Nat,
      ∃ items, d.getAssertionItems amount = some items ∧
        ∃ h0 : 0 < d.range.length, items.all (·.holdsAt amount) = decide (amount > d.range[0]) ∧
        (0 < amount → ∀ v, items.all (·.holdsAt v) = true ↔ ∀ x ∈ d.range, x ≤ amount ↔ x ≤ v)) ∧
    (∀ amount : Nat,
      (∃ items, bnbDomainHoldingAmount.getAssertionItems amount = some items ∧
        updateBnbHoldingAmount amount = some (.and items, decide (amount > 0))) ∧
      (∀ t, ∃ items, (digitDomain t).getAssertionItems amount = some items ∧
        updateDigitDomainClubAmount t amount = some (.and items, decide (amount > 0))) ∧
      (∃ items, litHoldingAmount.getAssertionItems amount = some items ∧
        updateLitHoldingAmount amount = some (.and items, decide (amount > 0))) ∧
      (amount < 2 ^ 64 → ∃ items, litStakingAmount.getAssertionItems amount = some items ∧
        updateLitStakingAmount amount = some (.and items, decide (amount > 0)))) := by
  have hupdate : ∀ d ∈ rangeCredentials, ∀ amount : Nat, ∃ items,
      d.getAssertionItems amount = some items ∧
        d.update amount amount = some (.and items, decide (amount > 0)) := by
    intro d hd amount
    obtain ⟨items, hitems, -⟩ := (rangeOk_of_mem hd).getAssertionItems amount
    obtain ⟨h0, hr0⟩ := (rangeOk_of_mem hd).getElem_zero
    refine ⟨items, hitems, ?_⟩
    simp [RangeCredentialDetail.update, hitems, List.getElem?_eq_getElem h0, hr0]
  refine ⟨fun d hd amount => ?_, fun amount => ⟨?_, fun t => ?_, ?_, fun hlt => ?_⟩⟩
  · obtain ⟨items, hitems, hval, hbucket⟩ := (rangeOk_of_mem hd).getAssertionItems amount
    obtain ⟨h0, hr0⟩ := (rangeOk_of_mem hd).getElem_zero
    exact ⟨items, hitems, h0, by rw [hval, hr0], hbucket⟩
  · exact hupdate _ (by simp [rangeCredentials]) amount
  · exact hupdate _ (by cases t <;> simp [rangeCredentials]) amount
  · exact hupdate _ (by simp [rangeCredentials]) amount
  · have hmod : amount % 2 ^ 64 = amount := Nat.mod_eq_of_lt hlt
    unfold updateLitStakingAmount
    rw [hmod]
    exact hupdate _ (by simp [rangeCredentials]) amount

/-- Beyond a `usize`, `update_lit_staking_amount` describes the bucket of the low 64 bits:
    when those are positive and below the last bound, the value it pushes is `true` while its
    items fail at the amount staked. -/
theorem updateLitStakingAmount_beyond_usize {amount : Nat} (hbig : 2 ^ 64 ≤ amount)
    (hpos : 0 < amount % 2 ^ 64) (hlow : amount % 2 ^ 64 < 3000) :
    ∃ items, updateLitStakingAmount amount = some (.and items, true) ∧
      items.all (·.holdsAt amount) = false := by
  have hok : RangeOk litStakingAmount := rangeOk_of_mem (by simp [rangeCredentials])
  obtain ⟨items, hitems, -, hbucket⟩ := hok.getAssertionItems (amount % 2 ^ 64)
  refine ⟨items, ?_, ?_⟩
  · simp only [updateLitStakingAmount, RangeCredentialDetail.update, hitems]
    simp [litStakingAmount, litStakingAmountRange]
    omega
  · -- the last bound, `3000`, is above the low bits and below the amount
    rw [Bool.eq_false_iff]
    intro hall
    have h3000 := ((hbucket hpos amount).1 hall 3000 (by simp [litStakingAmount,
      litStakingAmountRange])).2 (by omega)
    omega


theorem updateLitStakingAmount_beyond_usize_at_wrap :
    ∃ items, updateLitStakingAmount (2 ^ 64 + 5) = some (.and items, true) ∧
      items.all (·.holdsAt (2 ^ 64 + 5)) = false :=
  updateLitStakingAmount_beyond_usize (by decide) (by decide) (by decide)

end Credential
end Litentry
