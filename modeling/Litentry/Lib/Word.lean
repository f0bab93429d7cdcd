import Mathlib

/-!
# Unsigned machine words as natural numbers

A `uN` value is a natural number below `2 ^ N`, and Rust's operations on it are the
functions here, with the width as an argument. The release profile has no overflow checks,
so `+`, `*` and `pow` wrap. `checked_*` return `None` past the bounds and `saturating_*`
stop at them. Division by zero panics, `saturating_div` included; an operation that may
panic returns `none` where it would.

`nthRoot?` is `Roots::nth_root` of the `num-integer` crate on an unsigned integer: the
largest `r` with `r ^ m ≤ a`. The crate panics on a root of degree `0`.
-/

set_option autoImplicit false

namespace Word

/-- `checked_add` on `u{bits}`. -/
def checkedAdd (bits a b : ℕ) : Option ℕ := if a + b < 2 ^ bits then some (a + b) else none

/-- `checked_sub` on an unsigned word. -/
def checkedSub (a b : ℕ) : Option ℕ := if b ≤ a then some (a - b) else none

/-- `saturating_add` on `u{bits}`. -/
def saturatingAdd (bits a b : ℕ) : ℕ := min (a + b) (2 ^ bits - 1)

/-- `saturating_mul` on `u{bits}`. -/
def saturatingMul (bits a b : ℕ) : ℕ := min (a * b) (2 ^ bits - 1)

/-- `+` on `u{bits}` without overflow checks. -/
def wrappingAdd (bits a b : ℕ) : ℕ := (a + b) % 2 ^ bits

/-- `*` on `u{bits}` without overflow checks. -/
def wrappingMul (bits a b : ℕ) : ℕ := a * b % 2 ^ bits

/-- `pow` on `u{bits}` without overflow checks. -/
def wrappingPow (bits a n : ℕ) : ℕ := a ^ n % 2 ^ bits

/-- `*` on a word type that checks overflow in every build (`U256`): `none` where it
    panics. -/
def checkedMul (bits a b : ℕ) : Option ℕ := if a * b < 2 ^ bits then some (a * b) else none

/-- `pow` on a word type that checks overflow in every build (`U256`): `none` where it
    panics. -/
def checkedPow (bits a n : ℕ) : Option ℕ := if a ^ n < 2 ^ bits then some (a ^ n) else none

/-- The `i{bits}` with the bits of a `u{bits}` word (two's complement). -/
def toSigned (bits n : ℕ) : ℤ := if n < 2 ^ (bits - 1) then n else (n : ℤ) - 2 ^ bits

/-- `/` or `saturating_div` on an unsigned word: `none` where it panics. -/
def div? (a b : ℕ) : Option ℕ := if b = 0 then none else some (a / b)

/-- `nth_root(a, m)`: `none` where it panics. -/
def nthRoot? (a m : ℕ) : Option ℕ :=
  if m = 0 then none else some (Nat.findGreatest (fun r => r ^ m ≤ a) a)

theorem checkedAdd_eq_some {bits a b c : ℕ} :
    checkedAdd bits a b = some c ↔ a + b < 2 ^ bits ∧ c = a + b := by
  unfold checkedAdd
  split_ifs with h <;> simp [h, eq_comm]

theorem checkedSub_eq_some {a b c : ℕ} : checkedSub a b = some c ↔ b ≤ a ∧ c = a - b := by
  unfold checkedSub
  split_ifs with h <;> simp [h, eq_comm]

theorem div?_eq_some {a b c : ℕ} : div? a b = some c ↔ b ≠ 0 ∧ c = a / b := by
  unfold div?
  split_ifs with h <;> simp [h, eq_comm]

@[simp] theorem div?_zero (a : ℕ) : div? a 0 = none := rfl

theorem nthRoot?_eq_some {a m r : ℕ} :
    nthRoot? a m = some r ↔ m ≠ 0 ∧ r = Nat.findGreatest (fun r => r ^ m ≤ a) a := by
  unfold nthRoot?
  split_ifs with h <;> simp [h, eq_comm]

/-- A root of positive degree is taken. -/
theorem nthRoot?_isSome {a m : ℕ} (hm : m ≠ 0) : (nthRoot? a m).isSome := by
  simp [nthRoot?, hm]

/-- The root of `nthRoot?` is the integer `m`-th root: its power is at most `a`, and the
    power of the next number is above. -/
theorem nthRoot?_spec {a m r : ℕ} (h : nthRoot? a m = some r) : r ^ m ≤ a ∧ a < (r + 1) ^ m := by
  obtain ⟨hm, rfl⟩ := nthRoot?_eq_some.1 h
  have hzero : (0 : ℕ) ^ m ≤ a := by
    rw [Nat.zero_pow (Nat.pos_of_ne_zero hm)]
    exact Nat.zero_le a
  refine ⟨Nat.findGreatest_spec (P := fun r => r ^ m ≤ a) (Nat.zero_le a) hzero, ?_⟩
  by_cases hle : Nat.findGreatest (fun r => r ^ m ≤ a) a + 1 ≤ a
  · exact Nat.lt_of_not_le
      (Nat.findGreatest_is_greatest (P := fun r => r ^ m ≤ a) (Nat.lt_succ_self _) hle)
  · -- the search stopped at `a` itself, and the power of `a + 1` is past `a`
    calc a < Nat.findGreatest (fun r => r ^ m ≤ a) a + 1 := by omega
      _ ≤ (Nat.findGreatest (fun r => r ^ m ≤ a) a + 1) ^ m := Nat.le_self_pow hm _

/-- The two bounds of `nthRoot?_spec` fix the root. -/
theorem nthRoot?_of_bounds {a m r : ℕ} (hm : m ≠ 0) (hlo : r ^ m ≤ a) (hhi : a < (r + 1) ^ m) :
    nthRoot? a m = some r := by
  obtain ⟨r', hr'⟩ := Option.isSome_iff_exists.1 (nthRoot?_isSome (a := a) hm)
  obtain ⟨hlo', hhi'⟩ := nthRoot?_spec hr'
  have h₁ : r' < r + 1 := (Nat.pow_lt_pow_iff_left hm).1 (Nat.lt_of_le_of_lt hlo' hhi)
  have h₂ : r < r' + 1 := (Nat.pow_lt_pow_iff_left hm).1 (Nat.lt_of_le_of_lt hlo hhi')
  rw [hr', Nat.le_antisymm (Nat.le_of_lt_succ h₁) (Nat.le_of_lt_succ h₂)]

/-- A larger radicand has a root at least as large. -/
theorem nthRoot?_mono {a b m r r' : ℕ} (hab : a ≤ b) (hr : nthRoot? a m = some r)
    (hr' : nthRoot? b m = some r') : r ≤ r' := by
  obtain ⟨-, rfl⟩ := nthRoot?_eq_some.1 hr
  obtain ⟨-, rfl⟩ := nthRoot?_eq_some.1 hr'
  exact Nat.findGreatest_mono (fun _ h => Nat.le_trans h hab) hab

theorem saturatingMul_le (bits a b : ℕ) : saturatingMul bits a b ≤ a * b :=
  Nat.min_le_left _ _

theorem saturatingMul_of_lt {bits a b : ℕ} (h : a * b < 2 ^ bits) : saturatingMul bits a b = a * b :=
  Nat.min_eq_left (Nat.le_sub_one_of_lt h)

theorem wrappingPow_of_lt {bits a n : ℕ} (h : a ^ n < 2 ^ bits) : wrappingPow bits a n = a ^ n :=
  Nat.mod_eq_of_lt h

theorem wrappingAdd_mod (bits a b : ℕ) :
    wrappingAdd bits (a % 2 ^ bits) b = wrappingAdd bits a b := by
  simp [wrappingAdd, Nat.add_mod]

end Word
