import Mathlib

/-!
# Per-things: fractions of a fixed accuracy

A per-thing of accuracy `acc` (a billion for `Perbill`, a hundred for `Percent`) is a number
of parts standing for `parts / acc`. Two operations take balances in and out of it:

* `fromRational p q`, the fraction `p / q` rounded down, computed after both are divided
  by `⌈q / acc⌉` so that the product fits the inner type; one whole where `q` is zero or
  `p` exceeds `q`;
* `mul part x`, the share `part` of a balance `x`, rounded to the nearest unit with an
  exact half rounded down.

What a split of a balance by shares needs of them: shares of parts of a whole sum to at
most one whole (`sum_fromRational_le`), and each product rounded to nearest exceeds the
exact share by less than half a unit (`two_mul_acc_mul_le`), so that the products of shares
summing to at most one whole exceed the split balance by less than half a unit each
(`two_mul_sum_mul_le`). Rounding to nearest is monotone (`mul_mono`).
-/

set_option autoImplicit false

namespace PerThing

variable {acc : Nat}

/-- `div_rounded(n, d, Rounding::Up)`. -/
def divCeil (n d : Nat) : Nat := n / d + if n % d = 0 then 0 else 1

/-- `from_rational(p, q)`: `from_rational_with_rounding(p, q, Down)`, or one whole where
    that refuses (`q` zero, or `p` above `q`). -/
def fromRational (acc p q : Nat) : Nat :=
  if q = 0 ∨ q < p then acc
  else
    -- both sides scaled down by `⌈q / acc⌉`, at least one, before the product
    let factor := max (divCeil q acc) 1
    p / factor * acc / (q / factor)

/-- `part * x` for a balance `x`: `overflow_prune_mul` with `Rounding::NearestPrefDown`,
    the whole multiples of `acc` first and the remainder's share corrected after. -/
def mul (acc part x : Nat) : Nat :=
  x / acc * part + (x % acc * part / acc + if acc / 2 < x % acc * part % acc then 1 else 0)

/-! ## `mul` -/

/-- The two halves of `overflow_prune_mul` make one product, rounded to nearest with an
    exact half down. -/
theorem mul_eq_div (hacc : 0 < acc) (part x : Nat) :
    mul acc part x = (x * part + (acc - acc / 2 - 1)) / acc := by
  have hx := Nat.div_add_mod x acc
  have hr := Nat.div_add_mod (x % acc * part) acc
  have hlt := Nat.mod_lt (x % acc * part) hacc
  have hhalf : acc / 2 < acc := Nat.div_lt_self hacc (by omega)
  -- `x * part` is `x / acc * part` whole multiples of `acc` plus the remainder's product
  have hsplit : x * part + (acc - acc / 2 - 1) =
      acc * (x / acc * part + x % acc * part / acc) +
        (x % acc * part % acc + (acc - acc / 2 - 1)) := by
    calc x * part + (acc - acc / 2 - 1)
        = (acc * (x / acc) + x % acc) * part + (acc - acc / 2 - 1) := by rw [hx]
      _ = acc * (x / acc * part + x % acc * part / acc) +
            (x % acc * part % acc + (acc - acc / 2 - 1)) := by
          conv_lhs => rw [Nat.add_mul, ← hr]
          ring
  rw [hsplit, Nat.mul_add_div hacc, mul, Nat.add_assoc]
  congr 2
  -- the remainder with `acc - acc / 2 - 1` added reaches `acc` exactly past the half
  split_ifs with h
  · rw [Nat.div_eq_of_lt_le] <;> omega
  · rw [Nat.div_eq_of_lt] ; omega

theorem mul_mono (hacc : 0 < acc) (part : Nat) {x y : Nat} (h : x ≤ y) :
    mul acc part x ≤ mul acc part y := by
  rw [mul_eq_div hacc, mul_eq_div hacc]
  exact Nat.div_le_div_right (Nat.add_le_add_right (Nat.mul_le_mul_right _ h) _)

@[simp] theorem mul_zero_part (x : Nat) : mul acc 0 x = 0 := by
  simp [mul]

/-- Rounded to nearest, a product is at most half a unit above the exact one. -/
theorem two_mul_acc_mul_le (hacc : 0 < acc) (part x : Nat) :
    2 * (acc * mul acc part x) ≤ 2 * (x * part) + acc := by
  rw [mul_eq_div hacc]
  have h := Nat.div_mul_le_self (x * part + (acc - acc / 2 - 1)) acc
  have hhalf := Nat.div_add_mod acc 2
  have hmod := Nat.mod_lt acc Nat.zero_lt_two
  rw [Nat.mul_comm acc]
  omega

/-- Products of shares summing to at most one whole exceed the balance by less than half
    a unit each. -/
theorem two_mul_sum_mul_le (hacc : 0 < acc) (parts : List Nat) (hsum : parts.sum ≤ acc)
    (x : Nat) : 2 * (parts.map fun p => mul acc p x).sum ≤ 2 * x + parts.length := by
  -- each product, scaled by `acc`, is within half of `x * p`; summed, within `length / 2`
  have hscaled : ∀ l : List Nat,
      2 * (acc * (l.map fun p => mul acc p x).sum) ≤ 2 * (x * l.sum) + acc * l.length := by
    intro l
    induction l with
    | nil => simp
    | cons p l ih =>
      have hp := two_mul_acc_mul_le hacc p x
      simp only [List.map_cons, List.sum_cons, List.length_cons]
      rw [Nat.mul_add, Nat.mul_add, Nat.mul_add x, Nat.mul_add 2 (x * p), Nat.mul_add acc]
      omega
  have hx : 2 * (x * parts.sum) ≤ 2 * (x * acc) :=
    Nat.mul_le_mul_left 2 (Nat.mul_le_mul_left x hsum)
  have hall := hscaled parts
  -- divide the scaled bound by `acc`
  have hacc' : acc * (2 * (parts.map fun p => mul acc p x).sum) ≤
      acc * (2 * x + parts.length) := by
    rw [Nat.mul_add, Nat.mul_left_comm, Nat.mul_left_comm acc 2 x, Nat.mul_comm acc x]
    omega
  exact Nat.le_of_mul_le_mul_left hacc' hacc

/-! ## `fromRational` -/

/-- Quotients by one divisor sum to at most the quotient of the sum. -/
theorem sum_map_div_le (l : List Nat) (d : Nat) : (l.map (· / d)).sum ≤ l.sum / d := by
  induction l with
  | nil => simp
  | cons a l ih =>
    simp only [List.map_cons, List.sum_cons]
    exact (Nat.add_le_add_left ih _).trans Nat.div_add_div_le_add_div

theorem divCeil_le (hacc : 0 < acc) {q : Nat} (hq : 0 < q) : divCeil q acc ≤ q := by
  unfold divCeil
  split_ifs with h
  · simpa using Nat.div_le_self q acc
  · -- a remainder needs `acc ≥ 2`, and then the quotient is below `q`
    have hacc' : 1 < acc := by
      rcases Nat.lt_or_ge 1 acc with h' | h'
      · exact h'
      · exact absurd (by rw [show acc = 1 by omega, Nat.mod_one]) h
    have := Nat.div_lt_self hq hacc'
    omega

/-- The denominator, scaled down, stays positive. -/
theorem div_factor_pos (hacc : 0 < acc) {q : Nat} (hq : 0 < q) :
    0 < q / max (divCeil q acc) 1 :=
  Nat.div_pos (max_le (divCeil_le hacc hq) hq) (lt_of_lt_of_le Nat.zero_lt_one (le_max_right _ _))

theorem fromRational_of_le {p q : Nat} (hq : 0 < q) (hpq : p ≤ q) :
    fromRational acc p q =
      p / max (divCeil q acc) 1 * acc / (q / max (divCeil q acc) 1) := by
  rw [fromRational, if_neg (by omega)]

/-- The shares of parts of a whole sum to at most one whole: each is rounded down after
    the same scaling, and scaled parts sum to at most the scaled whole. -/
theorem sum_fromRational_le (hacc : 0 < acc) (ps : List Nat) {q : Nat} (hq : 0 < q)
    (hsum : ps.sum ≤ q) : (ps.map fun p => fromRational acc p q).sum ≤ acc := by
  set f := max (divCeil q acc) 1
  have hqf := div_factor_pos hacc hq
  have heq : (ps.map fun p => fromRational acc p q) =
      ((ps.map fun p => p / f * acc).map (· / (q / f))) := by
    rw [List.map_map]
    exact List.map_congr_left fun p hp =>
      fromRational_of_le hq ((List.le_sum_of_mem hp).trans hsum)
  have hscaled : (ps.map fun p => p / f).sum ≤ q / f :=
    (sum_map_div_le ps f).trans (Nat.div_le_div_right hsum)
  calc (ps.map fun p => fromRational acc p q).sum
      ≤ (ps.map fun p => p / f * acc).sum / (q / f) := by
        rw [heq]; exact sum_map_div_le _ _
    _ = (ps.map fun p => p / f).sum * acc / (q / f) := by rw [List.sum_map_mul_right]
    _ ≤ q / f * acc / (q / f) := Nat.div_le_div_right (Nat.mul_le_mul_right acc hscaled)
    _ = acc := by rw [Nat.mul_comm, Nat.mul_div_cancel _ hqf]

end PerThing
