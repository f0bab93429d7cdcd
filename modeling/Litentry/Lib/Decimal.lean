import Litentry.Lib.Codec

/-!
# `rust_decimal`'s `Decimal`

A `Decimal` of the `rust_decimal` crate (version 1.35) is a sign, a 96-bit mantissa and a
scale of at most 28, and stands for `± mantissa / 10 ^ scale`. Two decimals of one value
but different scales are different decimals: `0.50` keeps its trailing zero until
`normalize` strips it, and `to_string` prints it.

The operations that never round are defined here by what they compute: `trunc`, `fract`,
`normalize`, `to_string` (`toString`, the ASCII bytes) and `Decimal::new`. The two that
round where a result does not fit, `from_str` and `*`, are the fields of `Lib`, and the
model assumes of them only the laws of `Lib.Lawful`:

* `from_str` reads a short plain decimal string exactly: its sign, its digits as the
  mantissa, and how many of them follow the point as the scale (`plain` is that grammar:
  an optional sign, digits with at most one point, `_` anywhere after the first digit);
* `*` of two decimals whose exact product fits is that product, and of a zero is `ZERO`.

`exactLib` is a `Lib` that keeps the laws, and refuses all it does not say.
-/

set_option autoImplicit false

/-- `rust_decimal::Decimal`. -/
structure Decimal where
  negative : Bool
  mantissa : ℕ
  scale : ℕ
  mantissa_lt : mantissa < 2 ^ 96
  scale_le : scale ≤ 28
  deriving DecidableEq

namespace Decimal

/-- `Decimal::ZERO`. -/
def zero : Decimal := ⟨false, 0, 0, by decide, by decide⟩

/-- `Decimal::new(num, scale)`, for an `i64` number: `none` (a panic) past the precision. -/
def new (num : ℤ) (scale : ℕ) : Option Decimal :=
  if h : num.natAbs < 2 ^ 96 ∧ scale ≤ 28 then some ⟨decide (num < 0), num.natAbs, scale, h.1, h.2⟩
  else none

/-- `trunc`: the integer part, the sign kept, at scale `0`. -/
def trunc (d : Decimal) : Decimal :=
  ⟨d.negative, d.mantissa / 10 ^ d.scale, 0,
    Nat.lt_of_le_of_lt (Nat.div_le_self _ _) d.mantissa_lt, Nat.zero_le _⟩

/-- `fract`, which is `self - self.trunc()`: the digits after the point, at the same scale.
    (The sign of a zero fraction of a negative decimal is not modelled; it is read only by
    `*`, which answers `ZERO` for any zero.) -/
def fract (d : Decimal) : Decimal :=
  ⟨d.negative, d.mantissa % 10 ^ d.scale, d.scale,
    Nat.lt_of_le_of_lt (Nat.mod_le _ _) d.mantissa_lt, d.scale_le⟩

/-- Trailing zeros of a mantissa dropped, one for each unit of scale. -/
def stripZeros : ℕ → ℕ → ℕ × ℕ
  | m, 0 => (m, 0)
  | m, s + 1 => if m % 10 = 0 then stripZeros (m / 10) s else (m, s + 1)

theorem stripZeros_spec (m s : ℕ) :
    (stripZeros m s).1 * 10 ^ (s - (stripZeros m s).2) = m ∧ (stripZeros m s).2 ≤ s := by
  induction s generalizing m with
  | zero => simp [stripZeros]
  | succ s ih =>
    unfold stripZeros
    split
    · rename_i hzero
      obtain ⟨hval, hle⟩ := ih (m / 10)
      refine ⟨?_, Nat.le_succ_of_le hle⟩
      rw [show s + 1 - (stripZeros (m / 10) s).2 = (s - (stripZeros (m / 10) s).2) + 1 by omega,
        Nat.pow_succ, ← Nat.mul_assoc, hval]
      omega
    · simp

/-- `normalize`: trailing zeros stripped, and a zero made `ZERO`. -/
def normalize (d : Decimal) : Decimal :=
  if d.mantissa = 0 then zero
  else
    ⟨d.negative, (stripZeros d.mantissa d.scale).1, (stripZeros d.mantissa d.scale).2,
      by
        have ⟨hval, _⟩ := stripZeros_spec d.mantissa d.scale
        calc (stripZeros d.mantissa d.scale).1
            ≤ (stripZeros d.mantissa d.scale).1 * 10 ^ (d.scale - (stripZeros d.mantissa d.scale).2) :=
              Nat.le_mul_of_pos_right _ (Nat.pow_pos (by decide))
          _ = d.mantissa := hval
          _ < 2 ^ 96 := d.mantissa_lt,
      Nat.le_trans (stripZeros_spec d.mantissa d.scale).2 d.scale_le⟩

/-- The digits of a mantissa, none for zero. -/
def mantissaDigits (m : ℕ) : List UInt8 := if m = 0 then [] else Codec.decimal m

/-- `to_string`: the digits, padded with zeros to at least `scale` of them, a point before
    the last `scale` (with a `0` before a point that would lead), `-` before a negative
    one, and `0` for no digits at all. -/
def toString (d : Decimal) : List UInt8 :=
  let chars := List.replicate (d.scale - (mantissaDigits d.mantissa).length) 48 ++
    mantissaDigits d.mantissa
  let whole := chars.take (chars.length - d.scale)
  let frac := chars.drop (chars.length - d.scale)
  (if d.negative then [45] else []) ++ (if whole = [] then [48] else whole) ++
    (if d.scale = 0 then [] else 46 :: frac)

/-! ## 1. What the operations give -/

theorem normalize_scale_pos {d : Decimal} (hd : d.mantissa % 10 ^ d.scale ≠ 0) :
    0 < (normalize d).scale := by
  have hne : d.mantissa ≠ 0 := by
    intro h
    rw [h, Nat.zero_mod] at hd
    exact hd rfl
  rw [normalize, if_neg hne]
  obtain ⟨hval, _⟩ := stripZeros_spec d.mantissa d.scale
  apply Nat.pos_of_ne_zero
  intro hzero
  simp only at hzero
  rw [hzero, Nat.sub_zero] at hval
  rw [← hval, Nat.mul_mod_left] at hd
  exact hd rfl

/-- A decimal at scale `0` prints as its digits, and a negative one starts with `-`. -/
theorem toString_of_scale_zero {d : Decimal} (hd : d.scale = 0) :
    toString d = (if d.negative then [45] else []) ++ Codec.decimal d.mantissa := by
  by_cases hm : d.mantissa = 0
  · simp [toString, hd, mantissaDigits, hm, Codec.decimal]
  · have hne : Codec.decimal d.mantissa ≠ [] :=
      List.ne_nil_of_length_pos (Codec.length_decimal_pos _)
    simp [toString, hd, mantissaDigits, hm, hne]

theorem mem_toString_of_negative {d : Decimal} (hd : d.negative = true) : 45 ∈ toString d := by
  simp [toString, hd]

theorem mem_toString_of_scale_pos {d : Decimal} (hd : 0 < d.scale) : 46 ∈ toString d := by
  simp [toString, Nat.pos_iff_ne_zero.1 hd]

/-- A mantissa with as many trailing zeros as its scale loses them all. -/
theorem stripZeros_of_dvd {m s : ℕ} (h : 10 ^ s ∣ m) : stripZeros m s = (m / 10 ^ s, 0) := by
  induction s generalizing m with
  | zero => simp [stripZeros]
  | succ s ih =>
    obtain ⟨k, rfl⟩ := h
    have hsplit : 10 ^ (s + 1) * k = 10 * (10 ^ s * k) := by ring
    rw [Nat.mul_div_cancel_left k (Nat.pow_pos (by decide)), stripZeros, hsplit,
      if_pos (Nat.mul_mod_right 10 _), Nat.mul_div_cancel_left _ (by decide),
      ih (Dvd.intro k rfl), Nat.mul_div_cancel_left k (Nat.pow_pos (by decide))]

/-- A decimal whose value is a whole number normalizes to scale `0`. -/
theorem normalize_of_dvd {d : Decimal} (h : 10 ^ d.scale ∣ d.mantissa) :
    (normalize d).scale = 0 ∧ (normalize d).mantissa = d.mantissa / 10 ^ d.scale := by
  by_cases hm : d.mantissa = 0
  · simp [normalize, hm, zero]
  · simp [normalize, hm, stripZeros_of_dvd h]

/-- `normalize` keeps the sign of a non-zero decimal. -/
theorem normalize_negative_of_ne_zero {d : Decimal} (h : d.mantissa ≠ 0) :
    (normalize d).negative = d.negative := by
  simp [normalize, h]

theorem normalize_negative {d : Decimal} (h : d.negative = false) : (normalize d).negative = false := by
  by_cases hm : d.mantissa = 0
  · simp [normalize, hm, zero]
  · simp [normalize, hm, h]

/-! ## 2. The grammar `from_str` reads exactly -/

/-- The rest of a plain decimal: the sign, whether the point and a digit were seen, the
    value and the scale so far. -/
def plainFrom (neg point has : Bool) (value scale : ℕ) : List UInt8 → Option (Bool × ℕ × ℕ)
  | [] => if has then some (neg, value, scale) else none
  | c :: rest =>
    if 48 ≤ c ∧ c ≤ 57 then
      plainFrom neg point true (10 * value + (c - 48).toNat) (if point then scale + 1 else scale) rest
    else if c = 46 ∧ point = false then plainFrom neg true has value scale rest
    else if c = 95 ∧ has = true then plainFrom neg point has value scale rest
    else none

/-- A plain decimal string: its sign, its digits as a number, and how many follow the
    point. -/
def plain : List UInt8 → Option (Bool × ℕ × ℕ)
  | [] => none
  | c :: rest =>
    if c = 45 then plainFrom true false false 0 0 rest
    else if c = 43 then plainFrom false false false 0 0 rest
    else plainFrom false false false 0 0 (c :: rest)

theorem plainFrom_bound {neg point has : Bool} {value scale : ℕ} {bytes : List UInt8}
    {r : Bool × ℕ × ℕ} (h : plainFrom neg point has value scale bytes = some r) :
    r.2.1 < (value + 1) * 10 ^ bytes.length ∧ r.2.2 ≤ scale + bytes.length := by
  induction bytes generalizing point has value scale with
  | nil =>
    unfold plainFrom at h
    split at h
    · cases h
      simp
    · cases h
  | cons c rest ih =>
    -- each byte read grows the value by a factor ten at most, and the scale by one
    have step : ∀ {point' has' : Bool} {value' scale' : ℕ}, value' ≤ 10 * value + 9 →
        scale' ≤ scale + 1 → plainFrom neg point' has' value' scale' rest = some r →
        r.2.1 < (value + 1) * 10 ^ (c :: rest).length ∧ r.2.2 ≤ scale + (c :: rest).length := by
      intro point' has' value' scale' hv hs h
      obtain ⟨hv', hs'⟩ := ih h
      refine ⟨?_, by simp only [List.length_cons]; omega⟩
      calc r.2.1 < (value' + 1) * 10 ^ rest.length := hv'
        _ ≤ (value + 1) * 10 * 10 ^ rest.length := Nat.mul_le_mul_right _ (by omega)
        _ = (value + 1) * 10 ^ (c :: rest).length := by
          rw [List.length_cons, Nat.pow_succ, Nat.mul_assoc, Nat.mul_comm 10]
    unfold plainFrom at h
    split at h
    · rename_i hdigit
      have hd : (c - 48).toNat ≤ 9 := by
        have hsub := UInt8.toNat_sub_of_le c 48 hdigit.1
        have hle := UInt8.le_iff_toNat_le.1 hdigit.2
        simp only [UInt8.reduceToNat] at hsub hle
        omega
      exact step (by omega) (by split <;> omega) h
    · split at h
      · exact step (by omega) (by omega) h
      · split at h
        · exact step (by omega) (by omega) h
        · cases h

/-- A plain string has fewer digits, and places after the point, than bytes. -/
theorem plain_bound {bytes : List UInt8} {neg : Bool} {value scale : ℕ}
    (h : plain bytes = some (neg, value, scale)) :
    value < 10 ^ bytes.length ∧ scale ≤ bytes.length := by
  cases bytes with
  | nil => cases h
  | cons c rest =>
    -- after a sign the rest is read, else the whole string
    have hread : ∀ {neg' : Bool} {bytes' : List UInt8}, bytes'.length ≤ (c :: rest).length →
        plainFrom neg' false false 0 0 bytes' = some (neg, value, scale) →
        value < 10 ^ (c :: rest).length ∧ scale ≤ (c :: rest).length := by
      intro neg' bytes' hlen h
      have := plainFrom_bound h
      simp only [Nat.zero_add, Nat.one_mul] at this
      exact ⟨Nat.lt_of_lt_of_le this.1 (Nat.pow_le_pow_right (by decide) hlen), by omega⟩
    simp only [plain] at h
    split at h
    · exact hread (by simp) h
    · split at h
      · exact hread (by simp) h
      · exact hread (Nat.le_refl _) h

theorem plainFrom_ascii {neg point has : Bool} {value scale : ℕ} {bytes : List UInt8}
    {r : Bool × ℕ × ℕ} (h : plainFrom neg point has value scale bytes = some r) :
    ∀ b ∈ bytes, b ≤ 0x7F := by
  induction bytes generalizing point has value scale with
  | nil => intro b hb; cases hb
  | cons c rest ih =>
    -- every byte read is a digit, a point or an underscore
    unfold plainFrom at h
    have hc : c ≤ 0x7F ∧ ∀ b ∈ rest, b ≤ 0x7F := by
      split at h
      · rename_i hdigit
        exact ⟨UInt8.le_trans hdigit.2 (by decide), ih h⟩
      · split at h
        · rename_i hpoint
          exact ⟨hpoint.1 ▸ (by decide), ih h⟩
        · split at h
          · rename_i hunder
            exact ⟨hunder.1 ▸ (by decide), ih h⟩
          · cases h
    intro b hb
    rcases List.mem_cons.1 hb with rfl | hb
    · exact hc.1
    · exact hc.2 b hb

/-- A plain decimal string is ASCII. -/
theorem plain_ascii {bytes : List UInt8} {r : Bool × ℕ × ℕ} (h : plain bytes = some r) :
    ∀ b ∈ bytes, b ≤ 0x7F := by
  cases bytes with
  | nil => cases h
  | cons c rest =>
    simp only [plain] at h
    intro b hb
    split at h
    · rename_i hminus
      rcases List.mem_cons.1 hb with rfl | hb
      · exact hminus ▸ (by decide)
      · exact plainFrom_ascii h b hb
    · split at h
      · rename_i hplus
        rcases List.mem_cons.1 hb with rfl | hb
        · exact hplus ▸ (by decide)
        · exact plainFrom_ascii h b hb
      · exact plainFrom_ascii h b hb

/-! ## 3. The rounding operations, by their laws -/

/-- `Decimal::from_str` (`none` for an `Err`) and `*` (`none` for its panic,
    "Multiplication overflowed"). -/
structure Lib where
  fromStr : List UInt8 → Option Decimal
  mul : Decimal → Decimal → Option Decimal

/-- What the model assumes of `rust_decimal`'s `from_str` and `*`. The strings read
    exactly are those of under 18 bytes, which the crate parses in a 64-bit accumulator. -/
structure Lib.Lawful (lib : Lib) : Prop where
  fromStr_plain : ∀ bytes neg value scale, bytes.length < 18 →
    plain bytes = some (neg, value, scale) →
    ∃ d, lib.fromStr bytes = some d ∧ d.negative = neg ∧ d.mantissa = value ∧ d.scale = scale
  mul_zero : ∀ x y, x.mantissa = 0 ∨ y.mantissa = 0 → lib.mul x y = some zero
  mul_exact : ∀ x y, x.mantissa ≠ 0 → y.mantissa ≠ 0 → x.mantissa * y.mantissa < 2 ^ 96 →
    x.scale + y.scale ≤ 28 →
    ∃ z, lib.mul x y = some z ∧ z.negative = (x.negative != y.negative) ∧
      z.mantissa = x.mantissa * y.mantissa ∧ z.scale = x.scale + y.scale

/-- The operations exactly where the laws speak, and refusing elsewhere. -/
def exactLib : Lib where
  fromStr bytes :=
    match plain bytes with
    | some (neg, value, scale) =>
      if h : value < 2 ^ 96 ∧ scale ≤ 28 then some ⟨neg, value, scale, h.1, h.2⟩ else none
    | none => none
  mul x y :=
    if x.mantissa = 0 ∨ y.mantissa = 0 then some zero
    else if h : x.mantissa * y.mantissa < 2 ^ 96 ∧ x.scale + y.scale ≤ 28 then
      some ⟨x.negative != y.negative, x.mantissa * y.mantissa, x.scale + y.scale, h.1, h.2⟩
    else none

theorem exactLib_lawful : exactLib.Lawful where
  fromStr_plain bytes neg value scale hlen h := by
    obtain ⟨hv, hs⟩ := plain_bound h
    have hbound : value < 2 ^ 96 ∧ scale ≤ 28 := by
      refine ⟨Nat.lt_of_lt_of_le hv ?_, by omega⟩
      calc 10 ^ bytes.length ≤ 10 ^ 17 := Nat.pow_le_pow_right (by decide) (by omega)
        _ ≤ 2 ^ 96 := by decide
    refine ⟨⟨neg, value, scale, hbound.1, hbound.2⟩, ?_, rfl, rfl, rfl⟩
    simp only [exactLib, h, dif_pos hbound]
  mul_zero x y h := by
    simp only [exactLib, if_pos h]
  mul_exact x y hx hy hm hs := by
    refine ⟨⟨x.negative != y.negative, x.mantissa * y.mantissa, x.scale + y.scale, hm, hs⟩,
      ?_, rfl, rfl, rfl⟩
    have hnz : ¬ (x.mantissa = 0 ∨ y.mantissa = 0) := by omega
    simp only [exactLib, if_neg hnz, dif_pos (And.intro hm hs)]

end Decimal
