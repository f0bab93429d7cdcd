import Mathlib

/-!
# Byte codecs

The byte-level encodings that signed messages are built from, over plain `List UInt8`:

* `hex`: lowercase hexadecimal, two digits per byte, high half first (the `hex` crate's
  `encode`);
* `decimal`: the ASCII digits of a number (`to_string` of an integer);
* `leBytes`: a number as `w` little-endian bytes (SCALE's fixed-width integers);
* `compact`: SCALE's compact encoding of a `u32`, which is how lengths are written.

Separation proofs need two things of these encodings. Each is injective where it is used.
A length prefix whose own size grows with the length it states also delimits the payload
after it (`prefixed_inj`); `decimal` and `compact` are both such prefixes.
-/

set_option autoImplicit false

namespace Codec

/-! ## Length prefixes -/

/-- A length prefix whose size grows with the length it states delimits the payload:
    two prefixed strings that agree carry the same payload. -/
theorem prefixed_inj {α : Type*} {f : ℕ → List α} (hf : Monotone fun n => (f n).length)
    {x y : List α} (h : f x.length ++ x = f y.length ++ y) : x = y := by
  have hlen := congrArg List.length h
  simp only [List.length_append] at hlen
  -- the longer payload would carry a prefix at least as long
  have hxy : x.length = y.length := by
    rcases lt_trichotomy x.length y.length with hlt | heq | hgt
    · have : (f x.length).length ≤ (f y.length).length := hf hlt.le
      omega
    · exact heq
    · have : (f y.length).length ≤ (f x.length).length := hf hgt.le
      omega
  rw [hxy] at h
  exact List.append_cancel_left h

/-! ## Hexadecimal -/

/-- The ASCII code of the lowercase hex digit `d < 16`. -/
def hexDigit (d : ℕ) : UInt8 := if d < 10 then (48 + d).toUInt8 else (87 + d).toUInt8

/-- One byte as two hex digits, high half first. -/
def hexPair (b : UInt8) : List UInt8 := [hexDigit (b.toNat / 16), hexDigit (b.toNat % 16)]

/-- `hex::encode`. -/
def hex (l : List UInt8) : List UInt8 := l.flatMap hexPair

/-- The bytes `hex` writes: `0`–`9` and `a`–`f`. -/
def IsHexDigit (c : UInt8) : Prop :=
  (48 ≤ c.toNat ∧ c.toNat ≤ 57) ∨ (97 ≤ c.toNat ∧ c.toNat ≤ 102)

theorem toNat_hexDigit {d : ℕ} (hd : d < 16) :
    (hexDigit d).toNat = if d < 10 then 48 + d else 87 + d := by
  unfold hexDigit
  split_ifs <;> simp [Nat.toUInt8, UInt8.toNat_ofNat] <;> omega

theorem isHexDigit_hexDigit {d : ℕ} (hd : d < 16) : IsHexDigit (hexDigit d) := by
  unfold IsHexDigit
  rw [toNat_hexDigit hd]
  split_ifs <;> omega

theorem hexDigit_inj {d e : ℕ} (hd : d < 16) (he : e < 16) (h : hexDigit d = hexDigit e) :
    d = e := by
  have h' := congrArg UInt8.toNat h
  rw [toNat_hexDigit hd, toNat_hexDigit he] at h'
  split_ifs at h' <;> omega

theorem hexPair_injective : Function.Injective hexPair := by
  intro a b h
  simp only [hexPair, List.cons.injEq, and_true] at h
  obtain ⟨hhi, hlo⟩ := h
  have ha := a.toNat_lt
  have hb := b.toNat_lt
  -- a byte is sixteen times its high digit plus its low one
  have hi := hexDigit_inj (by omega) (by omega) hhi
  have lo := hexDigit_inj (by omega) (by omega) hlo
  apply UInt8.toNat_inj.1
  omega

@[simp] theorem length_hex (l : List UInt8) : (hex l).length = 2 * l.length := by
  induction l with
  | nil => rfl
  | cons b l ih =>
    simp only [hex, List.flatMap_cons, List.length_append, List.length_cons] at ih ⊢
    rw [ih]
    simp [hexPair]
    omega

theorem hex_injective : Function.Injective hex := by
  intro l
  induction l with
  | nil =>
    intro l' h
    have := congrArg List.length h
    simp only [length_hex, List.length_nil] at this
    exact (List.length_eq_zero_iff.1 (by omega)).symm
  | cons b l ih =>
    intro l' h
    cases l' with
    | nil => simp [hex, hexPair] at h
    | cons b' l' =>
      simp only [hex, List.flatMap_cons] at h
      -- the first two digits are the first byte's
      obtain ⟨hb, hl⟩ := List.append_inj h (by simp [hexPair])
      rw [hexPair_injective hb, ih hl]

theorem isHexDigit_of_mem_hex {l : List UInt8} {c : UInt8} (h : c ∈ hex l) : IsHexDigit c := by
  simp only [hex, List.mem_flatMap, hexPair, List.mem_cons, List.not_mem_nil, or_false] at h
  obtain ⟨b, -, rfl | rfl⟩ := h
  · exact isHexDigit_hexDigit (by have := b.toNat_lt; omega)
  · exact isHexDigit_hexDigit (Nat.mod_lt _ (by decide))

/-! ## Decimal digits -/

/-- The ASCII digits of `n` in base ten. -/
def decimal (n : ℕ) : List UInt8 := (Nat.toDigits 10 n).map fun c => c.toNat.toUInt8

theorem length_decimal (n : ℕ) : (decimal n).length = (Nat.toDigits 10 n).length :=
  List.length_map _

theorem length_decimal_pos (n : ℕ) : 0 < (decimal n).length := by
  rw [length_decimal]
  exact Nat.length_toDigits_pos

theorem length_decimal_mono : Monotone fun n => (decimal n).length := by
  intro a b hab
  simp only [length_decimal]
  -- `b` has `k` digits, so `a ≤ b < 10 ^ k` has at most `k`
  have hk : 0 < (Nat.toDigits 10 b).length := Nat.length_toDigits_pos
  have hb : b < 10 ^ (Nat.toDigits 10 b).length :=
    (Nat.length_toDigits_le_iff (by decide) hk).1 le_rfl
  exact (Nat.length_toDigits_le_iff (by decide) hk).2 (lt_of_le_of_lt hab hb)

/-! ## Little-endian integers -/

/-- `n` as `w` little-endian bytes, modulo `2 ^ (8 * w)`. -/
def leBytes : ℕ → ℕ → List UInt8
  | 0, _ => []
  | w + 1, n => (n % 256).toUInt8 :: leBytes w (n / 256)

/-- The number that little-endian bytes denote. -/
def leNat : List UInt8 → ℕ
  | [] => 0
  | b :: l => b.toNat + 256 * leNat l

@[simp] theorem length_leBytes (w n : ℕ) : (leBytes w n).length = w := by
  induction w generalizing n with
  | zero => rfl
  | succ w ih => simp [leBytes, ih]

theorem leNat_leBytes (w n : ℕ) : leNat (leBytes w n) = n % 2 ^ (8 * w) := by
  induction w generalizing n with
  | zero => simp [leBytes, leNat, Nat.mod_one]
  | succ w ih =>
    have hpow : 2 ^ (8 * (w + 1)) = 256 * 2 ^ (8 * w) := by
      rw [Nat.mul_succ, Nat.pow_add, Nat.mul_comm]
    simp only [leBytes, leNat, ih, hpow, Nat.mod_mul]
    simp [Nat.toUInt8]

theorem leBytes_inj {w a b : ℕ} (ha : a < 2 ^ (8 * w)) (hb : b < 2 ^ (8 * w))
    (h : leBytes w a = leBytes w b) : a = b := by
  have h' := congrArg leNat h
  rwa [leNat_leBytes, leNat_leBytes, Nat.mod_eq_of_lt ha, Nat.mod_eq_of_lt hb] at h'

/-! ## SCALE compact lengths -/

/-- SCALE's compact encoding of a `u32`: the two low bits of the first byte name the
    mode, one byte below `2 ^ 6`, two below `2 ^ 14`, four below `2 ^ 30`, and
    otherwise the marker `0b11` followed by the four bytes of the number. -/
def compact (n : ℕ) : List UInt8 :=
  if n < 2 ^ 6 then leBytes 1 (4 * n)
  else if n < 2 ^ 14 then leBytes 2 (4 * n + 1)
  else if n < 2 ^ 30 then leBytes 4 (4 * n + 2)
  else 3 :: leBytes 4 n

theorem length_compact_mono : Monotone fun n => (compact n).length := by
  intro a b hab
  simp only [compact]
  split_ifs <;> simp <;> omega

end Codec
