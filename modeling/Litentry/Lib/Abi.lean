import Litentry.Lib.Codec
import Litentry.Lib.Encoding

/-!
# The Ethereum ABI, and `U256` from text

The parts of the `ethabi` crate (version 18) and of `U256` (the `uint` crate, 0.9) that
the dynamic-assertion precompiles call, on `List UInt8`:

* `encode`: `ethabi::encode`, the head/tail layout. Each token has a 32-byte head; the
  head of a `string` or `bytes` token is the byte offset of its tail, which is the length
  as a word followed by the bytes, right-padded with zeros to a multiple of 32.
* `decode`: `ethabi::decode`. It reads each head at the next 32 bytes, follows the offset
  of a dynamic token, and checks that every offset and length is below `2 ^ 32` and every
  read lies inside the data; it does not check the width of a `uint<N>` word, nor that the
  data ends where the encoding does. A `string` is decoded with
  `String::from_utf8_lossy`.
* `U256.fromDecStr` and `U256.fromHexStr`: `U256::from_dec_str` and the `FromStr` of
  `U256` that `from_str_radix(_, 16)` calls.

The one theorem of the module is the round trip `decode_encode`: a list of tokens of the
given types, whose encoding is shorter than `2 ^ 32` bytes, decodes to itself (a string
through the lossy decoding). Only the parameter types the precompiles decode are modelled
(`uint<N>`, `string`, `bytes`); arrays, tuples, addresses and fixed-size types are not.
-/

set_option autoImplicit false

namespace Abi

open Litentry

/-! ## 1. Words -/

/-- `n` as a 32-byte big-endian word, modulo `2 ^ 256`. -/
def word (n : ℕ) : List UInt8 := (Codec.leBytes 32 n).reverse

/-- The number that big-endian bytes denote. -/
def wordValue (bytes : List UInt8) : ℕ := Codec.leNat bytes.reverse

@[simp] theorem length_word (n : ℕ) : (word n).length = 32 := by
  simp [word]

theorem wordValue_word (n : ℕ) : wordValue (word n) = n % 2 ^ 256 := by
  simp [word, wordValue, Codec.leNat_leBytes]

theorem leNat_lt (bytes : List UInt8) : Codec.leNat bytes < 2 ^ (8 * bytes.length) := by
  induction bytes with
  | nil => exact Nat.one_pos
  | cons b bytes ih =>
    have hb := b.toNat_lt
    have hpow : 2 ^ (8 * (bytes.length + 1)) = 256 * 2 ^ (8 * bytes.length) := by
      rw [Nat.mul_succ, Nat.pow_add, Nat.mul_comm]
    rw [Codec.leNat, List.length_cons, hpow]
    omega

theorem wordValue_lt {bytes : List UInt8} (h : bytes.length = 32) :
    wordValue bytes < 2 ^ 256 := by
  have := leNat_lt bytes.reverse
  rwa [List.length_reverse, h] at this

theorem leBytes_add (a b n : ℕ) :
    Codec.leBytes (a + b) n = Codec.leBytes a n ++ Codec.leBytes b (n / 2 ^ (8 * a)) := by
  induction a generalizing n with
  | zero => simp [Codec.leBytes]
  | succ a ih =>
    have hpow : 2 ^ (8 * (a + 1)) = 256 * 2 ^ (8 * a) := by
      rw [Nat.mul_succ, Nat.pow_add, Nat.mul_comm]
    rw [Nat.add_right_comm, Codec.leBytes, Codec.leBytes, ih, hpow, Nat.div_div_eq_div_mul]
    rfl

theorem leBytes_zero (w : ℕ) : Codec.leBytes w 0 = List.replicate w 0 := by
  induction w with
  | zero => rfl
  | succ w ih => rw [Codec.leBytes, ih]; rfl

/-- A word below `2 ^ 32` is 28 zero bytes and then its four low bytes. -/
theorem word_of_lt {n : ℕ} (h : n < 2 ^ 32) :
    word n = List.replicate 28 0 ++ (Codec.leBytes 4 n).reverse := by
  have hsplit := leBytes_add 4 28 n
  rw [Nat.div_eq_of_lt h, leBytes_zero] at hsplit
  rw [word, show (32 : ℕ) = 4 + 28 from rfl, hsplit, List.reverse_append,
    List.reverse_replicate]

/-- `pad_fixed_bytes`: right-padded with zeros to a multiple of 32. -/
def padded (bytes : List UInt8) : List UInt8 :=
  bytes ++ List.replicate ((32 - bytes.length % 32) % 32) 0

/-! ## 2. Tokens -/

/-- The parameter types the model decodes. -/
inductive ParamType where
  | uint (bits : ℕ)
  | string
  | bytes
  deriving DecidableEq, Repr

/-- `ethabi::Token`, for the types above, `int` (a two's-complement word) and `bool`. -/
inductive Token where
  | uint (n : ℕ)
  | int (n : ℕ)
  | bool (b : Bool)
  | string (s : List UInt8)
  | bytes (b : List UInt8)
  deriving DecidableEq, Repr

namespace Token

/-- `into_string`. -/
def intoString : Token → Option (List UInt8)
  | string s => some s
  | _ => none

/-- `into_uint`, which takes an `Int` as well. -/
def intoUint : Token → Option ℕ
  | uint n | int n => some n
  | _ => none

/-- `into_bytes`. -/
def intoBytes : Token → Option (List UInt8)
  | bytes b => some b
  | _ => none

/-- What decoding makes of a token: its string through the lossy UTF-8 decoding. -/
def decoded : Token → Token
  | string s => string (Utf8.lossy s)
  | t => t

end Token

/-- The token is a value of the type: a `uint` below `2 ^ 256`, a `string`, or `bytes`. -/
def Fits : ParamType → Token → Prop
  | .uint _, .uint n => n < 2 ^ 256
  | .string, .string _ => True
  | .bytes, .bytes _ => True
  | _, _ => False

/-! ## 3. Encoding -/

/-- The head of a token whose tail starts at `offset` (`pad_u32` of a `u32` offset). -/
def head : Token → ℕ → List UInt8
  | .uint n, _ | .int n, _ => word n
  | .bool b, _ => word (if b then 1 else 0)
  | .string _, offset | .bytes _, offset => word (offset % 2 ^ 32)

/-- The tail of a token: for a dynamic one its length and padded bytes. -/
def tail : Token → List UInt8
  | .string s | .bytes s => word (s.length % 2 ^ 32) ++ padded s
  | _ => []

/-- The heads, the first tail at `offset`. -/
def heads : ℕ → List Token → List UInt8
  | _, [] => []
  | offset, t :: ts => head t offset ++ heads (offset + (tail t).length) ts

/-- `ethabi::encode`. -/
def encode (tokens : List Token) : List UInt8 :=
  heads (32 * tokens.length) tokens ++ tokens.flatMap tail

@[simp] theorem length_head (t : Token) (offset : ℕ) : (head t offset).length = 32 := by
  cases t <;> simp [head]

theorem length_heads (offset : ℕ) (tokens : List Token) :
    (heads offset tokens).length = 32 * tokens.length := by
  induction tokens generalizing offset with
  | nil => rfl
  | cons t ts ih =>
    rw [heads, List.length_append, length_head, ih, List.length_cons]
    ring

theorem length_padded_lt (bytes : List UInt8) : (padded bytes).length < bytes.length + 32 := by
  simp only [padded, List.length_append, List.length_replicate]
  omega

theorem length_encode (tokens : List Token) :
    (encode tokens).length = 32 * tokens.length + (tokens.flatMap tail).length := by
  rw [encode, List.length_append, length_heads]

/-! ## 4. Decoding -/

/-- The errors `decode` returns. -/
inductive Error where
  | invalidName
  | invalidData
  deriving DecidableEq, Repr

/-- `peek` and `take_bytes`: the `len` bytes at `offset`, inside the data. -/
def peek (data : List UInt8) (offset len : ℕ) : Except Error (List UInt8) :=
  if data.length < offset + len then .error .invalidData else .ok ((data.drop offset).take len)

/-- `as_usize`: a word whose first 28 bytes are zero, as a number. -/
def asUsize (w : List UInt8) : Except Error ℕ :=
  if (w.take 28).all (· == 0) then .ok (wordValue (w.drop 28)) else .error .invalidData

/-- The bytes of a dynamic token whose head is at `offset`: its offset word, the length
    word there, and the bytes after it. -/
def dynamicBytes (data : List UInt8) (offset : ℕ) : Except Error (List UInt8) := do
  let dynamicOffset ← asUsize (← peek data offset 32)
  let len ← asUsize (← peek data dynamicOffset 32)
  peek data (dynamicOffset + 32) len

/-- `decode_param`: the token at `offset`, and the offset of the next head. -/
def decodeParam (data : List UInt8) (offset : ℕ) : ParamType → Except Error (Token × ℕ)
  | .uint _ => do
    let w ← peek data offset 32
    return (.uint (wordValue w), offset + 32)
  | .string => do
    let bytes ← dynamicBytes data offset
    return (.string (Utf8.lossy bytes), offset + 32)
  | .bytes => do
    let bytes ← dynamicBytes data offset
    return (.bytes bytes, offset + 32)

/-- The loop of `decode_offset`, from the head at `offset`. -/
def decodeFrom (data : List UInt8) : ℕ → List ParamType → Except Error (List Token)
  | _, [] => .ok []
  | offset, ty :: types => do
    let (token, offset) ← decodeParam data offset ty
    let tokens ← decodeFrom data offset types
    return token :: tokens

/-- `ethabi::decode`: empty data is refused unless there is nothing to decode. -/
def decode (types : List ParamType) (data : List UInt8) : Except Error (List Token) :=
  if !types.isEmpty && data.isEmpty then .error .invalidName else decodeFrom data 0 types

/-! ## 5. What decoding returns -/

theorem length_of_peek {data w : List UInt8} {offset len : ℕ} (h : peek data offset len = .ok w) :
    w.length = len := by
  unfold peek at h
  split at h
  · cases h
  · cases h
    rw [List.length_take, List.length_drop]
    omega

theorem decodeParam_fits {data : List UInt8} {offset next : ℕ} {ty : ParamType} {token : Token}
    (h : decodeParam data offset ty = .ok (token, next)) : Fits ty token := by
  cases ty with
  | uint bits =>
    simp only [decodeParam, bind, Except.bind, pure, Except.pure] at h
    split at h
    · cases h
    · rename_i w hw
      cases h
      exact wordValue_lt (length_of_peek hw)
  | string =>
    simp only [decodeParam, bind, Except.bind, pure, Except.pure] at h
    split at h
    · cases h
    · cases h
      trivial
  | bytes =>
    simp only [decodeParam, bind, Except.bind, pure, Except.pure] at h
    split at h
    · cases h
    · cases h
      trivial

theorem decodeFrom_fits {data : List UInt8} {types : List ParamType} :
    ∀ {offset : ℕ} {tokens : List Token}, decodeFrom data offset types = .ok tokens →
      List.Forall₂ Fits types tokens := by
  induction types with
  | nil =>
    intro offset tokens h
    cases h
    exact .nil
  | cons ty types ih =>
    intro offset tokens h
    simp only [decodeFrom, bind, Except.bind, pure, Except.pure] at h
    split at h
    · cases h
    · rename_i p hp
      split at h
      · cases h
      · rename_i rest hrest
        cases h
        exact .cons (decodeParam_fits hp) (ih hrest)

/-- **Decoding is typed.** What `decode` returns is one token of each type asked for; so
    an `unwrap` of the `into_*` of the type asked for never fails. -/
theorem decode_fits {types : List ParamType} {data : List UInt8} {tokens : List Token}
    (h : decode types data = .ok tokens) : List.Forall₂ Fits types tokens := by
  unfold decode at h
  split at h
  · cases h
  · exact decodeFrom_fits h

/-! ## 6. What decoding reads -/

theorem peek_of_drop {data mid rest : List UInt8} {offset : ℕ} (ho : offset ≤ data.length)
    (h : data.drop offset = mid ++ rest) : peek data offset mid.length = .ok mid := by
  have hlen := congrArg List.length h
  rw [List.length_drop, List.length_append] at hlen
  rw [peek, if_neg (by omega), h, List.take_left]

theorem asUsize_word {n : ℕ} (h : n < 2 ^ 32) : asUsize (word n) = .ok n := by
  have hdigits : wordValue (Codec.leBytes 4 n).reverse = n := by
    rw [wordValue, List.reverse_reverse, Codec.leNat_leBytes, Nat.mod_eq_of_lt h]
  rw [asUsize, word_of_lt h, List.take_left' (by simp), if_pos (by simp),
    List.drop_left' (by simp), hdigits]

/-- A dynamic token reads back: the head holds the offset of the tail, and the tail the
    length and the padded bytes. -/
theorem dynamicBytes_of_tail {data post rest s : List UInt8} {offset tailOffset : ℕ}
    (hdata : data.length < 2 ^ 32) (ho : offset ≤ data.length)
    (hhead : data.drop offset = word (tailOffset % 2 ^ 32) ++ post)
    (htail : data.drop tailOffset = word (s.length % 2 ^ 32) ++ padded s ++ rest) :
    dynamicBytes data offset = .ok s := by
  have hlen := congrArg List.length htail
  simp only [List.length_drop, List.length_append, length_word, padded,
    List.length_replicate] at hlen
  have htl : tailOffset < 2 ^ 32 := by omega
  have hsl : s.length < 2 ^ 32 := by omega
  rw [Nat.mod_eq_of_lt htl] at hhead
  rw [Nat.mod_eq_of_lt hsl] at htail
  -- the offset word, the length word there, and the bytes after it
  have h₁ : peek data offset 32 = .ok (word tailOffset) := by
    rw [← length_word tailOffset]
    exact peek_of_drop ho hhead
  have h₂ : peek data tailOffset 32 = .ok (word s.length) := by
    rw [← length_word s.length]
    exact peek_of_drop (by omega) (by rw [htail, List.append_assoc])
  have h₃ : peek data (tailOffset + 32) s.length = .ok s := by
    apply peek_of_drop (by omega)
    rw [← List.drop_drop, htail, List.append_assoc, List.drop_left' (length_word _), padded,
      List.append_assoc]
  simp only [dynamicBytes, h₁, h₂, h₃, asUsize_word htl, asUsize_word hsl, bind, Except.bind]

/-- **The reading lemma.** Decoding from a head of the layout, with the tails where the
    heads say, reads the tokens back. -/
theorem decodeFrom_heads {data : List UInt8} (hdata : data.length < 2 ^ 32) :
    ∀ {types : List ParamType} {tokens : List Token}, List.Forall₂ Fits types tokens →
      ∀ {offset tailOffset : ℕ} {post rest : List UInt8}, offset ≤ data.length →
        data.drop offset = heads tailOffset tokens ++ post →
        data.drop tailOffset = tokens.flatMap tail ++ rest →
        decodeFrom data offset types = .ok (tokens.map Token.decoded) := by
  intro types tokens hfits
  induction hfits with
  | nil => intro _ _ _ _ _ _ _; rfl
  | @cons ty t types tokens hfit _ ih =>
    intro offset tailOffset post rest ho hhead htail
    rw [heads, List.append_assoc] at hhead
    rw [List.flatMap_cons, List.append_assoc] at htail
    have hlen := congrArg List.length hhead
    rw [List.length_drop, List.length_append, length_head] at hlen
    -- the next head, and the tails after this token's
    have hhead' : data.drop (offset + 32) = heads (tailOffset + (tail t).length) tokens ++ post := by
      rw [← List.drop_drop, hhead, List.drop_left' (length_head _ _)]
    have htail' : data.drop (tailOffset + (tail t).length) = tokens.flatMap tail ++ rest := by
      rw [← List.drop_drop, htail, List.drop_left' rfl]
    have hnext := ih (by omega) hhead' htail'
    cases ty <;> cases t <;> simp only [Fits] at hfit
    case uint.uint bits n =>
      have hpeek : peek data offset 32 = .ok (word n) := by
        rw [← length_word n]; exact peek_of_drop ho hhead
      simp only [decodeFrom, decodeParam, hpeek, hnext, bind, Except.bind, pure, Except.pure,
        wordValue_word, Nat.mod_eq_of_lt hfit]
      rfl
    case string.string s =>
      have hbytes := dynamicBytes_of_tail hdata ho hhead htail
      simp only [decodeFrom, decodeParam, hbytes, hnext, bind, Except.bind, pure, Except.pure]
      rfl
    case bytes.bytes s =>
      have hbytes := dynamicBytes_of_tail hdata ho hhead htail
      simp only [decodeFrom, decodeParam, hbytes, hnext, bind, Except.bind, pure, Except.pure]
      rfl

/-- **The round trip.** Tokens of the given types, whose encoding is shorter than
    `2 ^ 32` bytes, decode to themselves, a string through the lossy decoding. -/
theorem decode_encode {types : List ParamType} {tokens : List Token}
    (hfits : List.Forall₂ Fits types tokens) (hlen : (encode tokens).length < 2 ^ 32) :
    decode types (encode tokens) = .ok (tokens.map Token.decoded) := by
  have hheads := length_heads (32 * tokens.length) tokens
  have hread := decodeFrom_heads hlen hfits (Nat.zero_le _)
    (by rw [List.drop_zero, encode]) (by rw [encode, List.drop_left' hheads, List.append_nil])
  rw [decode]
  cases hfits with
  | nil => rfl
  | @cons ty t types ts hfit hrest =>
    -- a token has a head, so the data is not empty
    have hne : (encode (t :: ts)).isEmpty = false := by
      rw [List.isEmpty_eq_false_iff, ← List.length_pos_iff, encode, List.length_append,
        length_heads, List.length_cons]
      omega
    rw [if_neg (by simp [hne])]
    exact hread

/-! ## 7. `U256` from text -/

namespace U256

/-- The errors of `from_dec_str`. -/
inductive FromDecStrErr where
  | invalidCharacter
  | invalidLength
  deriving DecidableEq, Repr

/-- The loop of `from_dec_str`, the value so far in `acc`. A byte minus `'0'` (wrapping)
    above 9 is not a digit; a value past `U256::MAX` is refused (the overflow of the
    multiplication by ten, or of the addition of the digit). -/
def fromDecStrFrom (acc : ℕ) : List UInt8 → Except FromDecStrErr ℕ
  | [] => .ok acc
  | c :: rest =>
    if 9 < c - 48 then .error .invalidCharacter
    else if 2 ^ 256 ≤ acc * 10 + (c - 48).toNat then .error .invalidLength
    else fromDecStrFrom (acc * 10 + (c - 48).toNat) rest

/-- `U256::from_dec_str`. -/
def fromDecStr (s : List UInt8) : Except FromDecStrErr ℕ := fromDecStrFrom 0 s

/-- `as_u32`: `none` (the panic "Integer overflow when casting to u32") past `u32::MAX`. -/
def asU32 (n : ℕ) : Option ℕ := if n < 2 ^ 32 then some n else none

/-- A hex digit of either case (`hex`'s `val`). -/
def hexDigit? (c : UInt8) : Option ℕ :=
  if 48 ≤ c ∧ c ≤ 57 then some (c - 48).toNat
  else if 97 ≤ c ∧ c ≤ 102 then some (c - 87).toNat
  else if 65 ≤ c ∧ c ≤ 70 then some (c - 55).toNat
  else none

/-- `U256::from_str`: without a leading `0x`, at most 64 hex digits, big-endian (an odd
    count is read with a `0` before it, which does not change the value). -/
def fromHexStr (s : List UInt8) : Option ℕ :=
  let s := if s.take 2 = ascii "0x" then s.drop 2 else s
  if 64 < s.length then none
  else (s.mapM hexDigit?).map fun ds => Nat.ofDigits 16 ds.reverse

theorem fromDecStrFrom_append (acc : ℕ) (s t : List UInt8) :
    fromDecStrFrom acc (s ++ t) = (fromDecStrFrom acc s).bind fun acc' => fromDecStrFrom acc' t := by
  induction s generalizing acc with
  | nil => rfl
  | cons c s ih =>
    simp only [List.cons_append, fromDecStrFrom]
    split
    · rfl
    · split
      · rfl
      · exact ih _

/-- A string with a byte that is not a digit is refused, wherever the byte stands. -/
theorem fromDecStr_error_of_mem {s : List UInt8} {c : UInt8} (hc : c ∈ s) (hdigit : 9 < c - 48) :
    ∃ e, fromDecStr s = .error e := by
  obtain ⟨pre, post, rfl⟩ := List.append_of_mem hc
  rw [fromDecStr, fromDecStrFrom_append]
  cases fromDecStrFrom 0 pre with
  | error e => exact ⟨e, rfl⟩
  | ok acc => exact ⟨.invalidCharacter, by simp [Except.bind, fromDecStrFrom, hdigit]⟩

/-- The digits of a number below `2 ^ 256` read back as the number. -/
theorem fromDecStr_decimal {n : ℕ} (hn : n < 2 ^ 256) : fromDecStr (Codec.decimal n) = .ok n := by
  -- by the digits, most significant first, from any value `acc` read before them
  suffices h : ∀ n acc, acc * 10 ^ (Codec.decimal n).length + n < 2 ^ 256 →
      fromDecStrFrom acc (Codec.decimal n) = .ok (acc * 10 ^ (Codec.decimal n).length + n) by
    rw [fromDecStr]
    simpa using h n 0 (by simpa using hn)
  intro n
  induction n using Nat.strong_induction_on with
  | _ n ih =>
    intro acc hacc
    by_cases hsmall : n < 10
    · -- one digit
      have hdigit : Codec.decimal n = [n.digitChar.toNat.toUInt8] := by
        rw [Codec.decimal, Nat.toDigits_of_lt_base hsmall]
        rfl
      have hchar : (n.digitChar.toNat.toUInt8 - 48).toNat = n := by
        interval_cases n <;> rfl
      have hle : ¬ 9 < n.digitChar.toNat.toUInt8 - 48 := by
        interval_cases n <;> decide
      rw [hdigit, List.length_singleton, pow_one] at hacc ⊢
      rw [fromDecStrFrom, if_neg hle, hchar, if_neg (by omega)]
      rfl
    · -- the digits of `n / 10`, then the last one
      have hr : n % 10 < 10 := Nat.mod_lt _ (by decide)
      have hsplit : Codec.decimal n = Codec.decimal (n / 10) ++ Codec.decimal (n % 10) := by
        rw [Codec.decimal, Codec.decimal, Codec.decimal, ← List.map_append,
          Nat.toDigits_append_toDigits (by decide) (by omega) hr, Nat.div_add_mod]
      have hlast : (Codec.decimal (n % 10)).length = 1 := by
        rw [Codec.length_decimal, Nat.toDigits_of_lt_base hr]
        rfl
      have hlen : (Codec.decimal n).length = (Codec.decimal (n / 10)).length + 1 := by
        rw [hsplit, List.length_append, hlast]
      rw [hlen, pow_succ] at hacc ⊢
      have hle : acc * 10 ^ (Codec.decimal (n / 10)).length ≤
          acc * (10 ^ (Codec.decimal (n / 10)).length * 10) :=
        Nat.mul_le_mul_left _ (Nat.le_mul_of_pos_right _ (by decide))
      have hq : acc * 10 ^ (Codec.decimal (n / 10)).length + n / 10 < 2 ^ 256 := by
        have := Nat.div_le_self n 10
        omega
      have hval : (acc * 10 ^ (Codec.decimal (n / 10)).length + n / 10) * 10 + n % 10 =
          acc * (10 ^ (Codec.decimal (n / 10)).length * 10) + n := by
        have := Nat.div_add_mod n 10
        rw [Nat.add_mul, Nat.mul_assoc]
        omega
      have hlastStep := ih (n % 10) (by omega) (acc * 10 ^ (Codec.decimal (n / 10)).length + n / 10)
        (by rw [hlast, pow_one, hval]; exact hacc)
      rw [hlast, pow_one, hval] at hlastStep
      rw [hsplit, fromDecStrFrom_append, ih (n / 10) (by omega) acc hq]
      exact hlastStep

end U256

end Abi
