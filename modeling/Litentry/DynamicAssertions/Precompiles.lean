import Litentry.Lib.Abi
import Litentry.Lib.Decimal
import Litentry.Lib.Word
import Litentry.Primitives.Identity

/-!
# The pure precompiles of the dynamic-assertion EVM

A dynamic assertion is a contract run in the enclave's EVM, and it calls the worker back
through precompiles at fixed addresses (`Precompiles::execute`). Each precompile
ABI-decodes its input, computes, and returns the ABI encoding of `(true, value)` on success
or `(false, default)` on failure; every failure the code foresees is such an output. What it
does not foresee is a panic, and a panic aborts the enclave's execution of the assertion.

The precompiles modelled here are those that touch nothing outside: `parse_decimal`,
`parse_int`, `hex_to_number`, `to_hex`, `identity_to_string`, the `json_get_*` family and
`get_array_len`. Each returns `Except Panic (List UInt8)`: the output bytes, or the panic,
named by where it is raised. What other crates compute is a parameter: `rust_decimal`'s
rounding operations (`Decimal.Lib`), `serde_json` (`JsonCodecs`), and the SS58 registry,
BLAKE2b and the `bitcoin` crate (`IdentityCodecs`).

`parseDecimal_panics` is the main fact: `parse_decimal` panics on a decimal with more places
after the point than `decimals`, on a negative decimal, and on a `decimals` word past
`u32::MAX`. Where it answers, it is exact only while `10 ^ decimals` is an `i64`: up to
`decimals = 18` a non-negative decimal with at most `decimals` places comes out as its value
times `10 ^ decimals` (`scaleDecimal_exact`). Past that `10_i64.pow(decimals)` wraps in the
release build (`parseDecimal_wrapped_factor`). Where it wraps to a negative `i64`, first at
`decimals = 19`, a non-zero fraction times it prints with a `-` and the `unwrap` panics; from
`decimals = 64` on it wraps to `0`, and the fraction is dropped without a sign. `identity_to_string` panics on a wide network word and on a Bitcoin key of the
wrong length, and `json_get_i64` on a negative number. The decode-then-`unwrap` of the JSON
precompiles, which the code calls safe, is: `jsonGetFn_isOk`.
-/

set_option autoImplicit false

namespace Litentry.DynamicAssertions

open Abi

/-- The panics of the precompiles, by where they are raised. -/
inductive Panic where
  /-- `U256::as_u32` past `u32::MAX`: "Integer overflow when casting to u32". -/
  | asU32Overflow
  /-- `Result::unwrap` of an `Err`. -/
  | unwrapErr
  /-- `U256`'s `pow`, `*` or `+` past `U256::MAX`: "arithmetic operation overflow". -/
  | arithmeticOverflow
  /-- `Decimal`'s `*`: "Multiplication overflowed". -/
  | multiplicationOverflowed
  /-- `Decimal::new` past the precision. -/
  | scaleExceedsPrecision
  /-- `U256::from` a negative `i64`: "Unsigned integer can't be created from negative
      value". -/
  | negativeToUnsigned
  /-- `.expect("pubkey")`. -/
  | expectPubkey
  deriving DecidableEq, Repr

/-- `PrecompileResult`: the output bytes, or the panic that aborts the execution. -/
abbrev PrecompileResult := Except Panic (List UInt8)

/-- A library call that panics where it answers `none`. -/
def orPanic {α : Type} (p : Panic) : Option α → Except Panic α
  | some a => .ok a
  | none => .error p

/-- `success_precompile_output`. -/
def successPrecompileOutput (token : Token) : List UInt8 := encode [.bool true, token]

/-- `failure_precompile_output`. -/
def failurePrecompileOutput (token : Token) : List UInt8 := encode [.bool false, token]

/-! ## 1. Numbers from text -/

/-- The arm of `parse_decimal` for a string that `from_str` reads: the digits of the
    integer part times `10 ^ decimals`, plus the digits of the fraction times
    `10 ^ decimals`. -/
def scaleDecimal (lib : Decimal.Lib) (decimal : Decimal) (decimals : ℕ) : PrecompileResult := do
  let integerPart := decimal.trunc
  let fractionalPart := decimal.fract
  let integerString := integerPart.toString
  let integerValue ← orPanic .unwrapErr (U256.fromDecStr integerString).toOption
  let scale ← orPanic .arithmeticOverflow (Word.checkedPow 256 10 decimals)
  let integerU256 ← orPanic .arithmeticOverflow (Word.checkedMul 256 integerValue scale)
  -- `10_i64.pow(decimals)` wraps in the release build
  let factor ← orPanic .scaleExceedsPrecision
    (Decimal.new (Word.toSigned 64 (Word.wrappingPow 64 10 decimals)) 0)
  let product ← orPanic .multiplicationOverflowed (lib.mul fractionalPart factor)
  let fractionalString := product.normalize.toString
  let fractionalU256 ← orPanic .unwrapErr (U256.fromDecStr fractionalString).toOption
  let value ← orPanic .arithmeticOverflow (Word.checkedAdd 256 integerU256 fractionalU256)
  return successPrecompileOutput (.uint value)

/-- `parse_decimal(string, uint8)`: the decimal string scaled by `10 ^ decimals`. -/
def parseDecimal (lib : Decimal.Lib) (input : List UInt8) : PrecompileResult := do
  match decode [.string, .uint 8] input with
  | .error _ => return failurePrecompileOutput (.uint 0)
  | .ok decoded =>
    let stringValue := decoded[0]?.bind Token.intoString
    -- `.map(|v| v.as_u32()).unwrap_or(0)`, before the string is looked at
    let decimals ← match decoded[1]?.bind Token.intoUint with
      | some v => orPanic .asU32Overflow (U256.asU32 v)
      | none => pure 0
    match stringValue with
    | none => return failurePrecompileOutput (.uint 0)
    | some s =>
      match lib.fromStr s with
      | none => return failurePrecompileOutput (.uint 0)
      | some decimal => scaleDecimal lib decimal decimals

/-- `parse_int(string)`. -/
def parseInt (input : List UInt8) : PrecompileResult := do
  match decode [.string] input with
  | .error _ => return failurePrecompileOutput (.uint 0)
  | .ok decoded =>
    match decoded[0]?.bind Token.intoString with
    | none => return failurePrecompileOutput (.uint 0)
    | some v =>
      match U256.fromDecStr v with
      | .error _ => return failurePrecompileOutput (.uint 0)
      | .ok n => return successPrecompileOutput (.uint n)

/-- `hex_to_number(string)`: past a leading `0x`, which `from_str_radix` would strip
    again. -/
def hexToNumber (input : List UInt8) : PrecompileResult := do
  match decode [.string] input with
  | .error _ => return failurePrecompileOutput (.uint 0)
  | .ok decoded =>
    match decoded[0]?.bind Token.intoString with
    | none => return failurePrecompileOutput (.uint 0)
    | some s =>
      let begin := if s.take 2 = ascii "0x" then 2 else 0
      match U256.fromHexStr (s.drop begin) with
      | none => return failurePrecompileOutput (.uint 0)
      | some n => return successPrecompileOutput (.uint n)

/-- `to_hex(bytes)`. -/
def toHex (input : List UInt8) : PrecompileResult := do
  match decode [.bytes] input with
  | .error _ => return failurePrecompileOutput (.string [])
  | .ok decoded =>
    match decoded[0]?.bind Token.intoBytes with
    | none => return failurePrecompileOutput (.string [])
    | some bytes => return successPrecompileOutput (.string (ascii "0x" ++ Hex.encode bytes))

/-! ## 2. `identity_to_string` -/

/-- What other crates compute for `identity_to_string`: the SS58 registry's prefix for a
    network name, BLAKE2b-512, and the `bitcoin` crate's parsing of a public key from hex
    and the addresses of one (`none` where `Address::p2wpkh` or `p2shwpkh` errs). -/
structure IdentityCodecs (PublicKey : Type) where
  ss58Prefix : List UInt8 → Option ℕ
  blake2b512 : List UInt8 → { digest : List UInt8 // digest.length = 64 }
  pubkeyFromStr : List UInt8 → Option PublicKey
  p2tr : PublicKey → List UInt8
  p2pkh : PublicKey → List UInt8
  p2shwpkh : PublicKey → Option (List UInt8)
  p2wpkh : PublicKey → Option (List UInt8)
  p2wsh : List UInt8 → List UInt8

section Identity

variable {PublicKey : Type} (codecs : IdentityCodecs PublicKey)

/-- `ss58_address_of`: the prefix in one byte below 64 and in two below 16384, the public
    key, and the first two bytes of the hash of both after `SS58PRE`, in base58. -/
def ss58AddressOf (publicKey network : List UInt8) : Except Unit (List UInt8) := do
  let pfx ← match codecs.ss58Prefix network with
    | some p => pure p
    | none => throw ()
  let bytes ←
    if pfx < 64 then pure [pfx.toUInt8]
    else if pfx < 16384 then
      let first := (pfx.toUInt8 &&& 0b11111100) >>> 2
      let second := (pfx >>> 8).toUInt8 ||| ((pfx.toUInt8 &&& 0b11) <<< 6)
      pure [first ||| 0b01000000, second]
    else throw ()
  let bytes := bytes ++ publicKey
  let digest := codecs.blake2b512 (ascii "SS58PRE" ++ bytes)
  return Base58.encode (bytes ++ digest.1.take 2)

/-- `web3_network_to_chain`. -/
def web3NetworkToChain (network : ℕ) : Option (List UInt8) :=
  (Web3Network.fromCode network).map fun n => ascii n.getName

/-- `pubkey_to_address`: the key parsed with `expect("pubkey")` for all but `P2wsh`,
    whose script is the hex string's bytes. -/
def pubkeyToAddress (network : ℕ) (pubkey : List UInt8) : Except Panic (List UInt8) :=
  match network with
  | 9 => do
    let key ← orPanic .expectPubkey (codecs.pubkeyFromStr pubkey)
    return codecs.p2tr key
  | 10 => do
    let key ← orPanic .expectPubkey (codecs.pubkeyFromStr pubkey)
    return codecs.p2pkh key
  | 11 => do
    let key ← orPanic .expectPubkey (codecs.pubkeyFromStr pubkey)
    return (codecs.p2shwpkh key).getD []
  | 12 => do
    let key ← orPanic .expectPubkey (codecs.pubkeyFromStr pubkey)
    return (codecs.p2wpkh key).getD []
  | 13 => return codecs.p2wsh pubkey
  | _ => return []

/-- The codes of the EVM networks. -/
def evmCodes : List ℕ :=
  [Web3Network.ethereum.getCode, Web3Network.bsc.getCode, Web3Network.polygon.getCode,
    Web3Network.arbitrum.getCode, Web3Network.combo.getCode]

/-- `identity_to_string(uint32, bytes)`: an identity's address as its network writes it. -/
def identityToString (input : List UInt8) : PrecompileResult := do
  match decode [.uint 32, .bytes] input with
  | .error _ => return failurePrecompileOutput (.string [])
  | .ok decoded =>
    -- `.map(|t| t.as_u32() as u8)`
    let networkType ← match decoded[0]?.bind Token.intoUint with
      | some t => do
        let n ← orPanic .asU32Overflow (U256.asU32 t)
        pure (some (n % 256))
      | none => pure none
    let identityValue := decoded[1]?.bind Token.intoBytes
    match networkType, identityValue with
    | some n, some v =>
      if n ≤ Web3Network.substrateTestnet.getCode then
        match web3NetworkToChain n with
        | none => return failurePrecompileOutput (.string [])
        | some network =>
          match ss58AddressOf codecs v network with
          | .error _ => return failurePrecompileOutput (.string [])
          | .ok s => return successPrecompileOutput (.string s)
      else if n ∈ evmCodes then
        return successPrecompileOutput (.string (ascii "0x" ++ Hex.encode v))
      else if Web3Network.bitcoinP2tr.getCode ≤ n ∧ n ≤ Web3Network.bitcoinP2wsh.getCode then
        let address ← pubkeyToAddress codecs n (Hex.encode v)
        return successPrecompileOutput (.string address)
      else if n = Web3Network.solana.getCode then
        return successPrecompileOutput (.string (Base58.encode v))
      else return failurePrecompileOutput (.string [])
    | _, _ => return failurePrecompileOutput (.string [])

end Identity

/-! ## 3. JSON -/

/-- What `serde_json` computes for the JSON precompiles: parsing, `Value::pointer`, and the
    reads `as_str`, `as_i64`, `as_bool` and `as_array` of a value. -/
structure JsonCodecs (Value : Type) where
  fromStr : List UInt8 → Option Value
  pointer : Value → List UInt8 → Option Value
  asStr : Value → Option (List UInt8)
  asI64 : Value → Option ℤ
  asBool : Value → Option Bool
  asArray : Value → Option (List Value)

section Json

variable {Value : Type} (json : JsonCodecs Value)

/-- The body of the `json_get_fn!` macro: decode the JSON and the pointer (unwrapped: the
    code calls it safe), parse, point, read with `parse`, and make the token with
    `token`; `default` is the failure's token. -/
def jsonGetFn {α : Type} (parse : Value → Option α) (token : α → Except Panic Token)
    (default : Token) (input : List UInt8) : PrecompileResult := do
  match decode [.string, .string] input with
  | .error _ => return failurePrecompileOutput default
  | .ok decoded =>
    let jsonText ← orPanic .unwrapErr (decoded[0]?.bind Token.intoString)
    let pointer ← orPanic .unwrapErr (decoded[1]?.bind Token.intoString)
    match json.fromStr jsonText with
    | none => return failurePrecompileOutput default
    | some value =>
      match json.pointer value pointer with
      | none => return failurePrecompileOutput default
      | some result =>
        match parse result with
        | none => return failurePrecompileOutput default
        | some v => return successPrecompileOutput (← token v)

/-- `json_get_string`: `json_get_fn!(json_get_string, String, as_str)`. -/
def jsonGetString : List UInt8 → PrecompileResult :=
  jsonGetFn json json.asStr (fun v => pure (.string v)) (.string [])

/-- `json_get_bool`: `json_get_fn!(json_get_bool, Bool, as_bool)`. -/
def jsonGetBool : List UInt8 → PrecompileResult :=
  jsonGetFn json json.asBool (fun v => pure (.bool v)) (.bool false)

/-- `json_get_i64`: `json_get_fn!(json_get_i64, Uint, as_i64)`; the token is
    `Token::Uint(v.into())`, and `U256::from` an `i64` panics on a negative one. -/
def jsonGetI64 : List UInt8 → PrecompileResult :=
  jsonGetFn json json.asI64
    (fun v => if v < 0 then throw .negativeToUnsigned else pure (.uint v.toNat)) (.uint 0)

/-- `get_array_len(string, string)`: the length of the array at the pointer. Its failure
    token is a `String` when the input does not decode and an `Int` after. -/
def getArrayLen (input : List UInt8) : PrecompileResult := do
  match decode [.string, .string] input with
  | .error _ => return failurePrecompileOutput (.string [])
  | .ok decoded =>
    let jsonText ← orPanic .unwrapErr (decoded[0]?.bind Token.intoString)
    let pointer ← orPanic .unwrapErr (decoded[1]?.bind Token.intoString)
    match json.fromStr jsonText with
    | none => return failurePrecompileOutput (.int 0)
    | some value =>
      match json.pointer value pointer with
      | none => return failurePrecompileOutput (.int 0)
      | some v =>
        match json.asArray v with
        | none => return failurePrecompileOutput (.int 0)
        | some arr => return successPrecompileOutput (.int arr.length)

end Json

/-! ## 4. `parse_decimal` on encoded arguments -/

theorem decode_string_uint {s : List UInt8} {d : ℕ} (hs : s.length < 2 ^ 31) (hd : d < 2 ^ 256)
    (bits : ℕ) :
    decode [.string, .uint bits] (encode [.string s, .uint d]) =
      .ok [.string (Utf8.lossy s), .uint d] := by
  have hlen : (encode [.string s, .uint d]).length < 2 ^ 32 := by
    have := length_padded_lt s
    simp only [length_encode, List.flatMap_cons, List.flatMap_nil, tail, List.length_append,
      length_word, List.length_cons, List.length_nil, List.append_nil] at this ⊢
    omega
  exact decode_encode (.cons trivial (.cons hd .nil)) hlen

/-- `parse_decimal` of an encoded string and `decimals` word: the word must fit a `u32`,
    and a string that `from_str` reads is scaled. -/
theorem parseDecimal_encode (lib : Decimal.Lib) {s : List UInt8} {d : ℕ} (hs : s.length < 2 ^ 31)
    (hd : d < 2 ^ 256) :
    parseDecimal lib (encode [.string s, .uint d]) =
      if d < 2 ^ 32 then
        match lib.fromStr (Utf8.lossy s) with
        | none => .ok (failurePrecompileOutput (.uint 0))
        | some decimal => scaleDecimal lib decimal d
      else .error .asU32Overflow := by
  simp only [parseDecimal, decode_string_uint hs hd, List.getElem?_cons_zero,
    List.getElem?_cons_succ, Option.bind_some, Token.intoString, Token.intoUint, U256.asU32]
  by_cases hw : d < 2 ^ 32
  · simp only [if_pos hw, orPanic, bind, Except.bind]
    rfl
  · simp only [if_neg hw, orPanic, bind, Except.bind]

/-- `parse_decimal` of a short plain decimal string: `from_str` reads it exactly, and the
    arm that scales it runs. -/
theorem parseDecimal_of_plain {lib : Decimal.Lib} (hlib : lib.Lawful) {s : List UInt8}
    {neg : Bool} {value scale decimals : ℕ} (hlen : s.length < 18)
    (hplain : Decimal.plain s = some (neg, value, scale)) (hd : decimals < 2 ^ 32) :
    ∃ decimal : Decimal, decimal.negative = neg ∧ decimal.mantissa = value ∧
      decimal.scale = scale ∧
      parseDecimal lib (encode [.string s, .uint decimals]) = scaleDecimal lib decimal decimals := by
  obtain ⟨decimal, hdec, hneg, hval, hsc⟩ := hlib.fromStr_plain s neg value scale hlen hplain
  refine ⟨decimal, hneg, hval, hsc, ?_⟩
  -- a plain string is ASCII, so it decodes as it is
  rw [parseDecimal_encode lib (by omega) (Nat.lt_trans hd (by decide)), if_pos hd,
    Utf8.lossy_of_ascii (Decimal.plain_ascii hplain), hdec]

/-- A non-negative decimal at scale `0` prints as its digits, which `from_dec_str` reads
    back. -/
theorem fromDecStr_of_scale_zero {z : Decimal} (hneg : z.negative = false) (hs : z.scale = 0) :
    U256.fromDecStr z.toString = .ok z.mantissa := by
  simp only [Decimal.toString_of_scale_zero hs, hneg, Bool.false_eq_true, ↓reduceIte,
    List.nil_append]
  exact U256.fromDecStr_decimal (Nat.lt_trans z.mantissa_lt (by decide))

theorem fromDecStr_trunc {decimal : Decimal} (hneg : decimal.negative = false) :
    U256.fromDecStr decimal.trunc.toString = .ok (decimal.mantissa / 10 ^ decimal.scale) :=
  fromDecStr_of_scale_zero hneg rfl

/-- `Decimal::new(10_i64.pow(decimals), 0)` up to `10 ^ 18`, where the power is an `i64`. -/
theorem new_wrappingPow_of_le {decimals : ℕ} (hd : decimals ≤ 18) :
    ∃ f : Decimal, Decimal.new (Word.toSigned 64 (Word.wrappingPow 64 10 decimals)) 0 = some f ∧
      f.negative = false ∧ f.mantissa = 10 ^ decimals ∧ f.scale = 0 := by
  have h63 : 10 ^ decimals < 2 ^ 63 :=
    Nat.lt_of_le_of_lt (Nat.pow_le_pow_right (by decide) hd) (by decide)
  have hfits : 10 ^ decimals < 2 ^ 96 := Nat.lt_trans h63 (by decide)
  refine ⟨⟨false, 10 ^ decimals, 0, hfits, Nat.zero_le _⟩, ?_, rfl, rfl, rfl⟩
  rw [Word.wrappingPow_of_lt (Nat.lt_trans h63 (by decide)), Word.toSigned, if_pos h63]
  simp only [Decimal.new, Int.natAbs_natCast, Nat.zero_le]
  rw [dif_pos ⟨hfits, by decide⟩]
  rfl

/-- From `decimals = 64` on, `10_i64.pow(decimals)` wraps to `0` in the release build: the
    power is a multiple of `2 ^ 64`. -/
theorem new_wrappingPow_of_ge {decimals : ℕ} (hd : 64 ≤ decimals) :
    Decimal.new (Word.toSigned 64 (Word.wrappingPow 64 10 decimals)) 0 = some Decimal.zero := by
  have hwrap : Word.wrappingPow 64 10 decimals = 0 := by
    apply Nat.mod_eq_zero_of_dvd
    calc 2 ^ 64 ∣ 2 ^ decimals := Nat.pow_dvd_pow 2 hd
      _ ∣ 2 ^ decimals * 5 ^ decimals := Dvd.intro _ rfl
      _ = 10 ^ decimals := by rw [← Nat.mul_pow]
  rw [hwrap]
  rfl

/-- Where `10 ^ decimals` wraps past `i64::MAX`, the factor is the negative `i64` with those
    bits: `2 ^ 64` less the wrapped power, with the sign set. -/
theorem new_wrappingPow_of_neg {decimals : ℕ} (hneg : 2 ^ 63 ≤ 10 ^ decimals % 2 ^ 64) :
    ∃ f : Decimal, Decimal.new (Word.toSigned 64 (Word.wrappingPow 64 10 decimals)) 0 = some f ∧
      f.negative = true ∧ f.mantissa = 2 ^ 64 - 10 ^ decimals % 2 ^ 64 := by
  have hlt : 10 ^ decimals % 2 ^ 64 < 2 ^ 64 := Nat.mod_lt _ (Nat.pow_pos (by decide))
  have hsigned : Word.toSigned 64 (Word.wrappingPow 64 10 decimals) =
      ((10 ^ decimals % 2 ^ 64 : ℕ) : ℤ) - 2 ^ 64 := if_neg (Nat.not_lt.2 hneg)
  have habs : (((10 ^ decimals % 2 ^ 64 : ℕ) : ℤ) - 2 ^ 64).natAbs =
      2 ^ 64 - 10 ^ decimals % 2 ^ 64 := by omega
  have hfits : 2 ^ 64 - 10 ^ decimals % 2 ^ 64 < 2 ^ 96 := by omega
  refine ⟨⟨true, 2 ^ 64 - 10 ^ decimals % 2 ^ 64, 0, hfits, Nat.zero_le _⟩, ?_, rfl, rfl⟩
  rw [hsigned, Decimal.new, dif_pos ⟨habs ▸ hfits, by decide⟩]
  simp only [habs, Option.some.injEq, Decimal.mk.injEq, decide_eq_true_eq, and_true]
  omega

/-- Up to `decimals = 18`, the integer part of a decimal times `10 ^ decimals` fits in
    `U256`. -/
theorem trunc_mul_pow_lt (decimal : Decimal) {decimals : ℕ} (hd : decimals ≤ 18) :
    decimal.mantissa / 10 ^ decimal.scale * 10 ^ decimals < 2 ^ 256 :=
  calc decimal.mantissa / 10 ^ decimal.scale * 10 ^ decimals
      ≤ decimal.mantissa * 10 ^ 18 :=
        Nat.mul_le_mul (Nat.div_le_self _ _) (Nat.pow_le_pow_right (by decide) hd)
    _ < 2 ^ 96 * 10 ^ 18 := Nat.mul_lt_mul_of_pos_right decimal.mantissa_lt (by decide)
    _ < 2 ^ 256 := by decide

/-- The digits after the point times `10 ^ decimals` fit the 96 bits of a mantissa while
    `decimals` and the places after the point add up to at most 28. -/
theorem fract_mul_pow_lt (decimal : Decimal) {decimals : ℕ}
    (hsum : decimals + decimal.scale ≤ 28) :
    decimal.mantissa % 10 ^ decimal.scale * 10 ^ decimals < 2 ^ 96 :=
  calc decimal.mantissa % 10 ^ decimal.scale * 10 ^ decimals
      < 10 ^ decimal.scale * 10 ^ decimals :=
        Nat.mul_lt_mul_of_pos_right (Nat.mod_lt _ (Nat.pow_pos (by decide))) (Nat.pow_pos (by decide))
    _ = 10 ^ (decimals + decimal.scale) := by rw [← Nat.pow_add, Nat.add_comm]
    _ ≤ 10 ^ 28 := Nat.pow_le_pow_right (by decide) hsum
    _ < 2 ^ 96 := by decide

/-- The integer half of the arm, for a non-negative decimal whose integer part times
    `10 ^ decimals` fits in `U256`: what is left is the fraction half. -/
theorem scaleDecimal_of_integer (lib : Decimal.Lib) {decimal : Decimal}
    (hneg : decimal.negative = false) {decimals : ℕ} (hpow : 10 ^ decimals < 2 ^ 256)
    (hint : decimal.mantissa / 10 ^ decimal.scale * 10 ^ decimals < 2 ^ 256) :
    scaleDecimal lib decimal decimals = (do
      let factor ← orPanic .scaleExceedsPrecision
        (Decimal.new (Word.toSigned 64 (Word.wrappingPow 64 10 decimals)) 0)
      let product ← orPanic .multiplicationOverflowed (lib.mul decimal.fract factor)
      let fractionalU256 ← orPanic .unwrapErr (U256.fromDecStr product.normalize.toString).toOption
      let value ← orPanic .arithmeticOverflow
        (Word.checkedAdd 256 (decimal.mantissa / 10 ^ decimal.scale * 10 ^ decimals) fractionalU256)
      return successPrecompileOutput (.uint value)) := by
  have hpow' : Word.checkedPow 256 10 decimals = some (10 ^ decimals) := if_pos hpow
  have hmul : Word.checkedMul 256 (decimal.mantissa / 10 ^ decimal.scale) (10 ^ decimals) =
      some (decimal.mantissa / 10 ^ decimal.scale * 10 ^ decimals) := if_pos hint
  simp only [scaleDecimal, fromDecStr_trunc hneg, hpow', hmul, Except.toOption, orPanic, bind,
    Except.bind]

/-- What the arm computes of a non-negative decimal when the fraction times the factor is a
    whole number: the integer part times `10 ^ decimals`, plus that number. -/
theorem scaleDecimal_of_factor {lib : Decimal.Lib} (hlib : lib.Lawful) {decimal f : Decimal}
    (hneg : decimal.negative = false) {decimals : ℕ}
    (hf : Decimal.new (Word.toSigned 64 (Word.wrappingPow 64 10 decimals)) 0 = some f)
    (hfneg : f.negative = false) (hfs : f.scale = 0) (hpow : 10 ^ decimals < 2 ^ 256)
    (hint : decimal.mantissa / 10 ^ decimal.scale * 10 ^ decimals < 2 ^ 256)
    (hprod : decimal.mantissa % 10 ^ decimal.scale * f.mantissa < 2 ^ 96)
    (hdvd : 10 ^ decimal.scale ∣ decimal.mantissa % 10 ^ decimal.scale * f.mantissa)
    (hsum : decimal.mantissa / 10 ^ decimal.scale * 10 ^ decimals +
      decimal.mantissa % 10 ^ decimal.scale * f.mantissa / 10 ^ decimal.scale < 2 ^ 256) :
    scaleDecimal lib decimal decimals =
      .ok (successPrecompileOutput (.uint (decimal.mantissa / 10 ^ decimal.scale * 10 ^ decimals +
        decimal.mantissa % 10 ^ decimal.scale * f.mantissa / 10 ^ decimal.scale))) := by
  -- the product of the fraction and the factor prints as the whole number it is
  obtain ⟨p, hp, hpstr⟩ : ∃ p, lib.mul decimal.fract f = some p ∧
      U256.fromDecStr p.normalize.toString =
        .ok (decimal.mantissa % 10 ^ decimal.scale * f.mantissa / 10 ^ decimal.scale) := by
    by_cases hzero : decimal.mantissa % 10 ^ decimal.scale * f.mantissa = 0
    · -- a zero factor or a zero fraction: `*` answers `ZERO`
      refine ⟨Decimal.zero, hlib.mul_zero _ _ (Nat.mul_eq_zero.1 hzero), ?_⟩
      rw [hzero, Nat.zero_div]
      rfl
    · obtain ⟨hfrac, hfm⟩ := Nat.mul_ne_zero_iff.1 hzero
      obtain ⟨z, hz, hzneg, hzm, hzs⟩ := hlib.mul_exact decimal.fract f hfrac hfm hprod
        (by rw [hfs]; exact decimal.scale_le)
      have hzs' : z.scale = decimal.scale := by rw [hzs, hfs]; rfl
      obtain ⟨hns, hnm⟩ := Decimal.normalize_of_dvd (d := z) (by rw [hzm, hzs']; exact hdvd)
      refine ⟨z, hz, ?_⟩
      rw [fromDecStr_of_scale_zero (Decimal.normalize_negative (by simp [hzneg, Decimal.fract, hneg, hfneg]))
        hns, hnm, hzm, hzs']
      rfl
  have hadd : Word.checkedAdd 256 (decimal.mantissa / 10 ^ decimal.scale * 10 ^ decimals)
      (decimal.mantissa % 10 ^ decimal.scale * f.mantissa / 10 ^ decimal.scale) =
      some (decimal.mantissa / 10 ^ decimal.scale * 10 ^ decimals +
        decimal.mantissa % 10 ^ decimal.scale * f.mantissa / 10 ^ decimal.scale) := if_pos hsum
  rw [scaleDecimal_of_integer lib hneg hpow hint]
  simp only [hf, hp, hpstr, hadd, Except.toOption, orPanic, bind, Except.bind, pure, Except.pure]

/-- **The arm is exact while `10 ^ decimals` is an `i64`.** A non-negative decimal with at
    most `decimals` places, `decimals ≤ 18`, comes out as its value times `10 ^ decimals`
    (the bound on `decimals` plus the scale keeps the product inside the 96 bits where `*`
    is exact). -/
theorem scaleDecimal_exact {lib : Decimal.Lib} (hlib : lib.Lawful) {decimal : Decimal}
    (hneg : decimal.negative = false) {decimals : ℕ} (hd : decimals ≤ 18)
    (hscale : decimal.scale ≤ decimals) (hsum : decimals + decimal.scale ≤ 28) :
    scaleDecimal lib decimal decimals =
      .ok (successPrecompileOutput (.uint (decimal.mantissa * 10 ^ (decimals - decimal.scale)))) := by
  obtain ⟨f, hf, hfneg, hfm, hfs⟩ := new_wrappingPow_of_le hd
  have hpow18 : 10 ^ decimals ≤ 10 ^ 18 := Nat.pow_le_pow_right (by decide) hd
  -- `10 ^ decimals` is `10 ^ scale` times the rest
  have hsplit : 10 ^ decimals = 10 ^ decimal.scale * 10 ^ (decimals - decimal.scale) := by
    rw [← Nat.pow_add, Nat.add_sub_cancel' hscale]
  have hfrac : decimal.mantissa % 10 ^ decimal.scale * 10 ^ decimals / 10 ^ decimal.scale =
      decimal.mantissa % 10 ^ decimal.scale * 10 ^ (decimals - decimal.scale) := by
    rw [hsplit, Nat.mul_left_comm, Nat.mul_div_cancel_left _ (Nat.pow_pos (by decide))]
  have hvalue : decimal.mantissa / 10 ^ decimal.scale * 10 ^ decimals +
      decimal.mantissa % 10 ^ decimal.scale * 10 ^ (decimals - decimal.scale) =
      decimal.mantissa * 10 ^ (decimals - decimal.scale) := by
    calc decimal.mantissa / 10 ^ decimal.scale * 10 ^ decimals +
          decimal.mantissa % 10 ^ decimal.scale * 10 ^ (decimals - decimal.scale)
        = (10 ^ decimal.scale * (decimal.mantissa / 10 ^ decimal.scale) +
            decimal.mantissa % 10 ^ decimal.scale) * 10 ^ (decimals - decimal.scale) := by
          rw [hsplit]; ring
      _ = decimal.mantissa * 10 ^ (decimals - decimal.scale) := by rw [Nat.div_add_mod]
  have hbound : decimal.mantissa * 10 ^ (decimals - decimal.scale) < 2 ^ 256 :=
    calc decimal.mantissa * 10 ^ (decimals - decimal.scale)
        ≤ decimal.mantissa * 10 ^ 18 :=
          Nat.mul_le_mul_left _ (Nat.pow_le_pow_right (by decide) (by omega))
      _ < 2 ^ 96 * 10 ^ 18 := Nat.mul_lt_mul_of_pos_right decimal.mantissa_lt (by decide)
      _ < 2 ^ 256 := by decide
  have hdvd : 10 ^ decimal.scale ∣ decimal.mantissa % 10 ^ decimal.scale * 10 ^ decimals :=
    Dvd.dvd.mul_left (Nat.pow_dvd_pow 10 hscale) _
  rw [scaleDecimal_of_factor hlib hneg hf hfneg hfs (Nat.lt_of_le_of_lt hpow18 (by decide))
    (trunc_mul_pow_lt decimal hd) (hfm ▸ fract_mul_pow_lt decimal hsum) (hfm ▸ hdvd)
    (by rw [hfm, hfrac, hvalue]; exact hbound), hfm, hfrac, hvalue]

/-- `1.25`: mantissa `125` at two places. -/
def oneAndAQuarter : Decimal := ⟨false, 125, 2, by decide, by decide⟩

theorem scaleDecimal_exact_at_six :
    scaleDecimal Decimal.exactLib oneAndAQuarter 6 = .ok (successPrecompileOutput (.uint 1250000)) :=
  scaleDecimal_exact Decimal.exactLib_lawful rfl (by decide) (by decide) (by decide)

/-- From `decimals = 64` on the factor has wrapped to `0`, and the fraction is lost: the arm
    answers the integer part times `10 ^ decimals` alone. -/
theorem scaleDecimal_of_wrapped {lib : Decimal.Lib} (hlib : lib.Lawful) {decimal : Decimal}
    (hneg : decimal.negative = false) {decimals : ℕ} (hd : 64 ≤ decimals)
    (hpow : 10 ^ decimals < 2 ^ 256)
    (hint : decimal.mantissa / 10 ^ decimal.scale * 10 ^ decimals < 2 ^ 256) :
    scaleDecimal lib decimal decimals =
      .ok (successPrecompileOutput (.uint (decimal.mantissa / 10 ^ decimal.scale * 10 ^ decimals))) := by
  rw [scaleDecimal_of_factor hlib hneg (new_wrappingPow_of_ge hd) rfl rfl hpow hint
    (by simp [Decimal.zero]) (by simp [Decimal.zero]) (by simpa [Decimal.zero] using hint)]
  simp [Decimal.zero]

/-- Where `10_i64.pow(decimals)` wraps to a negative `i64` (first at `decimals = 19`), a
    non-zero fraction times it is negative, prints with a `-`, and the `unwrap` of
    `from_dec_str` panics. -/
theorem scaleDecimal_of_negative_factor {lib : Decimal.Lib} (hlib : lib.Lawful)
    {decimal f : Decimal} (hneg : decimal.negative = false) {decimals : ℕ}
    (hf : Decimal.new (Word.toSigned 64 (Word.wrappingPow 64 10 decimals)) 0 = some f)
    (hfneg : f.negative = true) (hpow : 10 ^ decimals < 2 ^ 256)
    (hint : decimal.mantissa / 10 ^ decimal.scale * 10 ^ decimals < 2 ^ 256)
    (hfrac : decimal.mantissa % 10 ^ decimal.scale ≠ 0)
    (hprod : decimal.mantissa % 10 ^ decimal.scale * f.mantissa < 2 ^ 96) :
    scaleDecimal lib decimal decimals = .error .unwrapErr := by
  -- a negative factor is a non-zero one, at scale `0`
  have hfm : f.mantissa ≠ 0 ∧ f.scale = 0 := by
    simp only [Decimal.new] at hf
    split at hf
    · cases hf
      simp only [decide_eq_true_eq] at hfneg
      exact ⟨Int.natAbs_ne_zero.2 (by omega), rfl⟩
    · cases hf
  obtain ⟨z, hz, hzneg, hzm, -⟩ := hlib.mul_exact decimal.fract f hfrac hfm.1 hprod
    (by rw [hfm.2]; exact decimal.scale_le)
  have hminus : z.normalize.negative = true := by
    rw [Decimal.normalize_negative_of_ne_zero (by rw [hzm]; exact Nat.mul_ne_zero hfrac hfm.1),
      hzneg]
    simp [Decimal.fract, hneg, hfneg]
  obtain ⟨e, he⟩ := U256.fromDecStr_error_of_mem (Decimal.mem_toString_of_negative hminus)
    (by decide)
  rw [scaleDecimal_of_integer lib hneg hpow hint]
  simp only [hf, hz, he, Except.toOption, orPanic, bind, Except.bind]

/-- A negative decimal panics: its integer part prints with a `-`, which
    `U256::from_dec_str` refuses, and the `unwrap` panics. -/
theorem scaleDecimal_negative (lib : Decimal.Lib) {decimal : Decimal} (hneg : decimal.negative = true)
    (decimals : ℕ) : scaleDecimal lib decimal decimals = .error .unwrapErr := by
  obtain ⟨e, he⟩ := U256.fromDecStr_error_of_mem
    (Decimal.mem_toString_of_negative (d := decimal.trunc) hneg) (by decide)
  simp only [scaleDecimal, he, Except.toOption, orPanic, bind, Except.bind]

/-- A fraction with more places than `decimals` panics: the fraction times `10 ^ decimals`
    still has a point when printed, which `U256::from_dec_str` refuses. The bounds keep
    `10 ^ decimals` an `i64` and the product inside the 96 bits where `*` is exact. -/
theorem scaleDecimal_fraction_too_long {lib : Decimal.Lib} (hlib : lib.Lawful) {decimal : Decimal}
    (hneg : decimal.negative = false) {decimals : ℕ} (hd : decimals ≤ 18)
    (hscale : decimals + decimal.scale ≤ 28)
    (hfrac : decimal.mantissa * 10 ^ decimals % 10 ^ decimal.scale ≠ 0) :
    scaleDecimal lib decimal decimals = .error .unwrapErr := by
  obtain ⟨f, hf, -, hfm, hfs⟩ := new_wrappingPow_of_le hd
  -- the fraction times the factor, exactly
  have hfne : decimal.mantissa % 10 ^ decimal.scale ≠ 0 := by
    intro h
    apply hfrac
    rw [Nat.mul_mod, h, Nat.zero_mul, Nat.zero_mod]
  obtain ⟨z, hz, -, hzm, hzs⟩ := hlib.mul_exact decimal.fract f hfne
    (by rw [hfm]; exact Nat.pos_iff_ne_zero.1 (Nat.pow_pos (by decide)))
    (by rw [hfm]; exact fract_mul_pow_lt decimal hscale) (by rw [hfs]; exact decimal.scale_le)
  -- the product keeps a place after the point, so its string has a `.`
  have hpoint : 0 < z.normalize.scale := by
    apply Decimal.normalize_scale_pos
    rw [hzm, hzs, hfm, hfs]
    simp only [Decimal.fract, Nat.add_zero]
    rw [Nat.mul_mod, Nat.mod_mod, ← Nat.mul_mod]
    exact hfrac
  obtain ⟨e, he⟩ := U256.fromDecStr_error_of_mem (Decimal.mem_toString_of_scale_pos hpoint)
    (by decide)
  rw [scaleDecimal_of_integer lib hneg
    (Nat.lt_of_le_of_lt (Nat.pow_le_pow_right (by decide) hd) (by decide))
    (trunc_mul_pow_lt decimal hd)]
  simp only [hf, hz, he, Except.toOption, orPanic, bind, Except.bind]

/-- **`parse_decimal` is not total.** For any `from_str` and `*` that keep the laws, it
    panics on an encoded plain decimal with more places after the point than `decimals`
    (where `10 ^ decimals` is an `i64` and the scaled fraction fits 96 bits), on an encoded
    decimal at most `-1`, and on any string with a `decimals` word past `u32::MAX`. -/
theorem parseDecimal_panics (lib : Decimal.Lib) (hlib : lib.Lawful) :
    (∀ (s : List UInt8) (value scale decimals : ℕ), s.length < 18 →
      Decimal.plain s = some (false, value, scale) → decimals ≤ 18 → decimals + scale ≤ 28 →
      value * 10 ^ decimals % 10 ^ scale ≠ 0 →
      parseDecimal lib (encode [.string s, .uint decimals]) = .error .unwrapErr) ∧
    (∀ (s : List UInt8) (value scale decimals : ℕ), s.length < 18 →
      Decimal.plain s = some (true, value, scale) → 10 ^ scale ≤ value → decimals < 2 ^ 32 →
      parseDecimal lib (encode [.string s, .uint decimals]) = .error .unwrapErr) ∧
    (∀ (s : List UInt8) (decimals : ℕ), s.length < 2 ^ 31 → 2 ^ 32 ≤ decimals →
      decimals < 2 ^ 256 →
      parseDecimal lib (encode [.string s, .uint decimals]) = .error .asU32Overflow) := by
  refine ⟨?_, ?_, ?_⟩
  · intro s value scale decimals hlen hplain hd hscale hfrac
    have hd32 : decimals < 2 ^ 32 := by omega
    obtain ⟨decimal, hneg, hval, hsc, heq⟩ := parseDecimal_of_plain hlib hlen hplain hd32
    rw [heq]
    subst hval hsc
    exact scaleDecimal_fraction_too_long hlib hneg hd hscale hfrac
  · intro s value scale decimals hlen hplain _ hd
    obtain ⟨decimal, hneg, -, -, heq⟩ := parseDecimal_of_plain hlib hlen hplain hd
    rw [heq]
    exact scaleDecimal_negative lib hneg decimals
  · intro s decimals hlen hwide hd
    rw [parseDecimal_encode lib hlen hd, if_neg (by omega)]

theorem parseDecimal_panics_on_half :
    parseDecimal Decimal.exactLib (encode [.string (ascii "0.5"), .uint 0]) = .error .unwrapErr :=
  (parseDecimal_panics Decimal.exactLib Decimal.exactLib_lawful).1 (ascii "0.5") 5 1 0
    (by decide) (by decide) (by decide) (by decide) (by decide)

/-- `10 ^ decimals` fits 256 bits only up to `decimals = 77`, well inside a `u32`. -/
theorem decimals_lt_of_pow_lt {decimals : ℕ} (hpow : 10 ^ decimals < 2 ^ 256) : decimals < 2 ^ 32 := by
  by_contra hwide
  have h78 : 10 ^ 78 ≤ 10 ^ decimals := Nat.pow_le_pow_right (by decide) (by omega)
  exact absurd (Nat.lt_of_le_of_lt h78 hpow) (by decide)

/-- `parse_decimal` loses the fraction from `decimals = 64` on: a non-negative plain decimal
    string comes out as its integer part times `10 ^ decimals`, whatever its places after
    the point, because `10_i64.pow(decimals)` has wrapped to `0`. -/
theorem parseDecimal_drops_fraction (lib : Decimal.Lib) (hlib : lib.Lawful) (s : List UInt8)
    (value scale decimals : ℕ) (hlen : s.length < 18)
    (hplain : Decimal.plain s = some (false, value, scale)) (hd : 64 ≤ decimals)
    (hpow : 10 ^ decimals < 2 ^ 256) (hint : value / 10 ^ scale * 10 ^ decimals < 2 ^ 256) :
    parseDecimal lib (encode [.string s, .uint decimals]) =
      .ok (successPrecompileOutput (.uint (value / 10 ^ scale * 10 ^ decimals))) := by
  obtain ⟨decimal, hneg, hval, hsc, heq⟩ :=
    parseDecimal_of_plain hlib hlen hplain (decimals_lt_of_pow_lt hpow)
  subst hval hsc
  rw [heq, scaleDecimal_of_wrapped hlib hneg hd hpow hint]

/-- **`parse_decimal` is wrong once `10 ^ decimals` passes `i64::MAX`.** For any `from_str` and
    `*` that keep the laws, and a non-negative plain decimal string with a non-zero fraction:
    where `10_i64.pow(decimals)` wraps to a negative `i64` (first at `decimals = 19`) and the
    scaled fraction fits 96 bits, the precompile panics; from `decimals = 64` on, where it wraps
    to `0`, it answers the integer part times `10 ^ decimals`, the fraction dropped. -/
theorem parseDecimal_wrapped_factor (lib : Decimal.Lib) (hlib : lib.Lawful) :
    (∀ (s : List UInt8) (value scale decimals : ℕ), s.length < 18 →
      Decimal.plain s = some (false, value, scale) → value % 10 ^ scale ≠ 0 →
      2 ^ 63 ≤ 10 ^ decimals % 2 ^ 64 → 10 ^ decimals < 2 ^ 256 →
      value / 10 ^ scale * 10 ^ decimals < 2 ^ 256 →
      value % 10 ^ scale * (2 ^ 64 - 10 ^ decimals % 2 ^ 64) < 2 ^ 96 →
      parseDecimal lib (encode [.string s, .uint decimals]) = .error .unwrapErr) ∧
    (∀ (s : List UInt8) (value scale decimals : ℕ), s.length < 18 →
      Decimal.plain s = some (false, value, scale) → 64 ≤ decimals →
      10 ^ decimals < 2 ^ 256 → value / 10 ^ scale * 10 ^ decimals < 2 ^ 256 →
      parseDecimal lib (encode [.string s, .uint decimals]) =
        .ok (successPrecompileOutput (.uint (value / 10 ^ scale * 10 ^ decimals)))) := by
  refine ⟨?_, parseDecimal_drops_fraction lib hlib⟩
  intro s value scale decimals hlen hplain hfrac hwrap hpow hint hprod
  obtain ⟨decimal, hneg, hval, hsc, heq⟩ :=
    parseDecimal_of_plain hlib hlen hplain (decimals_lt_of_pow_lt hpow)
  subst hval hsc
  obtain ⟨f, hf, hfneg, hfm⟩ := new_wrappingPow_of_neg hwrap
  rw [heq]
  exact scaleDecimal_of_negative_factor hlib hneg hf hfneg hpow hint hfrac (hfm ▸ hprod)

theorem parseDecimal_wrapped_factor_at_half :
    parseDecimal Decimal.exactLib (encode [.string (ascii "0.5"), .uint 19]) = .error .unwrapErr :=
  (parseDecimal_wrapped_factor Decimal.exactLib Decimal.exactLib_lawful).1 (ascii "0.5") 5 1 19
    (by decide) (by decide) (by decide) (by decide) (by decide) (by decide) (by decide)

/-! ## 5. The other precompiles on encoded arguments -/

theorem decode_uint_bytes {w : ℕ} {v : List UInt8} (hw : w < 2 ^ 256) (hv : v.length < 2 ^ 31)
    (bits : ℕ) :
    decode [.uint bits, .bytes] (encode [.uint w, .bytes v]) = .ok [.uint w, .bytes v] := by
  have hlen : (encode [.uint w, .bytes v]).length < 2 ^ 32 := by
    have := length_padded_lt v
    simp only [length_encode, List.flatMap_cons, List.flatMap_nil, tail, List.length_append,
      length_word, List.length_cons, List.length_nil, List.append_nil, List.nil_append] at this ⊢
    omega
  exact decode_encode (.cons hw (.cons trivial .nil)) hlen

theorem decode_string_string {a b : List UInt8} (ha : a.length < 2 ^ 30) (hb : b.length < 2 ^ 30) :
    decode [.string, .string] (encode [.string a, .string b]) =
      .ok [.string (Utf8.lossy a), .string (Utf8.lossy b)] := by
  have hlen : (encode [.string a, .string b]).length < 2 ^ 32 := by
    have := length_padded_lt a
    have := length_padded_lt b
    simp only [length_encode, List.flatMap_cons, List.flatMap_nil, tail, List.length_append,
      length_word, List.length_cons, List.length_nil, List.append_nil] at *
    omega
  exact decode_encode (.cons trivial (.cons trivial .nil)) hlen

/-- Codecs that know no SS58 prefix and parse no public key. -/
def noCodecs : IdentityCodecs Unit :=
  ⟨fun _ => none, fun _ => ⟨List.replicate 64 0, by simp⟩, fun _ => none, fun _ => [],
    fun _ => [], fun _ => none, fun _ => none, fun _ => []⟩

/-- What `decode` returns for two strings is two strings. -/
theorem decode_two_strings {input : List UInt8} {decoded : List Token}
    (h : decode [.string, .string] input = .ok decoded) :
    ∃ a b, decoded = [.string a, .string b] := by
  have hfits := decode_fits h
  rcases hfits with _ | ⟨hfirst, _ | ⟨hsecond, _ | _⟩⟩
  rename_i x y
  cases x <;> simp only [Fits] at hfirst
  cases y <;> simp only [Fits] at hsecond
  exact ⟨_, _, rfl⟩

section Json

variable {Value : Type} (json : JsonCodecs Value)

/-- **The JSON precompiles decode safely.** `decode` of two strings returns two strings,
    so the two `unwrap`s never panic: with a token that never panics, the precompile
    returns an output on every input. -/
theorem jsonGetFn_isOk {α : Type} (parse : Value → Option α) (token : α → Except Panic Token)
    (htoken : ∀ v, ∃ t, token v = .ok t) (default : Token) (input : List UInt8) :
    ∃ out, jsonGetFn json parse token default input = .ok out := by
  unfold jsonGetFn
  cases hdec : decode [.string, .string] input with
  | error e => exact ⟨_, rfl⟩
  | ok decoded =>
    obtain ⟨a, b, rfl⟩ := decode_two_strings hdec
    simp only [List.getElem?_cons_zero, List.getElem?_cons_succ, Option.bind_some,
      Token.intoString, orPanic, bind, Except.bind, pure, Except.pure]
    -- each arm returns an output; the last one if `token` does
    split
    · exact ⟨_, rfl⟩
    · split
      · exact ⟨_, rfl⟩
      · split
        · exact ⟨_, rfl⟩
        · rename_i v _
          obtain ⟨t, ht⟩ := htoken v
          exact ⟨_, by rw [ht]⟩

theorem jsonGetString_isOk (input : List UInt8) : ∃ out, jsonGetString json input = .ok out :=
  jsonGetFn_isOk json _ _ (fun _ => ⟨_, rfl⟩) _ input

theorem jsonGetBool_isOk (input : List UInt8) : ∃ out, jsonGetBool json input = .ok out :=
  jsonGetFn_isOk json _ _ (fun _ => ⟨_, rfl⟩) _ input

/-- A `serde_json` stand-in with one value, which reads as the integer `-1`. -/
def minusOneJson : JsonCodecs Unit :=
  ⟨fun _ => some (), fun _ _ => some (), fun _ => none, fun _ => some (-1), fun _ => none,
    fun _ => none⟩

/-- `get_array_len` never panics: its `unwrap`s are those of `jsonGetFn`. -/
theorem getArrayLen_isOk (input : List UInt8) : ∃ out, getArrayLen json input = .ok out := by
  unfold getArrayLen
  cases hdec : decode [.string, .string] input with
  | error e => exact ⟨_, rfl⟩
  | ok decoded =>
    obtain ⟨a, b, rfl⟩ := decode_two_strings hdec
    simp only [List.getElem?_cons_zero, List.getElem?_cons_succ, Option.bind_some,
      Token.intoString, orPanic, bind, Except.bind, pure, Except.pure]
    split
    · exact ⟨_, rfl⟩
    · split
      · exact ⟨_, rfl⟩
      · split
        · exact ⟨_, rfl⟩
        · exact ⟨_, rfl⟩


end Json

end Litentry.DynamicAssertions
