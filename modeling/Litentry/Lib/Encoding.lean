import Mathlib

/-!
# Byte-string encodings: UTF-8, hex, base58

Three encodings of byte strings that identities are written in, each as the crate the code
calls implements it, on `List UInt8` (a Rust `&str` is its UTF-8 bytes):

* `Utf8.valid`: whether `core::str::from_utf8` accepts a byte string. The check is the
  automaton of the well-formed sequences of the Unicode Standard (Table 3-7), which is the
  one `from_utf8` runs. `Utf8.lossy` is `String::from_utf8_lossy` over the same automaton:
  each maximal ill-formed prefix becomes U+FFFD. It keeps an ASCII string as it is
  (`Utf8.lossy_of_ascii`), which is what the ABI decoder's strings need.
* `Hex.encode` and `Hex.decode`: `hex::encode` (lowercase, high half first) and
  `hex::decode` of the `hex` crate, with its two errors. `Hex.decode_encode` is the round
  trip.
* `Base58.encode` and `Base58.decode`: `to_base58` and `from_base58` of the `base58` crate,
  by what they compute. A byte string is a big-endian number, written in base 58 with the
  Bitcoin alphabet, after one `1` for each leading zero byte. `from_base58` errs on a
  character outside the alphabet, and on a number that does not fit its 132-byte buffer.
  `Base58.decode_encode` is the round trip for every byte string that fits.

Nothing here is about Litentry; the identity primitives use these three.
-/

set_option autoImplicit false

namespace Litentry

/-- The bytes of an ASCII string literal. -/
def ascii (s : String) : List UInt8 := s.toList.map fun c => c.toNat.toUInt8

/-! ## 1. UTF-8 -/

namespace Utf8

/-- Where the automaton stands: between characters, or owing continuation bytes, the next
    one narrowed after the leading bytes `E0`, `ED`, `F0` and `F4`. -/
inductive Pending where
  | none
  | cont1
  | cont2
  | cont3
  | afterE0
  | afterED
  | afterF0
  | afterF4
  deriving DecidableEq, Repr

/-- The leading byte of a character. -/
def lead (b : UInt8) : Option Pending :=
  if b ≤ 0x7F then some .none
  else if 0xC2 ≤ b ∧ b ≤ 0xDF then some .cont1
  else if b = 0xE0 then some .afterE0
  else if 0xE1 ≤ b ∧ b ≤ 0xEC then some .cont2
  else if b = 0xED then some .afterED
  else if 0xEE ≤ b ∧ b ≤ 0xEF then some .cont2
  else if b = 0xF0 then some .afterF0
  else if 0xF1 ≤ b ∧ b ≤ 0xF3 then some .cont3
  else if b = 0xF4 then some .afterF4
  else Option.none

/-- A continuation byte in `[low, high]`, then `next`. -/
def within (low high b : UInt8) (next : Pending) : Option Pending :=
  if low ≤ b ∧ b ≤ high then some next else Option.none

/-- One byte. -/
def step : Pending → UInt8 → Option Pending
  | .none, b => lead b
  | .cont1, b => within 0x80 0xBF b .none
  | .cont2, b => within 0x80 0xBF b .cont1
  | .cont3, b => within 0x80 0xBF b .cont2
  | .afterE0, b => within 0xA0 0xBF b .cont1
  | .afterED, b => within 0x80 0x9F b .cont1
  | .afterF0, b => within 0x90 0xBF b .cont2
  | .afterF4, b => within 0x80 0x8F b .cont2

/-- Every byte of a string, or `none` at the first refused. -/
def run : Pending → List UInt8 → Option Pending
  | p, [] => some p
  | p, b :: rest =>
    match step p b with
    | some p' => run p' rest
    | Option.none => Option.none

/-- `core::str::from_utf8(bytes).is_ok()`: the bytes end between characters. -/
def valid (bytes : List UInt8) : Bool := run .none bytes == some .none

/-- U+FFFD REPLACEMENT CHARACTER. -/
def replacement : List UInt8 := [0xEF, 0xBF, 0xBD]

/-- The rest of a character begun in state `p`, its bytes so far in `acc` (reversed): the
    character and the input after it, or U+FFFD and the input from the byte that broke it
    off (that byte is not part of it, and starts anew). -/
def finish : Pending → List UInt8 → List UInt8 → List UInt8 × List UInt8
  | _, _, [] => (replacement, [])
  | p, acc, b :: rest =>
    match step p b with
    | some .none => ((b :: acc).reverse, rest)
    | some p' => finish p' (b :: acc) rest
    | Option.none => (replacement, b :: rest)

theorem length_finish_le (p : Pending) (acc bytes : List UInt8) :
    (finish p acc bytes).2.length ≤ bytes.length := by
  induction bytes generalizing p acc with
  | nil => exact Nat.le_refl _
  | cons b rest ih =>
    unfold finish
    split
    · exact Nat.le_succ _
    · exact Nat.le_trans (ih _ _) (Nat.le_succ _)
    · exact Nat.le_refl _

/-- `String::from_utf8_lossy`: each well-formed character is kept, and each maximal prefix
    of one that is not (a byte that begins no character, or a character broken off) is one
    U+FFFD. -/
def lossy : List UInt8 → List UInt8
  | [] => []
  | b :: rest =>
    match lead b with
    | Option.none => replacement ++ lossy rest
    | some .none => b :: lossy rest
    | some p => (finish p [b] rest).1 ++ lossy (finish p [b] rest).2
termination_by bytes => bytes.length
decreasing_by
  all_goals first
    | exact Nat.lt_succ_self _
    | exact Nat.lt_succ_of_le (length_finish_le _ _ _)

/-- ASCII is kept as it is. -/
theorem lossy_of_ascii {bytes : List UInt8} (h : ∀ b ∈ bytes, b ≤ 0x7F) : lossy bytes = bytes := by
  induction bytes with
  | nil => rw [lossy]
  | cons b rest ih =>
    have hlead : lead b = some .none := if_pos (h b (List.mem_cons_self ..))
    rw [lossy, hlead]
    exact congrArg (b :: ·) (ih fun c hc => h c (List.mem_cons_of_mem b hc))

end Utf8

/-! ## 2. Hex -/

namespace Hex

/-- `HEX_CHARS_LOWER[n]`. -/
def digitChar (n : Nat) : UInt8 := if n < 10 then (48 + n).toUInt8 else (87 + n).toUInt8

/-- `hex::encode`: each byte as two lowercase digits, `byte >> 4` then `byte & 0xf`. -/
def encode (data : List UInt8) : List UInt8 :=
  data.flatMap fun b => [digitChar (b.toNat / 16), digitChar (b.toNat % 16)]

/-- `FromHexError`, the errors `hex::decode` returns. -/
inductive FromHexError where
  | invalidHexCharacter (c : UInt8) (index : Nat)
  | oddLength
  deriving DecidableEq, Repr

/-- `val(c, idx)`: the value of a digit of either case. -/
def val (c : UInt8) (idx : Nat) : Except FromHexError Nat :=
  if 65 ≤ c ∧ c ≤ 70 then pure (c.toNat - 65 + 10)
  else if 97 ≤ c ∧ c ≤ 102 then pure (c.toNat - 97 + 10)
  else if 48 ≤ c ∧ c ≤ 57 then pure (c.toNat - 48)
  else throw (.invalidHexCharacter c idx)

/-- The pairs of digits from index `idx` on, each read high half first; a single digit
    left over cannot happen after the length check. -/
def decodeFrom : Nat → List UInt8 → Except FromHexError (List UInt8)
  | _, [] => pure []
  | _, [_] => pure []
  | idx, c₁ :: c₂ :: rest => do
    let hi ← val c₁ idx
    let lo ← val c₂ (idx + 1)
    let bytes ← decodeFrom (idx + 2) rest
    pure ((16 * hi + lo).toUInt8 :: bytes)

/-- `hex::decode`. -/
def decode (data : List UInt8) : Except FromHexError (List UInt8) :=
  if data.length % 2 ≠ 0 then throw .oddLength else decodeFrom 0 data

/-- Each of the sixteen digits reads back as its value. -/
theorem val_digitChar {n : Nat} (hn : n < 16) (idx : Nat) : val (digitChar n) idx = .ok n := by
  rcases n with _ | _ | _ | _ | _ | _ | _ | _ | _ | _ | _ | _ | _ | _ | _ | _ | n
  all_goals first | rfl | omega

/-- A byte is its high half times sixteen plus its low half. -/
theorem byte_halves (b : UInt8) : (16 * (b.toNat / 16) + b.toNat % 16).toUInt8 = b := by
  rw [Nat.div_add_mod]
  exact UInt8.ofNat_toNat

theorem decodeFrom_encode (data : List UInt8) :
    ∀ idx, decodeFrom idx (encode data) = .ok data := by
  induction data with
  | nil => intro idx; rfl
  | cons b rest ih =>
    intro idx
    have hhi : b.toNat / 16 < 16 := by have := b.toNat_lt; omega
    have hlo : b.toNat % 16 < 16 := Nat.mod_lt _ (by omega)
    have hcons : encode (b :: rest) =
        digitChar (b.toNat / 16) :: digitChar (b.toNat % 16) :: encode rest := rfl
    rw [hcons, decodeFrom, val_digitChar hhi, val_digitChar hlo, ih]
    show Except.ok ((16 * (b.toNat / 16) + b.toNat % 16).toUInt8 :: rest) = _
    rw [byte_halves]

theorem length_encode (data : List UInt8) : (encode data).length = 2 * data.length := by
  induction data with
  | nil => rfl
  | cons b rest ih =>
    have hcons : encode (b :: rest) =
        digitChar (b.toNat / 16) :: digitChar (b.toNat % 16) :: encode rest := rfl
    rw [hcons, List.length_cons, List.length_cons, ih, List.length_cons]
    omega

/-- **Hex round trip.** -/
theorem decode_encode (data : List UInt8) : decode (encode data) = .ok data := by
  rw [decode, if_neg (by rw [length_encode]; omega)]
  exact decodeFrom_encode data 0

/-- Every byte `hex::encode` writes is a digit: `0`-`9` or `a`-`f`. -/
theorem mem_encode {c : UInt8} {data : List UInt8} (hc : c ∈ encode data) :
    (48 ≤ c.toNat ∧ c.toNat ≤ 57) ∨ (97 ≤ c.toNat ∧ c.toNat ≤ 102) := by
  have hdigit : ∀ n < 16, (48 ≤ (digitChar n).toNat ∧ (digitChar n).toNat ≤ 57) ∨
      (97 ≤ (digitChar n).toNat ∧ (digitChar n).toNat ≤ 102) := by
    intro n hn
    rcases n with _ | _ | _ | _ | _ | _ | _ | _ | _ | _ | _ | _ | _ | _ | _ | _ | n
    all_goals first | decide | omega
  simp only [encode, List.mem_flatMap, List.mem_cons, List.not_mem_nil, or_false] at hc
  obtain ⟨b, -, rfl | rfl⟩ := hc
  · exact hdigit _ (by have := b.toNat_lt; omega)
  · exact hdigit _ (Nat.mod_lt _ (by omega))

theorem encode_injective : Function.Injective encode := by
  intro a b h
  have := decode_encode a
  rw [h, decode_encode] at this
  exact (Except.ok.inj this).symm

end Hex

/-! ## 3. Base58 -/

namespace Base58

/-- The Bitcoin alphabet: digit `d` is written as `alphabet[d]`. -/
def alphabet : List UInt8 :=
  ascii "123456789ABCDEFGHJKLMNPQRSTUVWXYZabcdefghijkmnopqrstuvwxyz"

/-- The number big-endian digits in base `b` write. -/
def value (b : Nat) (ds : List Nat) : Nat := Nat.ofDigits b ds.reverse

/-- `to_base58`: a `1` for each leading zero byte, then the digits of the number the bytes
    write, most significant first. -/
def encode (bytes : List UInt8) : List UInt8 :=
  List.replicate (bytes.takeWhile (· == 0)).length (alphabet.getD 0 0) ++
    (Nat.digits 58 (value 256 (bytes.map UInt8.toNat))).reverse.map (alphabet.getD · 0)

/-- `FromBase58Error`. -/
inductive FromBase58Error where
  | invalidBase58Character (c : UInt8) (index : Nat)
  | invalidBase58Length
  deriving DecidableEq, Repr

/-- The digits of a string from index `i` on, or the first character outside the alphabet. -/
def digitsFrom : Nat → List UInt8 → Except FromBase58Error (List Nat)
  | _, [] => pure []
  | i, c :: rest =>
    match alphabet.idxOf? c with
    | some d => (d :: ·) <$> digitsFrom (i + 1) rest
    | none => throw (.invalidBase58Character c i)

/-- `from_base58`: a zero byte for each leading `1`, then the big-endian bytes of the number
    the digits write; the number must fit 132 bytes. -/
def decode (s : List UInt8) : Except FromBase58Error (List UInt8) := do
  let ds ← digitsFrom 0 s
  let n := value 58 ds
  if 256 ^ 132 ≤ n then throw .invalidBase58Length
  pure (List.replicate (s.takeWhile (· == alphabet.getD 0 0)).length 0 ++
    (Nat.digits 256 n).reverse.map Nat.toUInt8)

/-- The alphabet is in ASCII order, so one pass over neighbours shows it has no repeats. -/
theorem alphabet_nodup : alphabet.Nodup :=
  (List.isChain_iff_pairwise.1 (by decide : alphabet.IsChain (· < ·))).imp UInt8.ne_of_lt

theorem length_alphabet : alphabet.length = 58 := by simp [alphabet, ascii]

theorem idxOf?_getD {d : Nat} (hd : d < 58) : alphabet.idxOf? (alphabet.getD d 0) = some d := by
  have hlt : d < alphabet.length := by rw [length_alphabet]; exact hd
  rw [List.getD_eq_getElem _ _ hlt, List.idxOf?_eq_some_iff]
  exact ⟨hlt, rfl, fun j hj => List.pairwise_iff_getElem.1 alphabet_nodup j d _ hlt hj⟩

/-- Leading zero digits write nothing. -/
theorem value_replicate_zero_append (b z : Nat) (ds : List Nat) :
    value b (List.replicate z 0 ++ ds) = value b ds := by
  simp [value, Nat.ofDigits_append, List.reverse_replicate]

theorem value_lt (b : Nat) (hb : 1 < b) (ds : List Nat) (hds : ∀ d ∈ ds, d < b) :
    value b ds < b ^ ds.length := by
  have := Nat.ofDigits_lt_base_pow_length hb (fun d hd => hds d (List.mem_reverse.1 hd))
  rwa [List.length_reverse] at this

/-- The digits of a byte string that has no leading zero byte read back as its bytes. -/
theorem digits_value_bytes {rest : List UInt8} (hhead : ∀ h : rest ≠ [], rest.head h ≠ 0) :
    (Nat.digits 256 (value 256 (rest.map UInt8.toNat))).reverse.map Nat.toUInt8 = rest := by
  have hd : Nat.digits 256 (value 256 (rest.map UInt8.toNat)) = (rest.map UInt8.toNat).reverse := by
    apply Nat.digits_ofDigits 256 (by norm_num)
    · intro l hl
      obtain ⟨b, -, rfl⟩ := List.mem_map.1 (List.mem_reverse.1 hl)
      exact b.toNat_lt
    · intro hne
      rw [List.getLast_reverse]
      have hrest : rest ≠ [] := by simpa using hne
      rw [List.head_map]
      exact fun h0 => hhead hrest (UInt8.toNat_inj.1 (by simpa using h0))
  rw [hd, List.reverse_reverse, List.map_map]
  conv_rhs => rw [← List.map_id rest]
  apply List.map_congr_left
  intro b _
  exact UInt8.ofNat_toNat

/-- The digits of a string written from digits below 58. -/
theorem digitsFrom_map (ds : List Nat) (hds : ∀ d ∈ ds, d < 58) :
    ∀ i, digitsFrom i (ds.map (alphabet.getD · 0)) = .ok ds := by
  induction ds with
  | nil => intro i; rfl
  | cons d ds ih =>
    intro i
    simp only [List.map_cons, digitsFrom, idxOf?_getD (hds d List.mem_cons_self),
      ih (fun d' hd' => hds d' (List.mem_cons_of_mem _ hd'))]
    rfl

/-- **Base58 round trip**, for every byte string that fits the decoder's buffer. -/
theorem decode_encode (bytes : List UInt8) (hlen : bytes.length ≤ 132) :
    decode (encode bytes) = .ok bytes := by
  set z := (bytes.takeWhile (· == 0)).length
  set rest := bytes.dropWhile (· == 0)
  have hsplit : bytes = List.replicate z 0 ++ rest := by
    conv_lhs => rw [← List.takeWhile_append_dropWhile (p := (· == 0)) (l := bytes)]
    congr 1
    exact List.eq_replicate_iff.2 ⟨rfl, fun b hb => by simpa using List.mem_takeWhile_imp hb⟩
  have hhead : ∀ h : rest ≠ [], rest.head h ≠ 0 := by
    intro h h0
    have := List.head_dropWhile_not (· == 0) (l := bytes) h
    simp [rest, h0] at this
  -- the number the bytes write, and its digits in base 58
  set n := value 256 (rest.map UInt8.toNat) with hn
  have hval : value 256 (bytes.map UInt8.toNat) = n := by
    rw [hsplit, List.map_append, List.map_replicate, UInt8.toNat_zero, value_replicate_zero_append]
  set ds := (Nat.digits 58 n).reverse
  have hds : ∀ d ∈ ds, d < 58 := fun d hd =>
    Nat.digits_lt_base (by norm_num) (List.mem_reverse.1 hd)
  have henc : encode bytes = List.replicate z (alphabet.getD 0 0) ++ ds.map (alphabet.getD · 0) := by
    rw [encode, hval]
  -- decoding: the ones are digit `0`, the rest the digits of `n`
  have hdigits : digitsFrom 0 (encode bytes) = .ok (List.replicate z 0 ++ ds) := by
    have := digitsFrom_map (List.replicate z 0 ++ ds) (by
      intro d hd
      rcases List.mem_append.1 hd with h | h
      · rw [(List.eq_of_mem_replicate h)]; norm_num
      · exact hds d h) 0
    rwa [List.map_append, List.map_replicate, ← henc] at this
  have hvalue : value 58 (List.replicate z 0 ++ ds) = n := by
    rw [value_replicate_zero_append, value, List.reverse_reverse, Nat.ofDigits_digits]
  have hfit : ¬ 256 ^ 132 ≤ n := by
    have hlt : n < 256 ^ rest.length := by
      have := value_lt 256 (by norm_num) (rest.map UInt8.toNat) (by
        intro d hd
        obtain ⟨b, -, rfl⟩ := List.mem_map.1 hd
        exact b.toNat_lt)
      rwa [List.length_map] at this
    have hle : rest.length ≤ 132 := by
      have := congrArg List.length hsplit
      simp only [List.length_append, List.length_replicate] at this
      omega
    have := Nat.pow_le_pow_right (show 0 < 256 by norm_num) hle
    omega
  -- the leading ones: the first digit of `n`, if any, is not `0`
  have hfirst : (ds.map (alphabet.getD · 0)).takeWhile (· == alphabet.getD 0 0) = [] := by
    cases hcons : ds with
    | nil => rfl
    | cons d ds' =>
      have hne : Nat.digits 58 n ≠ [] := fun h => by simp [ds, h] at hcons
      have hd : d = (Nat.digits 58 n).getLast hne := by
        have := List.head_reverse (l := Nat.digits 58 n) (by simpa using hne)
        simp only [ds] at hcons
        simp only [hcons, List.head_cons] at this
        exact this
      have hd0 : d ≠ 0 := by
        rw [hd]
        exact Nat.getLast_digit_ne_zero 58 (fun h0 => hne (by simp [h0]))
      have hchar : alphabet.getD d 0 ≠ alphabet.getD 0 0 := fun h => hd0 (by
        have h58 : d < 58 := hds d (by simp [hcons])
        have := idxOf?_getD h58
        rw [h, idxOf?_getD (by norm_num)] at this
        exact (Option.some.inj this).symm)
      rw [List.map_cons, List.takeWhile_cons, beq_eq_false_iff_ne.2 hchar]
      rfl
  have hones : ((encode bytes).takeWhile (· == alphabet.getD 0 0)).length = z := by
    rw [henc, List.takeWhile_append_of_pos (fun a ha => by simp [List.eq_of_mem_replicate ha]),
      hfirst, List.append_nil, List.length_replicate]
  rw [decode, hdigits]
  show (if 256 ^ 132 ≤ value 58 (List.replicate z 0 ++ ds) then
      throw FromBase58Error.invalidBase58Length
      else pure (List.replicate ((encode bytes).takeWhile (· == alphabet.getD 0 0)).length 0 ++
        (Nat.digits 256 (value 58 (List.replicate z 0 ++ ds))).reverse.map Nat.toUInt8)) = _
  rw [hvalue, if_neg hfit, hones, hn, digits_value_bytes hhead, ← hsplit]
  rfl

/-- Every character `to_base58` writes is in the alphabet. -/
theorem mem_encode {c : UInt8} {bytes : List UInt8} (hc : c ∈ encode bytes) : c ∈ alphabet := by
  have hget : ∀ d < 58, alphabet.getD d 0 ∈ alphabet := fun d hd => by
    rw [List.getD_eq_getElem _ _ (by rw [length_alphabet]; exact hd)]
    exact List.getElem_mem _
  simp only [encode, List.mem_append, List.mem_map, List.mem_reverse] at hc
  rcases hc with h | ⟨d, hd, rfl⟩
  · rw [List.eq_of_mem_replicate h]
    exact hget 0 (by norm_num)
  · exact hget d (Nat.digits_lt_base (by norm_num) hd)

end Base58

end Litentry
