import Litentry.Primitives.Identity

/-!
# `LitentryMultiSignature`

`LitentryMultiSignature::verify` (`tee-worker/litentry/primitives/src/lib.rs`) checks a
signature of a message for an identity. Each kind of web3 identity has its own scheme.
Most schemes also accept a signature over a *wrapped* message:

* a substrate account: the message between `<Bytes>` tags;
* an EVM account: the message behind EIP-191's header;
* a bitcoin key: the message in hex, or the message read as UTF-8 text.

A web2 handle signs nothing.

The cryptography is not modelled. `Crypto` holds `blake2_256` and each scheme's check as
functions. Signatures are ideal (`Ideal`): a check accepts a byte string only if the owner
of the key signed it. Under that assumption `verify` accepts `m` for `id` only when the
owner of `id`'s key signed one of the byte strings in `acc id m` (`verify_acc`).

The messages of the signing contexts are either a 32-byte digest or a text that starts
with an uppercase letter (`Shaped`). No wrapper confuses two such messages: `acc id m` and
`acc id m'` meet only if `m = m'` (`eq_of_mem_acc`).
-/

set_option autoImplicit false

namespace Litentry

/-- A text as the bytes of its UTF-8 encoding (`as_bytes`). -/
def utf8 (s : String) : List UInt8 := s.toUTF8.toList

/-- `LitentryMultiSignature`, each variant with its signature bytes. -/
inductive LitentryMultiSignature where
  | ed25519 (sig : Bytes 64)
  | sr25519 (sig : Bytes 64)
  | ecdsa (sig : Bytes 65)
  | ethereum (sig : Bytes 65)
  | bitcoin (sig : Bytes 65)

/-- The primitives the checks call, none of them opened: the hash, and each scheme's check
    of a signature against a message and a public key (`verify_evm_signature` and
    `verify_bitcoin_signature` with their hashing and recovery inside). -/
structure Crypto where
  blake2_256 : List UInt8 → Bytes 32
  ed25519Verify : Bytes 64 → List UInt8 → Bytes 32 → Bool
  sr25519Verify : Bytes 64 → List UInt8 → Bytes 32 → Bool
  secp256k1EcdsaRecoverCompressed : Bytes 65 → Bytes 32 → Option (Bytes 33)
  verifyEvmSignature : List UInt8 → Bytes 65 → Bytes 20 → Bool
  verifyBitcoinSignature : List UInt8 → Bytes 65 → Bytes 33 → Bool

/-- `substrate_wrap`. -/
def substrateWrap (msg : List UInt8) : List UInt8 := utf8 "<Bytes>" ++ msg ++ utf8 "</Bytes>"

/-- `evm_eip191_wrap`. -/
def evmEip191Wrap (msg : List UInt8) : List UInt8 :=
  utf8 "\x19Ethereum Signed Message:\n" ++ Codec.decimal msg.length ++ msg

/-- Whether `std::str::from_utf8` accepts the bytes. -/
def isUtf8 (msg : List UInt8) : Bool := (String.fromUTF8? ⟨msg.toArray⟩).isSome

namespace LitentryMultiSignature

variable (cr : Crypto)

/-- `verify_substrate`; `Public::from_slice` of 32 bytes never fails. -/
def verifySubstrate (sig : LitentryMultiSignature) (msg : List UInt8) (signer : Bytes 32) :
    Bool :=
  match sig with
  | ed25519 s => cr.ed25519Verify s msg signer
  | sr25519 s => cr.sr25519Verify s msg signer
  | ecdsa s =>
    match cr.secp256k1EcdsaRecoverCompressed s (cr.blake2_256 msg) with
    | some pubkey => cr.blake2_256 pubkey.data == signer
    | none => false
  | _ => false

/-- `verify_evm`. -/
def verifyEvm (sig : LitentryMultiSignature) (msg : List UInt8) (signer : Bytes 20) : Bool :=
  match sig with
  | ethereum s =>
    cr.verifyEvmSignature (evmEip191Wrap msg) s signer || cr.verifyEvmSignature msg s signer
  | _ => false

/-- `verify_bitcoin`: the hex of the message, or the message itself when it is UTF-8 text. -/
def verifyBitcoin (sig : LitentryMultiSignature) (msg : List UInt8) (signer : Bytes 33) : Bool :=
  match sig with
  | bitcoin s =>
    cr.verifyBitcoinSignature (Codec.hex msg) s signer ||
      (isUtf8 msg && cr.verifyBitcoinSignature msg s signer)
  | _ => false

/-- `verify_solana`. -/
def verifySolana (sig : LitentryMultiSignature) (msg : List UInt8) (signer : Bytes 32) : Bool :=
  match sig with
  | ed25519 s => cr.ed25519Verify s msg signer
  | _ => false

/-- `LitentryMultiSignature::verify`. -/
def verify (sig : LitentryMultiSignature) (msg : List UInt8) : Identity → Bool
  | .substrate a => verifySubstrate cr sig (substrateWrap msg) a || verifySubstrate cr sig msg a
  | .evm a => verifyEvm cr sig msg a
  | .bitcoin a => verifyBitcoin cr sig msg a
  | .solana a => verifySolana cr sig msg a
  | _ => false

end LitentryMultiSignature

/-! ## Ideal signatures -/

/-- The key that signs for an identity, as its bytes; a web2 handle has none. -/
def Identity.signingKey : Identity → Option (List UInt8)
  | .substrate a => some a.data
  | .evm a => some a.data
  | .bitcoin a => some a.data
  | .solana a => some a.data
  | _ => none

/-- `Acc(id, m)`: the byte strings that a signature by `id`'s key may be over for
    `verify` to accept it for `m`. -/
def acc : Identity → List UInt8 → List (List UInt8)
  | .substrate _, m => [substrateWrap m, m]
  | .evm _, m => [evmEip191Wrap m, m]
  | .bitcoin _, m => Codec.hex m :: if isUtf8 m then [m] else []
  | .solana _, m => [m]
  | _, _ => []

/-- Ideal schemes: a check accepts a message only if the owner of the key signed it,
    where `Signed k b` says that the owner of the key or account `k` signed `b`. For an
    ECDSA substrate account the account is the hash of the recovered key. -/
structure Ideal (cr : Crypto) (Signed : List UInt8 → List UInt8 → Prop) : Prop where
  ed25519 : ∀ s m k, cr.ed25519Verify s m k = true → Signed k.data m
  sr25519 : ∀ s m k, cr.sr25519Verify s m k = true → Signed k.data m
  ecdsa : ∀ s m k pk, cr.secp256k1EcdsaRecoverCompressed s (cr.blake2_256 m) = some pk →
    cr.blake2_256 pk.data = k → Signed k.data m
  evm : ∀ m s k, cr.verifyEvmSignature m s k = true → Signed k.data m
  bitcoin : ∀ m s k, cr.verifyBitcoinSignature m s k = true → Signed k.data m

namespace LitentryMultiSignature

variable {cr : Crypto} {Signed : List UInt8 → List UInt8 → Prop}
  {sig : LitentryMultiSignature} {msg : List UInt8}

theorem verifySubstrate_signed (hI : Ideal cr Signed) {a : Bytes 32}
    (h : verifySubstrate cr sig msg a = true) : Signed a.data msg := by
  unfold verifySubstrate at h
  split at h
  · exact hI.ed25519 _ _ _ h
  · exact hI.sr25519 _ _ _ h
  · split at h
    · rename_i pk hpk
      exact hI.ecdsa _ _ _ _ hpk (beq_iff_eq.1 h)
    · cases h
  · cases h

theorem verifyEvm_signed (hI : Ideal cr Signed) {a : Bytes 20}
    (h : verifyEvm cr sig msg a = true) : Signed a.data (evmEip191Wrap msg) ∨ Signed a.data msg := by
  unfold verifyEvm at h
  split at h
  · rcases Bool.or_eq_true_iff.1 h with h | h
    · exact .inl (hI.evm _ _ _ h)
    · exact .inr (hI.evm _ _ _ h)
  · cases h

theorem verifyBitcoin_signed (hI : Ideal cr Signed) {a : Bytes 33}
    (h : verifyBitcoin cr sig msg a = true) :
    Signed a.data (Codec.hex msg) ∨ (isUtf8 msg = true ∧ Signed a.data msg) := by
  unfold verifyBitcoin at h
  split at h
  · rcases Bool.or_eq_true_iff.1 h with h | h
    · exact .inl (hI.bitcoin _ _ _ h)
    · obtain ⟨hu, h⟩ := Bool.and_eq_true_iff.1 h
      exact .inr ⟨hu, hI.bitcoin _ _ _ h⟩
  · cases h

theorem verifySolana_signed (hI : Ideal cr Signed) {a : Bytes 32}
    (h : verifySolana cr sig msg a = true) : Signed a.data msg := by
  unfold verifySolana at h
  split at h
  · exact hI.ed25519 _ _ _ h
  · cases h

/-- **What `verify` accepts.** Under ideal schemes, a signature verifies for `msg` and
    `id` only if the owner of `id`'s key signed a byte string of `acc id msg`. -/
theorem verify_acc (hI : Ideal cr Signed) {id : Identity} (h : verify cr sig msg id = true) :
    ∃ k, id.signingKey = some k ∧ ∃ b ∈ acc id msg, Signed k b := by
  cases id with
  | substrate a =>
    refine ⟨a.data, rfl, ?_⟩
    rcases Bool.or_eq_true_iff.1 h with h | h
    · exact ⟨_, by simp [acc], verifySubstrate_signed hI h⟩
    · exact ⟨_, by simp [acc], verifySubstrate_signed hI h⟩
  | evm a =>
    refine ⟨a.data, rfl, ?_⟩
    rcases verifyEvm_signed hI h with h | h
    · exact ⟨_, by simp [acc], h⟩
    · exact ⟨_, by simp [acc], h⟩
  | bitcoin a =>
    refine ⟨a.data, rfl, ?_⟩
    rcases verifyBitcoin_signed hI h with h | ⟨hu, h⟩
    · exact ⟨_, by simp [acc], h⟩
    · exact ⟨_, by simp [acc, hu], h⟩
  | solana a => exact ⟨a.data, rfl, _, by simp [acc], verifySolana_signed hI h⟩
  | twitter | discord | github => cases h

end LitentryMultiSignature

/-! ## Messages the wrappers keep apart -/

/-- A message as the signing contexts write them: a 32-byte digest, or a text longer than
    a digest that starts with an uppercase ASCII letter. -/
inductive Shaped : List UInt8 → Prop
  | digest {m : List UInt8} : m.length = 32 → Shaped m
  | text {c : UInt8} {r : List UInt8} : 65 ≤ c.toNat → c.toNat ≤ 90 → 32 ≤ r.length →
      Shaped (c :: r)

namespace Shaped

variable {x m : List UInt8}

theorem length_ge (hx : Shaped x) : 32 ≤ x.length := by
  cases hx with
  | digest h => omega
  | text _ _ h =>
    simp only [List.length_cons]
    omega

/-- A byte string that starts with a byte other than an uppercase letter, and is not of
    a digest's length, is no shaped message. -/
theorem ne (hx : Shaped x) {y : List UInt8} {c : UInt8} (hy : y.head? = some c)
    (hc : c.toNat < 65 ∨ 90 < c.toNat) (hlen : y.length ≠ 32) : y ≠ x := by
  rintro rfl
  cases hx with
  | digest h => exact hlen h
  | text h₁ h₂ _ =>
    cases hy
    omega

end Shaped

theorem utf8_bytesOpen : utf8 "<Bytes>" = [60, 66, 121, 116, 101, 115, 62] := by decide +kernel

theorem length_utf8_bytesClose : (utf8 "</Bytes>").length = 8 := by decide +kernel

theorem utf8_eip191Header_head : (utf8 "\x19Ethereum Signed Message:\n").head? = some 25 := by
  decide +kernel

theorem length_utf8_eip191Header : (utf8 "\x19Ethereum Signed Message:\n").length = 26 := by
  decide +kernel

theorem substrateWrap_injective : Function.Injective substrateWrap := by
  intro m m' h
  unfold substrateWrap at h
  exact List.append_cancel_left (List.append_cancel_right h)

theorem substrateWrap_ne {m x : List UInt8} (hm : 32 ≤ m.length) (hx : Shaped x) :
    substrateWrap m ≠ x := by
  refine hx.ne (c := 60) (by simp [substrateWrap, utf8_bytesOpen]) (by decide) ?_
  simp only [substrateWrap, utf8_bytesOpen, List.length_append, length_utf8_bytesClose,
    List.length_cons, List.length_nil]
  omega

theorem evmEip191Wrap_injective : Function.Injective evmEip191Wrap := by
  intro m m' h
  unfold evmEip191Wrap at h
  rw [List.append_assoc, List.append_assoc] at h
  exact Codec.prefixed_inj Codec.length_decimal_mono (List.append_cancel_left h)

theorem evmEip191Wrap_ne {m x : List UInt8} (hm : 32 ≤ m.length) (hx : Shaped x) :
    evmEip191Wrap m ≠ x := by
  have hhead : (evmEip191Wrap m).head? = some 25 := by
    rw [evmEip191Wrap, List.append_assoc, List.head?_append, utf8_eip191Header_head]
    rfl
  refine hx.ne hhead (by decide) ?_
  simp only [evmEip191Wrap, List.length_append, length_utf8_eip191Header]
  omega

theorem hex_ne {m x : List UInt8} (hm : 32 ≤ m.length) (hx : Shaped x) : Codec.hex m ≠ x := by
  obtain ⟨c, r, hcr⟩ := List.exists_cons_of_length_pos (l := Codec.hex m) (by simp; omega)
  -- the first byte is a digit or a lowercase letter
  have hc : Codec.IsHexDigit c := Codec.isHexDigit_of_mem_hex (show c ∈ Codec.hex m by simp [hcr])
  unfold Codec.IsHexDigit at hc
  refine hx.ne (c := c) (by simp [hcr]) (by omega) ?_
  simp only [Codec.length_hex]
  omega

/-- **No wrapper confuses two messages.** For shaped messages, `acc id m` and `acc id m'`
    meet only if `m = m'`. -/
theorem eq_of_mem_acc {id : Identity} {m m' b : List UInt8} (hm : Shaped m) (hm' : Shaped m')
    (h : b ∈ acc id m) (h' : b ∈ acc id m') : m = m' := by
  have hl := hm.length_ge
  have hl' := hm'.length_ge
  cases id with
  | substrate a =>
    simp only [acc, List.mem_cons, List.not_mem_nil, or_false] at h h'
    rcases h with rfl | rfl <;> rcases h' with h' | h'
    · exact substrateWrap_injective h'
    · exact absurd h' (substrateWrap_ne hl hm')
    · exact absurd h'.symm (substrateWrap_ne hl' hm)
    · exact h'
  | evm a =>
    simp only [acc, List.mem_cons, List.not_mem_nil, or_false] at h h'
    rcases h with rfl | rfl <;> rcases h' with h' | h'
    · exact evmEip191Wrap_injective h'
    · exact absurd h' (evmEip191Wrap_ne hl hm')
    · exact absurd h'.symm (evmEip191Wrap_ne hl' hm)
    · exact h'
  | bitcoin a =>
    -- the text form is there only for UTF-8 messages; it is the message all the same
    have hsub : ∀ {n c : List UInt8}, c ∈ acc (.bitcoin a) n → c = Codec.hex n ∨ c = n := by
      intro n c hc
      simp only [acc, List.mem_cons] at hc
      split at hc <;> simp_all
    rcases hsub h with rfl | rfl <;> rcases hsub h' with h' | h'
    · exact Codec.hex_injective h'
    · exact absurd h' (hex_ne hl hm')
    · exact absurd h'.symm (hex_ne hl' hm)
    · exact h'
  | solana a =>
    simp only [acc, List.mem_singleton] at h h'
    exact h.symm.trans h'
  | twitter | discord | github => simp [acc] at h

end Litentry
