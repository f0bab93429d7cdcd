import Litentry.Primitives.Signature

/-!
# What the three signing contexts of the enclave sign

Three checks of the enclave's state transition function (`tee-worker/app-libs/stf`)
accept a signature by an identity's key:

* `verify_web3_identity` (`helpers.rs`) checks the proof that links a web3 identity to a
  primary identity. It expects `blake2_256(nonce ‖ primary ‖ identity)`, either as the bare
  digest or as `Token: ` and the digest's hex;
* `TrustedCallSigned::verify_signature` (`trusted_call.rs`) checks a trusted call, over
  `blake2_256(call ‖ nonce ‖ mrenclave ‖ shard)`, again bare or behind the call's prefix;
* `TrustedGetterSigned::verify_signature` (`getter.rs`) checks a getter, over
  `blake2_256(getter)`, in the same two forms.

Each context's messages are therefore a 32-byte digest, or a prefix followed by the
digest's hex (`digestMessages`). Every prefix starts with an uppercase letter, so all of
these messages are `Shaped`, and no wrapper of `LitentryMultiSignature::verify` mixes two
of them up (`eq_of_mem_acc`). What a link proof and a trusted call or getter can share is
therefore a digest, and so a payload once `blake2_256` is taken to be free of collisions.

Payloads do coincide, though. The SCALE encoding of a twitter handle carries arbitrary
bytes, so a link payload `nonce ‖ twitter(handle) ‖ identity` can spell out
`noop(identity) ‖ nonce ‖ mrenclave ‖ shard` (`noopRun_payload`). Every proof that links
such an identity is then also a signature of that trusted call
(`linkProof_replays_as_noop`).

Fields that no check reads are kept as their SCALE bytes: the validation data and
assertions of the identity calls, the errors of the error handlers, and the arguments of
the EVM calls.
-/

set_option autoImplicit false

namespace Litentry
namespace Stf

/-- `litentry_hex_utils::hex_encode`: `hex::encode` behind `0x`. -/
def hexEncode (data : List UInt8) : List UInt8 := utf8 "0x" ++ Codec.hex data

/-- The SCALE encoding of an `Index`, a `u32`. -/
def encodeIndex (n : UInt32) : List UInt8 := Codec.leBytes 4 n.toNat

/-- The SCALE encoding of an `Option`. -/
def encodeOption {α : Type} (f : α → List UInt8) : Option α → List UInt8
  | none => [0]
  | some a => 1 :: f a

/-- The SCALE encoding of a `Vec`: the compact length, then the items. -/
def encodeVec {α : Type} (f : α → List UInt8) (l : List α) : List UInt8 :=
  Codec.compact l.length ++ l.flatMap f

/-! ## 1. Link proofs (`helpers.rs`) -/

/-- `get_expected_raw_message`: the digest of the SCALE-encoded sidechain nonce, primary
    identity and identity to be linked. -/
def getExpectedRawMessage (cr : Crypto) (who identity : Identity) (sidechainNonce : UInt32) :
    List UInt8 :=
  (cr.blake2_256 (encodeIndex sidechainNonce ++ who.encode ++ identity.encode)).data

/-- `Web3CommonValidationData`: a `ValidationString` of at most 128 bytes and a signature. -/
structure Web3CommonValidationData where
  message : List UInt8
  message_length_le : message.length ≤ 128
  signature : LitentryMultiSignature

/-- `Web3ValidationData`. -/
inductive Web3ValidationData where
  | substrate (data : Web3CommonValidationData)
  | evm (data : Web3CommonValidationData)
  | bitcoin (data : Web3CommonValidationData)
  | solana (data : Web3CommonValidationData)

namespace Web3ValidationData

/-- `message`. -/
def message : Web3ValidationData → List UInt8
  | substrate data | evm data | bitcoin data | solana data => data.message

/-- `signature`. -/
def signature : Web3ValidationData → LitentryMultiSignature
  | substrate data | evm data | bitcoin data | solana data => data.signature

end Web3ValidationData

/-- The details of `StfError::LinkIdentityFailed` that the check raises. -/
inductive ErrorDetail where
  | unexpectedMessage
  | verifyWeb3SignatureFailed
  deriving DecidableEq, Repr

/-- The `StfError` the check raises. -/
inductive StfError where
  | linkIdentityFailed (detail : ErrorDetail)
  deriving DecidableEq, Repr

/-- `verify_web3_identity`: the message received is the expected digest or its text form
    `Token: 0x…`, and the signature verifies for one of the two. -/
def verifyWeb3Identity (cr : Crypto) (identity : Identity) (expectedRawMsg : List UInt8)
    (validationData : Web3ValidationData) : Except StfError Unit := do
  let expectedPrettifiedMsg := utf8 "Token: " ++ hexEncode expectedRawMsg
  let receivedMessage := validationData.message
  unless expectedRawMsg == receivedMessage || expectedPrettifiedMsg == receivedMessage do
    throw (.linkIdentityFailed .unexpectedMessage)
  let signature := validationData.signature
  unless signature.verify cr expectedRawMsg identity ||
      signature.verify cr expectedPrettifiedMsg identity do
    throw (.linkIdentityFailed .verifyWeb3SignatureFailed)
  pure ()

/-! ## 2. Trusted calls (`trusted_call.rs`) -/

/-- `ParentchainId`. -/
inductive ParentchainId where
  | litentry
  | targetA
  | targetB
  deriving DecidableEq, Repr

/-- The codec index of a `ParentchainId`. -/
def ParentchainId.index : ParentchainId → UInt8
  | litentry => 0
  | targetA => 1
  | targetB => 2

/-- `TrustedCall`. The sender is typed in every variant, as are the other fields built
    from identities, keys, hashes and integers. A field whose type the model leaves out
    is kept as its SCALE bytes: `ValidationData`, an `Assertion` (`request_batch_vc`
    keeps the list of them, whose length its prefix quotes), an `IMPError` or
    `VCMPError`, and the arguments of the EVM calls after the origin. Fixed-width integers
    are kept as their little-endian bytes. -/
inductive TrustedCall where
  | linkIdentity (sender who identity : Identity) (validationData : List UInt8)
      (web3networks : List Web3Network) (maybeKey : Option (Bytes 32)) (hash : Bytes 32)
  | deactivateIdentity (sender who identity : Identity) (maybeKey : Option (Bytes 32))
      (hash : Bytes 32)
  | activateIdentity (sender who identity : Identity) (maybeKey : Option (Bytes 32))
      (hash : Bytes 32)
  | requestVc (sender who : Identity) (assertion : List UInt8) (maybeKey : Option (Bytes 32))
      (hash : Bytes 32)
  | setIdentityNetworks (sender who identity : Identity) (web3networks : List Web3Network)
      (maybeKey : Option (Bytes 32)) (hash : Bytes 32)
  | removeIdentity (sender who : Identity) (identities : List Identity)
  | requestBatchVc (sender who : Identity) (assertions : List (List UInt8))
      (maybeKey : Option (Bytes 32)) (hash : Bytes 32)
  | linkIdentityCallback (sender who identity : Identity) (web3networks : List Web3Network)
      (maybeKey : Option (Bytes 32)) (hash : Bytes 32)
  | requestVcCallback (sender who : Identity) (assertion : List UInt8) (vcPayload : List UInt8)
      (maybeKey : Option (Bytes 32)) (shouldCreateIdGraph : Bool) (hash : Bytes 32)
  | handleImpError (sender : Identity) (who : Option Identity) (error : List UInt8)
      (hash : Bytes 32)
  | handleVcmpError (sender : Identity) (who : Option Identity) (error : List UInt8)
      (hash : Bytes 32)
  | sendErroneousParentchainCall (sender : Identity)
  | maybeCreateIdGraph (sender who : Identity)
  | noop (sender : Identity)
  | balanceSetBalance (sender : Identity) (who : Bytes 32) (newFree newReserved : Bytes 16)
  | balanceTransfer (sender : Identity) (dest : Bytes 32) (value : Bytes 16)
  | timestampSet (sender : Identity) (now : Bytes 8) (parentchainId : ParentchainId)
  | evmWithdraw (sender : Identity) (address : Bytes 20) (value : Bytes 16)
  | evmCall (sender : Identity) (args : List UInt8)
  | evmCreate (sender : Identity) (args : List UInt8)
  | evmCreate2 (sender : Identity) (args : List UInt8)

namespace TrustedCall

/-- The derived `Encode`: the codec index of the variant, then its fields. -/
def encode : TrustedCall → List UInt8
  | linkIdentity s w i vd ns k h =>
    0 :: s.encode ++ w.encode ++ i.encode ++ vd ++ encodeVec (fun n => [n.getCode.toUInt8]) ns ++
      encodeOption Bytes.data k ++ h.data
  | deactivateIdentity s w i k h =>
    1 :: s.encode ++ w.encode ++ i.encode ++ encodeOption Bytes.data k ++ h.data
  | activateIdentity s w i k h =>
    2 :: s.encode ++ w.encode ++ i.encode ++ encodeOption Bytes.data k ++ h.data
  | requestVc s w a k h => 3 :: s.encode ++ w.encode ++ a ++ encodeOption Bytes.data k ++ h.data
  | setIdentityNetworks s w i ns k h =>
    4 :: s.encode ++ w.encode ++ i.encode ++ encodeVec (fun n => [n.getCode.toUInt8]) ns ++
      encodeOption Bytes.data k ++ h.data
  | removeIdentity s w is => 5 :: s.encode ++ w.encode ++ encodeVec Identity.encode is
  | requestBatchVc s w as k h =>
    6 :: s.encode ++ w.encode ++ encodeVec id as ++ encodeOption Bytes.data k ++ h.data
  | linkIdentityCallback s w i ns k h =>
    20 :: s.encode ++ w.encode ++ i.encode ++ encodeVec (fun n => [n.getCode.toUInt8]) ns ++
      encodeOption Bytes.data k ++ h.data
  | requestVcCallback s w a p k c h =>
    21 :: s.encode ++ w.encode ++ a ++ encodeVec (fun b => [b]) p ++ encodeOption Bytes.data k ++
      [if c then 1 else 0] ++ h.data
  | handleImpError s w e h => 22 :: s.encode ++ encodeOption Identity.encode w ++ e ++ h.data
  | handleVcmpError s w e h => 23 :: s.encode ++ encodeOption Identity.encode w ++ e ++ h.data
  | sendErroneousParentchainCall s => 24 :: s.encode
  | maybeCreateIdGraph s w => 25 :: s.encode ++ w.encode
  | noop s => 50 :: s.encode
  | balanceSetBalance s w f r => 51 :: s.encode ++ w.data ++ f.data ++ r.data
  | balanceTransfer s t v => 52 :: s.encode ++ t.data ++ v.data
  | timestampSet s n p => 55 :: s.encode ++ n.data ++ [p.index]
  | evmWithdraw s a v => 56 :: s.encode ++ a.data ++ v.data
  | evmCall s args => 57 :: s.encode ++ args
  | evmCreate s args => 58 :: s.encode ++ args
  | evmCreate2 s args => 59 :: s.encode ++ args

/-- `sender_identity`: the first field of every variant. -/
def senderIdentity : TrustedCall → Identity
  | linkIdentity s .. | deactivateIdentity s .. | activateIdentity s .. | requestVc s ..
  | setIdentityNetworks s .. | removeIdentity s .. | requestBatchVc s ..
  | linkIdentityCallback s .. | requestVcCallback s .. | handleImpError s ..
  | handleVcmpError s .. | sendErroneousParentchainCall s | maybeCreateIdGraph s ..
  | noop s | balanceSetBalance s .. | balanceTransfer s .. | timestampSet s ..
  | evmWithdraw s .. | evmCall s .. | evmCreate s .. | evmCreate2 s .. => s

/-- `signature_message_prefix`. -/
def signatureMessagePrefix : TrustedCall → List UInt8
  | linkIdentity .. => utf8 "By linking your identity to our platform, you\x27re taking a step towards a more integrated experience. Please be assured, this process is safe and involves no transactions of your assets. Token: "
  | requestBatchVc _ _ assertions _ _ =>
    match assertions.length with
    | 1 => utf8 "We are going to help you generate 1 secure credential. Please be assured, this process is safe and involves no transactions of your assets. Token: "
    | n => utf8 "We are going to help you generate " ++ Codec.decimal n ++ utf8 " secure credentials. Please be assured, this process is safe and involves no transactions of your assets. Token: "
  | _ => utf8 "Token: "

end TrustedCall

/-- `TrustedCallSigned`. -/
structure TrustedCallSigned where
  call : TrustedCall
  nonce : UInt32
  signature : LitentryMultiSignature

/-- `TrustedCallSigned::verify_signature`: the signature verifies for the sender, over the
    digest of `call ‖ nonce ‖ mrenclave ‖ shard` behind the call's prefix, or bare. -/
def TrustedCallSigned.verifySignature (cr : Crypto) (self : TrustedCallSigned)
    (mrenclave shard : Bytes 32) : Bool :=
  let payload := self.call.encode ++ encodeIndex self.nonce ++ mrenclave.data ++ shard.data
  let hashed := (cr.blake2_256 payload).data
  let prettifiedMsgHash := self.call.signatureMessagePrefix ++ hexEncode hashed
  self.signature.verify cr prettifiedMsgHash self.call.senderIdentity ||
    self.signature.verify cr hashed self.call.senderIdentity

/-! ## 3. Trusted getters (`getter.rs`) -/

/-- `TrustedGetter`. -/
inductive TrustedGetter where
  | freeBalance (sender : Identity)
  | reservedBalance (sender : Identity)
  | evmNonce (sender : Identity)
  | evmAccountCodes (sender : Identity) (address : Bytes 20)
  | evmAccountStorages (sender : Identity) (address : Bytes 20) (key : Bytes 32)
  | idGraph (sender : Identity)

namespace TrustedGetter

/-- The derived `Encode`. -/
def encode : TrustedGetter → List UInt8
  | freeBalance s => 0 :: s.encode
  | reservedBalance s => 1 :: s.encode
  | evmNonce s => 2 :: s.encode
  | evmAccountCodes s a => 3 :: s.encode ++ a.data
  | evmAccountStorages s a k => 4 :: s.encode ++ a.data ++ k.data
  | idGraph s => 5 :: s.encode

/-- `sender_identity`. -/
def senderIdentity : TrustedGetter → Identity
  | freeBalance s | reservedBalance s | evmNonce s | evmAccountCodes s _
  | evmAccountStorages s _ _ | idGraph s => s

/-- `signature_message_prefix`. -/
def signatureMessagePrefix : TrustedGetter → List UInt8
  | idGraph .. => utf8 "Our team is ready to support you in retrieving your on-chain identity securely. Please be assured, this process is safe and involves no transactions of your assets. Token: "
  | _ => utf8 "Token: "

end TrustedGetter

/-- `ALICE_ACCOUNTID32` of the development build. -/
def aliceAccountId32 : Bytes 32 :=
  ⟨[0xd4, 0x35, 0x93, 0xc7, 0x15, 0xfd, 0xd3, 0x1c, 0x61, 0x14, 0x1a, 0xbd, 0x04, 0xa9, 0x9f,
    0xd6, 0x82, 0x2c, 0x85, 0x58, 0x85, 0x4c, 0xcd, 0xe3, 0x9a, 0x56, 0x84, 0xe7, 0xa5, 0x6d,
    0xa2, 0x7d], rfl⟩

/-- `TrustedGetterSigned`. -/
structure TrustedGetterSigned where
  getter : TrustedGetter
  signature : LitentryMultiSignature

/-- `TrustedGetterSigned::verify_signature`; the development build also accepts Alice's
    signatures (`if_development_or!`). -/
def TrustedGetterSigned.verifySignature (development : Bool) (cr : Crypto)
    (self : TrustedGetterSigned) : Bool :=
  let payload := self.getter.encode
  let hashed := (cr.blake2_256 payload).data
  let prettifiedMsgHash := self.getter.signatureMessagePrefix ++ hexEncode hashed
  let isValid := self.signature.verify cr prettifiedMsgHash self.getter.senderIdentity ||
    self.signature.verify cr hashed self.getter.senderIdentity
  if development then
    isValid || self.signature.verify cr hashed (.substrate aliceAccountId32) ||
      self.signature.verify cr prettifiedMsgHash (.substrate aliceAccountId32)
  else isValid

/-! ## 4. The messages each context accepts -/

/-- The two messages a context accepts for a digest: the digest, and its `0x`-hex behind
    the context's prefix. -/
def digestMessages (pfx digest : List UInt8) : List (List UInt8) :=
  [digest, pfx ++ hexEncode digest]

theorem verifyWeb3Identity_ok {cr : Crypto} {identity : Identity} {raw : List UInt8}
    {vd : Web3ValidationData} (h : verifyWeb3Identity cr identity raw vd = .ok ()) :
    vd.message ∈ digestMessages (utf8 "Token: ") raw ∧
      ∃ m ∈ digestMessages (utf8 "Token: ") raw, vd.signature.verify cr m identity = true := by
  unfold verifyWeb3Identity at h
  simp only [bind, Except.bind, throw, throwThe, MonadExceptOf.throw, pure, Except.pure] at h
  split_ifs at h with hm hs
  · simp only [Bool.or_eq_true, beq_iff_eq] at hm hs
    refine ⟨?_, ?_⟩
    · rcases hm with hm | hm <;> simp [digestMessages, ← hm]
    · rcases hs with hs | hs
      · exact ⟨_, by simp [digestMessages], hs⟩
      · exact ⟨_, by simp [digestMessages], hs⟩

/-- A substrate account's sr25519 signature over the bare digest, sent with the digest itself,
    passes `verify_web3_identity` where the scheme accepts it. -/
theorem verifyWeb3Identity_of_sr25519 {cr : Crypto} {raw : List UInt8} {a : Bytes 32}
    {sig : Bytes 64} (hlen : raw.length ≤ 128) (hv : cr.sr25519Verify sig raw a = true) :
    verifyWeb3Identity cr (.substrate a) raw (.substrate ⟨raw, hlen, .sr25519 sig⟩) = .ok () := by
  simp [verifyWeb3Identity, Web3ValidationData.message, Web3ValidationData.signature,
    LitentryMultiSignature.verify, LitentryMultiSignature.verifySubstrate, hv, pure, Except.pure]

theorem TrustedCallSigned.verifySignature_iff {cr : Crypto} {self : TrustedCallSigned}
    {mrenclave shard : Bytes 32} :
    self.verifySignature cr mrenclave shard = true ↔
      ∃ m ∈ digestMessages self.call.signatureMessagePrefix
        (cr.blake2_256 (self.call.encode ++ encodeIndex self.nonce ++ mrenclave.data ++
          shard.data)).data,
        self.signature.verify cr m self.call.senderIdentity = true := by
  simp only [TrustedCallSigned.verifySignature, digestMessages, Bool.or_eq_true, List.mem_cons,
    List.not_mem_nil, or_false, exists_eq_or_imp, exists_eq_left]
  exact Or.comm

theorem TrustedGetterSigned.verifySignature_iff {cr : Crypto} {self : TrustedGetterSigned} :
    self.verifySignature false cr = true ↔
      ∃ m ∈ digestMessages self.getter.signatureMessagePrefix (cr.blake2_256 self.getter.encode).data,
        self.signature.verify cr m self.getter.senderIdentity = true := by
  simp only [TrustedGetterSigned.verifySignature, digestMessages, Bool.or_eq_true, List.mem_cons,
    List.not_mem_nil, or_false, exists_eq_or_imp, exists_eq_left, Bool.false_eq_true, if_false]
  exact Or.comm

/-! ## 5. Every message is shaped -/

/-- A prefix whose first byte is an uppercase ASCII letter. -/
def UpperHead (pfx : List UInt8) : Prop := ∃ c, pfx.head? = some c ∧ 65 ≤ c.toNat ∧ c.toNat ≤ 90

theorem UpperHead.append {p : List UInt8} (h : UpperHead p) (q : List UInt8) :
    UpperHead (p ++ q) := by
  obtain ⟨c, hc, hlo, hhi⟩ := h
  exact ⟨c, by rw [List.head?_append, hc]; rfl, hlo, hhi⟩

theorem upperHead_token : UpperHead (utf8 "Token: ") := ⟨84, by decide +kernel, by decide, by decide⟩

theorem TrustedCall.upperHead_signatureMessagePrefix (call : TrustedCall) :
    UpperHead call.signatureMessagePrefix := by
  unfold TrustedCall.signatureMessagePrefix
  split
  · exact ⟨66, by decide +kernel, by decide, by decide⟩
  · -- the batch prefix starts with `We`, whatever number it quotes
    have hwe : UpperHead (utf8 "We are going to help you generate ") :=
      ⟨87, by decide +kernel, by decide, by decide⟩
    split
    · exact ⟨87, by decide +kernel, by decide, by decide⟩
    · exact (hwe.append _).append _
  · exact upperHead_token

theorem TrustedGetter.upperHead_signatureMessagePrefix (getter : TrustedGetter) :
    UpperHead getter.signatureMessagePrefix := by
  unfold TrustedGetter.signatureMessagePrefix
  split
  · exact ⟨79, by decide +kernel, by decide, by decide⟩
  · exact upperHead_token

theorem length_utf8_0x : (utf8 "0x").length = 2 := by decide +kernel

theorem length_hexEncode (data : List UInt8) : (hexEncode data).length = 2 + 2 * data.length := by
  simp [hexEncode, length_utf8_0x]

theorem shaped_of_mem_digestMessages {pfx digest m : List UInt8} (hp : UpperHead pfx)
    (hd : digest.length = 32) (hm : m ∈ digestMessages pfx digest) : Shaped m := by
  simp only [digestMessages, List.mem_cons, List.not_mem_nil, or_false] at hm
  rcases hm with rfl | rfl
  · exact .digest hd
  · obtain ⟨c, hc, hlo, hhi⟩ := hp
    obtain ⟨r, rfl⟩ := List.head?_eq_some_iff.1 hc
    refine .text hlo hhi ?_
    show 32 ≤ (r ++ hexEncode digest).length
    simp only [List.length_append, length_hexEncode, hd]
    omega

/-- A message of two contexts is the same form of the same digest: the prefix and the
    hex of the text form have their lengths fixed, and a digest is shorter than any text. -/
theorem eq_of_mem_digestMessages {p p' d d' m : List UInt8} (hd : d.length = 32)
    (hd' : d'.length = 32) (h : m ∈ digestMessages p d) (h' : m ∈ digestMessages p' d') :
    d = d' := by
  simp only [digestMessages, List.mem_cons, List.not_mem_nil, or_false] at h h'
  rcases h with rfl | rfl <;> rcases h' with h' | h'
  · exact h'
  · have := congrArg List.length h'
    simp only [List.length_append, length_hexEncode] at this
    omega
  · have := congrArg List.length h'
    simp only [List.length_append, length_hexEncode] at this
    omega
  · obtain ⟨-, hx⟩ := List.append_inj' h' (by simp only [length_hexEncode, hd, hd'])
    exact Codec.hex_injective (List.append_cancel_left hx)

/-- **Contexts share digests only.** If a byte string that `identity`'s key may sign is
    accepted for a message of one context and a message of another, the two digests are
    equal. -/
theorem digest_eq_of_mem_acc {identity : Identity} {p p' : List UInt8} {d d' : Bytes 32}
    {m m' b : List UInt8} (hp : UpperHead p) (hp' : UpperHead p')
    (hm : m ∈ digestMessages p d.data) (hm' : m' ∈ digestMessages p' d'.data)
    (hb : b ∈ acc identity m) (hb' : b ∈ acc identity m') : d = d' := by
  have heq : m = m' := eq_of_mem_acc (shaped_of_mem_digestMessages hp d.length_eq hm)
    (shaped_of_mem_digestMessages hp' d'.length_eq hm') hb hb'
  subst heq
  exact Bytes.data_injective (eq_of_mem_digestMessages d.length_eq d'.length_eq hm hm')

/-! ## 6. What a link proof binds -/

theorem encodeIndex_injective : Function.Injective encodeIndex := by
  intro a b h
  exact UInt32.toNat_inj.1 (Codec.leBytes_inj a.toNat_lt b.toNat_lt h)

/-- Two link payloads for one identity agree only for the same primary identity and nonce:
    the nonce has a fixed width, and the identity's encoding is injective. -/
theorem linkPayload_inj {who who' identity : Identity} {n n' : UInt32}
    (h : encodeIndex n ++ who.encode ++ identity.encode =
      encodeIndex n' ++ who'.encode ++ identity.encode) : who = who' ∧ n = n' := by
  obtain ⟨hn, hw⟩ := List.append_inj (List.append_cancel_right h) (by simp [encodeIndex])
  exact ⟨Identity.encode_injective hw, encodeIndex_injective hn⟩

/-- **A link proof binds its triple.** Two link proofs of `identity` that pass with the same
    validation data are for the same primary identity and nonce, unless `blake2_256` maps
    their two different payloads to one digest. -/
theorem linkProof_binds {cr : Crypto} {identity who who' : Identity} {n n' : UInt32}
    {vd : Web3ValidationData}
    (h : verifyWeb3Identity cr identity (getExpectedRawMessage cr who identity n) vd = .ok ())
    (h' : verifyWeb3Identity cr identity (getExpectedRawMessage cr who' identity n') vd = .ok ()) :
    (who = who' ∧ n = n') ∨
      (encodeIndex n ++ who.encode ++ identity.encode ≠
          encodeIndex n' ++ who'.encode ++ identity.encode ∧
        cr.blake2_256 (encodeIndex n ++ who.encode ++ identity.encode) =
          cr.blake2_256 (encodeIndex n' ++ who'.encode ++ identity.encode)) := by
  -- the one message received is a form of both expected digests
  have hd : cr.blake2_256 (encodeIndex n ++ who.encode ++ identity.encode) =
      cr.blake2_256 (encodeIndex n' ++ who'.encode ++ identity.encode) :=
    Bytes.data_injective (eq_of_mem_digestMessages (Bytes.length_eq _) (Bytes.length_eq _)
      (verifyWeb3Identity_ok h).1 (verifyWeb3Identity_ok h').1)
  by_cases hp : encodeIndex n ++ who.encode ++ identity.encode =
      encodeIndex n' ++ who'.encode ++ identity.encode
  · exact .inl (linkPayload_inj hp)
  · exact .inr ⟨hp, hd⟩

/-- **No replay without a shared digest.** With ideal schemes, let the owner of
    `identity`'s key have signed nothing but forms of link proofs of `identity`. A trusted
    call that `identity` sends then verifies only if its digest is the digest of one of
    those link payloads. -/
theorem trustedCall_digest_of_links {cr : Crypto} {Signed : List UInt8 → List UInt8 → Prop}
    (hI : Ideal cr Signed) {identity : Identity} {k : List UInt8}
    (hk : identity.signingKey = some k)
    (hlinks : ∀ b, Signed k b → ∃ (who : Identity) (n : UInt32), ∃ m ∈ digestMessages (utf8 "Token: ")
      (getExpectedRawMessage cr who identity n), b ∈ acc identity m)
    {self : TrustedCallSigned} {mrenclave shard : Bytes 32}
    (hs : self.call.senderIdentity = identity) (h : self.verifySignature cr mrenclave shard = true) :
    ∃ (who : Identity) (n : UInt32), cr.blake2_256 (encodeIndex n ++ who.encode ++ identity.encode) =
      cr.blake2_256 (self.call.encode ++ encodeIndex self.nonce ++ mrenclave.data ++ shard.data) := by
  obtain ⟨m', hm', hv⟩ := TrustedCallSigned.verifySignature_iff.1 h
  rw [hs] at hv
  obtain ⟨k', hk', b, hb', hsig⟩ := LitentryMultiSignature.verify_acc hI hv
  rw [hk, Option.some.injEq] at hk'
  subst hk'
  obtain ⟨who, n, m, hm, hb⟩ := hlinks b hsig
  exact ⟨who, n, digest_eq_of_mem_acc upperHead_token
    (TrustedCall.upperHead_signatureMessagePrefix _) hm hm' hb hb'⟩

theorem web3LinkProof_separated :
    (∀ (cr : Crypto) (identity who who' : Identity) (n n' : UInt32) (vd : Web3ValidationData),
      verifyWeb3Identity cr identity (getExpectedRawMessage cr who identity n) vd = .ok () →
      verifyWeb3Identity cr identity (getExpectedRawMessage cr who' identity n') vd = .ok () →
      (who = who' ∧ n = n') ∨
        (encodeIndex n ++ who.encode ++ identity.encode ≠
            encodeIndex n' ++ who'.encode ++ identity.encode ∧
          cr.blake2_256 (encodeIndex n ++ who.encode ++ identity.encode) =
            cr.blake2_256 (encodeIndex n' ++ who'.encode ++ identity.encode))) ∧
    (∀ (cr : Crypto) (identity who : Identity) (n : UInt32) (call : TrustedCall)
      (nonce : UInt32) (mrenclave shard : Bytes 32) (m m' b : List UInt8),
      m ∈ digestMessages (utf8 "Token: ") (getExpectedRawMessage cr who identity n) →
      m' ∈ digestMessages call.signatureMessagePrefix
        (cr.blake2_256 (call.encode ++ encodeIndex nonce ++ mrenclave.data ++ shard.data)).data →
      b ∈ acc identity m → b ∈ acc identity m' →
      cr.blake2_256 (encodeIndex n ++ who.encode ++ identity.encode) =
        cr.blake2_256 (call.encode ++ encodeIndex nonce ++ mrenclave.data ++ shard.data)) ∧
    (∀ (cr : Crypto) (identity who : Identity) (n : UInt32) (getter : TrustedGetter)
      (m m' b : List UInt8),
      m ∈ digestMessages (utf8 "Token: ") (getExpectedRawMessage cr who identity n) →
      m' ∈ digestMessages getter.signatureMessagePrefix (cr.blake2_256 getter.encode).data →
      b ∈ acc identity m → b ∈ acc identity m' →
      cr.blake2_256 (encodeIndex n ++ who.encode ++ identity.encode) =
        cr.blake2_256 getter.encode) := by
  refine ⟨fun cr identity who who' n n' vd h h' => linkProof_binds h h', ?_, ?_⟩
  · intro cr identity who n call nonce mrenclave shard m m' b hm hm' hb hb'
    exact digest_eq_of_mem_acc upperHead_token (TrustedCall.upperHead_signatureMessagePrefix call)
      hm hm' hb hb'
  · intro cr identity who n getter m m' b hm hm' hb hb'
    exact digest_eq_of_mem_acc upperHead_token
      (TrustedGetter.upperHead_signatureMessagePrefix getter) hm hm' hb hb'

/-! ## 7. A link payload that is a trusted call's -/

/-- A substrate account whose bytes 2 and 3 are `0` and `252`: the twitter tag and the
    compact length `63`. -/
def collidingAccount : Bytes 32 := ⟨[0, 0, 0, 252] ++ List.replicate 28 0, rfl⟩

/-- A twitter handle of 63 zero bytes. -/
def collidingHandle : IdentityString := ⟨List.replicate 63 0, by decide⟩

/-- An enclave measurement that ends with `3`, the substrate tag. -/
def collidingMrenclave : Bytes 32 := ⟨List.replicate 31 0 ++ [3], rfl⟩

/-- The link payload of `twitter(collidingHandle)` linking `substrate(collidingAccount)` at
    sidechain nonce `818 = 50 + 3 * 256` spells out `noop(substrate(collidingAccount))` at
    nonce `0`, for the enclave `collidingMrenclave` and the shard `collidingAccount`. -/
theorem linkPayload_eq_noopPayload :
    encodeIndex 818 ++ (Identity.twitter collidingHandle).encode ++
        (Identity.substrate collidingAccount).encode =
      (TrustedCall.noop (.substrate collidingAccount)).encode ++ encodeIndex 0 ++
        collidingMrenclave.data ++ collidingAccount.data := by
  decide

theorem linkProof_replays_as_noop (cr : Crypto) :
    (∃ m ∈ digestMessages (utf8 "Token: ")
        (getExpectedRawMessage cr (.twitter collidingHandle) (.substrate collidingAccount) 818),
      ∃ m' ∈ digestMessages (TrustedCall.noop (.substrate collidingAccount)).signatureMessagePrefix
        (cr.blake2_256 ((TrustedCall.noop (.substrate collidingAccount)).encode ++ encodeIndex 0 ++
          collidingMrenclave.data ++ collidingAccount.data)).data,
      ∃ b, b ∈ acc (.substrate collidingAccount) m ∧ b ∈ acc (.substrate collidingAccount) m') ∧
    ∀ vd : Web3ValidationData,
      verifyWeb3Identity cr (.substrate collidingAccount)
        (getExpectedRawMessage cr (.twitter collidingHandle) (.substrate collidingAccount) 818)
        vd = .ok () →
      TrustedCallSigned.verifySignature cr ⟨.noop (.substrate collidingAccount), 0, vd.signature⟩
        collidingMrenclave collidingAccount = true := by
  -- both contexts hash one payload, and `noop` has the link proof's prefix
  have hraw : getExpectedRawMessage cr (.twitter collidingHandle) (.substrate collidingAccount)
      818 = (cr.blake2_256 ((TrustedCall.noop (.substrate collidingAccount)).encode ++
        encodeIndex 0 ++ collidingMrenclave.data ++ collidingAccount.data)).data := by
    rw [getExpectedRawMessage, linkPayload_eq_noopPayload]
  have hpfx : (TrustedCall.noop (.substrate collidingAccount)).signatureMessagePrefix =
      utf8 "Token: " := rfl
  constructor
  · -- the bare digest is a message of both, and a substrate key may sign it as it is
    obtain ⟨raw, hr⟩ : ∃ raw, getExpectedRawMessage cr (.twitter collidingHandle)
        (.substrate collidingAccount) 818 = raw := ⟨_, rfl⟩
    rw [hr] at hraw ⊢
    have hmem : raw ∈ acc (.substrate collidingAccount) raw := by simp [acc]
    exact ⟨raw, by simp [digestMessages], raw,
      by simp only [digestMessages, ← hraw, List.mem_cons, true_or], raw, hmem, hmem⟩
  · intro vd h
    obtain ⟨-, m, hm, hv⟩ := verifyWeb3Identity_ok h
    rw [hraw, ← hpfx] at hm
    exact TrustedCallSigned.verifySignature_iff.2 ⟨m, hm, hv⟩

/-- Primitives whose hash keeps the first 32 bytes of its input, zero padded, and whose sr25519
    check takes a signature for the messages it starts with; the other schemes accept nothing. -/
def prefixCrypto : Crypto :=
  ⟨fun l => ⟨(l ++ List.replicate 32 0).take 32, by simp⟩, fun _ _ _ => false,
    fun sig msg _ => sig.data.take msg.length == msg, fun _ _ => none, fun _ _ _ => false,
    fun _ _ _ => false⟩

/-- Under `prefixCrypto` a link proof of `twitter(collidingHandle)` for
    `substrate(collidingAccount)` passes `verify_web3_identity`, and its signature signs the
    account's `noop` call. -/
theorem linkProof_replays_as_noop_at_prefixCrypto :
    (∃ m ∈ digestMessages (utf8 "Token: ")
        (getExpectedRawMessage prefixCrypto (.twitter collidingHandle) (.substrate collidingAccount) 818),
      ∃ m' ∈ digestMessages (TrustedCall.noop (.substrate collidingAccount)).signatureMessagePrefix
        (prefixCrypto.blake2_256 ((TrustedCall.noop (.substrate collidingAccount)).encode ++
          encodeIndex 0 ++ collidingMrenclave.data ++ collidingAccount.data)).data,
      ∃ b, b ∈ acc (.substrate collidingAccount) m ∧ b ∈ acc (.substrate collidingAccount) m') ∧
    ∃ vd : Web3ValidationData,
      verifyWeb3Identity prefixCrypto (.substrate collidingAccount)
        (getExpectedRawMessage prefixCrypto (.twitter collidingHandle) (.substrate collidingAccount) 818)
        vd = .ok () ∧
      TrustedCallSigned.verifySignature prefixCrypto ⟨.noop (.substrate collidingAccount), 0, vd.signature⟩
        collidingMrenclave collidingAccount = true := by
  obtain ⟨hacc, hreplay⟩ := linkProof_replays_as_noop prefixCrypto
  obtain ⟨raw, hr⟩ : ∃ raw, getExpectedRawMessage prefixCrypto (.twitter collidingHandle)
      (.substrate collidingAccount) 818 = raw := ⟨_, rfl⟩
  rw [hr] at hacc hreplay ⊢
  have hlen : raw.length = 32 := by
    rw [← hr, getExpectedRawMessage]
    exact Bytes.length_eq _
  -- the account's key signs the digest itself, with the sr25519 scheme
  have hok := verifyWeb3Identity_of_sr25519 (a := collidingAccount) (by omega)
    (show prefixCrypto.sr25519Verify ⟨raw ++ List.replicate 32 0, by simp [hlen]⟩ raw _ = true by
      simp [prefixCrypto])
  exact ⟨hacc, _, hok, hreplay _ hok⟩


/-- The digest of the colliding link proof under `prefixCrypto`. -/
def collidingDigest : List UInt8 :=
  getExpectedRawMessage prefixCrypto (.twitter collidingHandle) (.substrate collidingAccount) 818

/-- `prefixCrypto` with an sr25519 scheme under which the key of `collidingAccount` has signed
    the colliding link proof's digest and nothing else. -/
def linkSignerCrypto : Crypto :=
  { prefixCrypto with
    sr25519Verify := fun sig msg k =>
      k == collidingAccount && msg == collidingDigest && sig.data.take msg.length == msg }

/-- `linkSignerCrypto` is ideal for the one signature: `collidingAccount` over
    `collidingDigest`. -/
theorem linkSignerCrypto_ideal :
    Ideal linkSignerCrypto fun k b => k = collidingAccount.data ∧ b = collidingDigest where
  ed25519 s m k h := by simp [linkSignerCrypto, prefixCrypto] at h
  sr25519 s m k h := by
    simp only [linkSignerCrypto, Bool.and_eq_true, beq_iff_eq] at h
    exact ⟨by rw [h.1.1], h.1.2⟩
  ecdsa s m k pk h := by simp [linkSignerCrypto, prefixCrypto] at h
  evm m s k h := by simp [linkSignerCrypto, prefixCrypto] at h
  bitcoin m s k h := by simp [linkSignerCrypto, prefixCrypto] at h

/-- With ideal signatures and a key that signed only the colliding link proof, the account's
    `noop` call still verifies, and its digest is that link payload's. -/
theorem trustedCall_digest_of_links_at_collision : ∃ (who : Identity) (n : UInt32),
    linkSignerCrypto.blake2_256 (encodeIndex n ++ who.encode ++ (Identity.substrate collidingAccount).encode) =
      linkSignerCrypto.blake2_256 ((TrustedCall.noop (.substrate collidingAccount)).encode ++
        encodeIndex 0 ++ collidingMrenclave.data ++ collidingAccount.data) := by
  have hlen : collidingDigest.length = 32 := Bytes.length_eq _
  -- the link proof the key signed passes `verify_web3_identity`
  have hok := verifyWeb3Identity_of_sr25519 (a := collidingAccount)
    (by omega) (show linkSignerCrypto.sr25519Verify
      ⟨collidingDigest ++ List.replicate 32 0, by simp [hlen]⟩ collidingDigest _ = true by
      simp [linkSignerCrypto])
  have hverify := (linkProof_replays_as_noop linkSignerCrypto).2 _ hok
  refine trustedCall_digest_of_links linkSignerCrypto_ideal rfl (fun b hb => ?_) rfl hverify
  -- the one message signed is the bare digest of the link proof
  refine ⟨.twitter collidingHandle, 818, collidingDigest, ?_, ?_⟩
  · change collidingDigest ∈ digestMessages _ collidingDigest
    simp [digestMessages]
  · rw [hb.2]
    simp [acc, TrustedCall.senderIdentity]

end Stf
end Litentry
