import Litentry.Primitives.Identity
import Litentry.Lib.Encoding

/-!
# DIDs of identities

`Identity::to_did` writes an identity as `did:litentry:<type>:<value>`: a web3 address as
`0x`-prefixed lowercase hex (`hex_encode`) or, for Solana, base58; a web2 handle as its
bytes, when they are UTF-8. `Identity::from_did` reads one back: it checks the prefix,
splits the rest on `:` and needs exactly two parts, then decodes the value by the type.
The enclave's RPC handlers feed it strings from clients.

Two things about the pair are proved here.

* `from_did` is not total. It calls `.unwrap()` on the results of `decode_hex` and
  `from_base58` before the length check that maps to an `Err`, so a DID of a hex type whose
  value is not hex, or a Solana DID whose value is not base58, panics
  (`fromDid_panics_on_malformed_value`).
* The round trip holds except for web2 handles with a `:`. For every identity whose
  `to_did` succeeds and whose handle, if it has one, has no `:`, `from_did` gives it back
  (`fromDid_toDid`). A handle with a `:` splits into three parts or more, and `from_did`
  answers `Wrong did suffix` (`fromDid_toDid_fails_on_colon`). `to_did` is injective where
  it succeeds (`toDid_injective`).

Strings are their UTF-8 bytes, so `from_did` is modelled on every byte string, not only the
valid UTF-8 ones. A panic is the outcome `DidFailure.panic`, beside the `Err` messages.
-/

set_option autoImplicit false

namespace Litentry

/-- `:`. -/
def colon : UInt8 := 58

/-- `hex_encode`: `0x`, then `hex::encode`. -/
def hexEncode (data : List UInt8) : List UInt8 := ascii "0x" ++ Hex.encode data

/-- `decode_hex`: a leading `0x` is dropped, then `hex::decode`. -/
def decodeHex (message : List UInt8) : Except Hex.FromHexError (List UInt8) :=
  if message.take 2 = ascii "0x" then Hex.decode (message.drop 2) else Hex.decode message

theorem decodeHex_hexEncode (data : List UInt8) : decodeHex (hexEncode data) = .ok data := by
  have htake : (hexEncode data).take 2 = ascii "0x" := rfl
  rw [decodeHex, if_pos htake]
  exact Hex.decode_encode data

theorem colon_not_mem_hexEncode (data : List UInt8) : colon ∉ hexEncode data := by
  intro h
  rcases List.mem_append.1 h with h | h
  · exact absurd h (by decide)
  · have := Hex.mem_encode h
    simp only [colon, UInt8.reduceToNat] at this
    omega

theorem colon_not_mem_base58 (data : List UInt8) : colon ∉ Base58.encode data := fun h =>
  absurd (Base58.mem_encode h) (by decide)

/-- `IdentityString::new`: `BoundedVec::truncate_from`, the first 64 bytes. -/
def IdentityString.new (inner : List UInt8) : IdentityString :=
  ⟨inner.take 64, by simp⟩

theorem IdentityString.new_inner (h : IdentityString) : IdentityString.new h.inner = h := by
  obtain ⟨inner, hlen⟩ := h
  simp [IdentityString.new, List.take_of_length_le hlen]

/-- How `from_did` ends when it does not return `Ok`: an `Err` with its message, or a panic
    of one of its `unwrap`s. -/
inductive DidFailure where
  | err (msg : String)
  | panic
  deriving DecidableEq, Repr

/-- `.unwrap()`: the error of a decoder panics. -/
def unwrap {ε α : Type} : Except ε α → Except DidFailure α
  | .ok a => pure a
  | .error _ => throw .panic

/-- `.as_slice().try_into()` into an `[u8; n]`, its error mapped to `msg`. -/
def toAddress (n : Nat) (msg : String) (bytes : List UInt8) : Except DidFailure (Bytes n) :=
  if h : bytes.length = n then pure ⟨bytes, h⟩ else throw (.err msg)

theorem toAddress_data {n : Nat} (a : Bytes n) (msg : String) : toAddress n msg a.data = .ok a := by
  rw [toAddress, dif_pos a.length_eq]
  rfl

namespace Identity

/-- The body of `from_did` once the suffix has split into a type and a value. -/
def fromDidParts (kind value : List UInt8) : Except DidFailure Identity :=
  if kind = ascii "substrate" then do
    let bytes ← unwrap (decodeHex value)
    return .substrate (← toAddress 32 "Address32 conversion error" bytes)
  else if kind = ascii "evm" then do
    let bytes ← unwrap (decodeHex value)
    return .evm (← toAddress 20 "Address20 conversion error" bytes)
  else if kind = ascii "bitcoin" then do
    let bytes ← unwrap (decodeHex value)
    return .bitcoin (← toAddress 33 "Address33 conversion error" bytes)
  else if kind = ascii "solana" then do
    let bytes ← unwrap (Base58.decode value)
    return .solana (← toAddress 32 "Address32 conversion error" bytes)
  else if kind = ascii "github" then pure (.github (IdentityString.new value))
  else if kind = ascii "discord" then pure (.discord (IdentityString.new value))
  else if kind = ascii "twitter" then pure (.twitter (IdentityString.new value))
  else throw (.err "Unknown did type")

/-- `Identity::from_did`. -/
def fromDid (s : List UInt8) : Except DidFailure Identity :=
  if (ascii "did:litentry:").isPrefixOf s then
    match (s.drop (ascii "did:litentry:").length).splitOn colon with
    | [kind, value] => fromDidParts kind value
    | _ => throw (.err "Wrong did suffix")
  else throw (.err "Wrong did prefix")

/-- `str::from_utf8(handle)` inside `to_did`, with its error message. -/
def handleStr (handle : IdentityString) (msg : String) : Except String (List UInt8) :=
  if Utf8.valid handle.inner then pure handle.inner else throw msg

/-- `Identity::to_did`. -/
def toDid (id : Identity) : Except String (List UInt8) := do
  let suffix ← match id with
    | .evm address => pure (ascii "evm:" ++ hexEncode address.data)
    | .substrate address => pure (ascii "substrate:" ++ hexEncode address.data)
    | .bitcoin address => pure (ascii "bitcoin:" ++ hexEncode address.data)
    | .solana address => pure (ascii "solana:" ++ Base58.encode address.data)
    | .twitter handle => (ascii "twitter:" ++ ·) <$> handleStr handle "twitter handle conversion error"
    | .discord handle => (ascii "discord:" ++ ·) <$> handleStr handle "discord handle conversion error"
    | .github handle => (ascii "github:" ++ ·) <$> handleStr handle "github handle conversion error"
  pure (ascii "did:litentry:" ++ suffix)

/-! ## The parts of a DID -/

/-- The type an identity's DID names. -/
def didType : Identity → List UInt8
  | .evm _ => ascii "evm"
  | .substrate _ => ascii "substrate"
  | .bitcoin _ => ascii "bitcoin"
  | .solana _ => ascii "solana"
  | .twitter _ => ascii "twitter"
  | .discord _ => ascii "discord"
  | .github _ => ascii "github"

/-- `"<type>:"`, as `to_did` writes it. -/
def didTag : Identity → List UInt8
  | .evm _ => ascii "evm:"
  | .substrate _ => ascii "substrate:"
  | .bitcoin _ => ascii "bitcoin:"
  | .solana _ => ascii "solana:"
  | .twitter _ => ascii "twitter:"
  | .discord _ => ascii "discord:"
  | .github _ => ascii "github:"

theorem didTag_eq (id : Identity) : id.didTag = id.didType ++ [colon] := by
  cases id <;> rfl

/-- The value an identity's DID writes, UTF-8 or not. -/
def didValue : Identity → List UInt8
  | .evm address | .substrate address => hexEncode address.data
  | .bitcoin address => hexEncode address.data
  | .solana address => Base58.encode address.data
  | .twitter handle | .discord handle | .github handle => handle.inner

/-- The handle of a web2 identity. -/
def handle? : Identity → Option IdentityString
  | .twitter handle | .discord handle | .github handle => some handle
  | _ => none

theorem colon_not_mem_didType (id : Identity) : colon ∉ id.didType := by
  cases id <;> simp only [didType] <;> decide

/-- Where every handle is UTF-8, `to_did` writes the prefix, the tag and the value. -/
theorem toDid_of_valid {id : Identity} (hv : ∀ h, id.handle? = some h → Utf8.valid h.inner = true) :
    id.toDid = .ok (ascii "did:litentry:" ++ (id.didTag ++ id.didValue)) := by
  cases id with
  | evm a | substrate a | bitcoin a | solana a => rfl
  | twitter h | discord h | github h =>
    have hvalid := hv h rfl
    simp only [toDid, handleStr, hvalid, if_true]
    rfl

/-- A handle that is not UTF-8 makes `to_did` fail. -/
theorem toDid_of_invalid {id : Identity} {h : IdentityString} (hh : id.handle? = some h)
    (hinv : Utf8.valid h.inner = false) : ∃ msg, id.toDid = .error msg := by
  cases id with
  | evm a | substrate a | bitcoin a | solana a => cases hh
  | twitter h' | discord h' | github h' =>
    cases hh
    simp only [toDid, handleStr, hinv]
    exact ⟨_, rfl⟩

/-- `to_did` succeeds exactly where every handle is UTF-8, and writes the prefix, the type,
    `:` and the value. -/
theorem toDid_eq_ok {id : Identity} {s : List UInt8} :
    id.toDid = .ok s ↔ (∀ h, id.handle? = some h → Utf8.valid h.inner = true) ∧
      s = ascii "did:litentry:" ++ id.didType ++ colon :: id.didValue := by
  have hs : ascii "did:litentry:" ++ (id.didTag ++ id.didValue) =
      ascii "did:litentry:" ++ id.didType ++ colon :: id.didValue := by
    rw [didTag_eq]
    simp
  constructor
  · intro hok
    have hv : ∀ h, id.handle? = some h → Utf8.valid h.inner = true := by
      intro h hh
      by_contra hinv
      obtain ⟨msg, herr⟩ := toDid_of_invalid hh (by simpa using hinv)
      rw [hok] at herr
      cases herr
    refine ⟨hv, ?_⟩
    rw [toDid_of_valid hv] at hok
    rw [← hs]
    exact (Except.ok.inj hok).symm
  · rintro ⟨hv, rfl⟩
    rw [toDid_of_valid hv, hs]

/-- A DID of the form `did:litentry:<kind>:<value>` with no other `:` reaches the dispatch
    on its type. -/
theorem fromDid_of_parts {kind value : List UInt8} (hk : colon ∉ kind) (hv : colon ∉ value) :
    fromDid (ascii "did:litentry:" ++ kind ++ colon :: value) = fromDidParts kind value := by
  have hprefix : (ascii "did:litentry:").isPrefixOf (ascii "did:litentry:" ++ kind ++ colon :: value) :=
    List.isPrefixOf_iff_prefix.2 (by simp [List.append_assoc])
  have hsplit : (kind ++ colon :: value).splitOn colon = [kind, value] := by
    rw [List.splitOn_append_cons_self_of_not_mem hk, List.splitOn_eq_singleton hv]
  rw [fromDid, if_pos hprefix, List.append_assoc, List.drop_left, hsplit]

/-- A value with a `:` splits the suffix into three parts or more. -/
theorem fromDid_of_colon {kind value : List UInt8} (hk : colon ∉ kind) (hv : colon ∈ value) :
    fromDid (ascii "did:litentry:" ++ kind ++ colon :: value) = .error (.err "Wrong did suffix") := by
  have hprefix : (ascii "did:litentry:").isPrefixOf (ascii "did:litentry:" ++ kind ++ colon :: value) :=
    List.isPrefixOf_iff_prefix.2 (by simp [List.append_assoc])
  -- the value splits at its first `:`, into two parts or more
  obtain ⟨pre, post, hpre, rfl⟩ : ∃ pre post, colon ∉ pre ∧ value = pre ++ colon :: post := by
    obtain ⟨pre, post, hpre, h, -⟩ := List.exists_erase_eq hv
    exact ⟨pre, post, hpre, h⟩
  have hsplit : (kind ++ colon :: (pre ++ colon :: post)).splitOn colon =
      kind :: pre :: post.splitOn colon := by
    rw [List.splitOn_append_cons_self_of_not_mem hk, List.splitOn_append_cons_self_of_not_mem hpre]
  rw [fromDid, if_pos hprefix, List.append_assoc, List.drop_left, hsplit]
  cases hpost : post.splitOn colon with
  | nil => exact absurd hpost (List.splitOn_ne_nil _ _)
  | cons _ _ => rfl

/-! ## The round trip -/

/-- The dispatch on the type reads every identity's value back. -/
theorem fromDidParts_didType (id : Identity) : fromDidParts id.didType id.didValue = .ok id := by
  -- the type selects its branch; the decoder there inverts the encoder
  cases id with
  | evm a | substrate a | bitcoin a =>
    simp +decide only [fromDidParts, didType, didValue, if_true, if_false,
      decodeHex_hexEncode, unwrap, pure_bind, toAddress_data]
    rfl
  | solana a =>
    simp +decide only [fromDidParts, didType, didValue, if_true, if_false,
      Base58.decode_encode a.data (by rw [a.length_eq]; norm_num), unwrap, pure_bind, toAddress_data]
    rfl
  | twitter h | discord h | github h =>
    simp +decide only [fromDidParts, didType, didValue, if_true, if_false,
      IdentityString.new_inner]
    rfl

/-- A value has a `:` only where a handle has one. -/
theorem colon_not_mem_didValue (id : Identity) (hc : ∀ h, id.handle? = some h → colon ∉ h.inner) :
    colon ∉ id.didValue := by
  cases id with
  | evm a | substrate a | bitcoin a => exact colon_not_mem_hexEncode a.data
  | solana a => exact colon_not_mem_base58 a.data
  | twitter h | discord h | github h => exact hc h rfl

/-- **The round trip.** Every identity whose `to_did` succeeds, and whose handle, if it has
    one, has no `:`, is what `from_did` reads back. -/
theorem fromDid_toDid {id : Identity} {s : List UInt8} (hs : id.toDid = .ok s)
    (hc : ∀ h, id.handle? = some h → colon ∉ h.inner) : fromDid s = .ok id := by
  obtain ⟨-, rfl⟩ := toDid_eq_ok.1 hs
  rw [fromDid_of_parts (colon_not_mem_didType id) (colon_not_mem_didValue id hc)]
  exact fromDidParts_didType id

/-- The twitter handle `litentry`. -/
def litentryHandle : IdentityString := ⟨ascii "litentry", by decide⟩

theorem fromDid_toDid_twitter : ∃ s, (Identity.twitter litentryHandle).toDid = .ok s ∧
    fromDid s = .ok (Identity.twitter litentryHandle) := by
  obtain ⟨s, hs⟩ : ∃ s, (Identity.twitter litentryHandle).toDid = .ok s := ⟨_, rfl⟩
  refine ⟨s, hs, fromDid_toDid hs fun h hh => ?_⟩
  cases hh
  decide

/-- `to_did` is injective where it succeeds: the type is the part before the first `:`, and
    the dispatch on the type reads the identity off the value. -/
theorem toDid_injective {a b : Identity} {s : List UInt8} (ha : a.toDid = .ok s)
    (hb : b.toDid = .ok s) : a = b := by
  obtain ⟨-, rfl⟩ := toDid_eq_ok.1 ha
  obtain ⟨-, hs⟩ := toDid_eq_ok.1 hb
  rw [List.append_assoc, List.append_assoc] at hs
  have hparts := List.append_cancel_left hs
  have hsplit := congrArg (List.splitOn colon) hparts
  rw [List.splitOn_append_cons_self_of_not_mem (colon_not_mem_didType a),
    List.splitOn_append_cons_self_of_not_mem (colon_not_mem_didType b)] at hsplit
  have htype : a.didType = b.didType := (List.cons.inj hsplit).1
  rw [htype] at hparts
  have hvalue : a.didValue = b.didValue := (List.cons.inj (List.append_cancel_left hparts)).2
  have hread := fromDidParts_didType a
  rw [htype, hvalue, fromDidParts_didType b] at hread
  exact (Except.ok.inj hread).symm

/-! ## Where the round trip and totality fail -/

/-- **`from_did` panics on malformed values.** A DID of a hex type whose value `decode_hex`
    rejects, or a Solana DID whose value `from_base58` rejects, reaches the `.unwrap()` of the
    decoder's error, for every such value with no `:` in it. -/
theorem fromDid_panics_on_malformed_value (kind value : List UInt8) (hv : colon ∉ value)
    (hmalformed : (kind ∈ [ascii "substrate", ascii "evm", ascii "bitcoin"] ∧
        ∃ e, decodeHex value = .error e) ∨
      (kind = ascii "solana" ∧ ∃ e, Base58.decode value = .error e)) :
    fromDid (ascii "did:litentry:" ++ kind ++ colon :: value) = .error .panic := by
  rcases hmalformed with ⟨hkind, e, he⟩ | ⟨rfl, e, he⟩
  · -- a hex type: its branch unwraps the error of `decode_hex`
    simp only [List.mem_cons, List.not_mem_nil, or_false] at hkind
    rcases hkind with rfl | rfl | rfl <;>
    · rw [fromDid_of_parts (by decide) hv]
      simp +decide only [fromDidParts, if_true, if_false, he, unwrap]
  · -- Solana: its branch unwraps the error of `from_base58`
    rw [fromDid_of_parts (by decide) hv]
    simp +decide only [fromDidParts, if_true, if_false, he, unwrap]

/-- The failing input: `did:litentry:substrate:zz`. -/
theorem fromDid_panics_on_non_hex_substrate :
    colon ∉ ascii "zz" ∧
      ((ascii "substrate" ∈ [ascii "substrate", ascii "evm", ascii "bitcoin"] ∧
          ∃ e, decodeHex (ascii "zz") = .error e) ∨
        (ascii "substrate" = ascii "solana" ∧ ∃ e, Base58.decode (ascii "zz") = .error e)) ∧
      fromDid (ascii "did:litentry:" ++ ascii "substrate" ++ colon :: ascii "zz") =
        .error .panic := by
  have hv : colon ∉ ascii "zz" := by decide
  have hm : (ascii "substrate" ∈ [ascii "substrate", ascii "evm", ascii "bitcoin"] ∧
        ∃ e, decodeHex (ascii "zz") = .error e) ∨
      (ascii "substrate" = ascii "solana" ∧ ∃ e, Base58.decode (ascii "zz") = .error e) :=
    .inl ⟨by decide, _, rfl⟩
  exact ⟨hv, hm, fromDid_panics_on_malformed_value _ _ hv hm⟩

/-- **The round trip fails on a handle with a `:`.** For every web2 identity whose handle is
    UTF-8 and has a `:`, `to_did` succeeds and `from_did` of its DID answers
    `Wrong did suffix`. -/
theorem fromDid_toDid_fails_on_colon (id : Identity) (h : IdentityString)
    (hh : id.handle? = some h) (hvalid : Utf8.valid h.inner = true) (hcolon : colon ∈ h.inner) :
    ∃ s, id.toDid = .ok s ∧ fromDid s = .error (.err "Wrong did suffix") := by
  have hv : ∀ h', id.handle? = some h' → Utf8.valid h'.inner = true := by
    intro h' hh'
    rw [hh] at hh'
    cases hh'
    exact hvalid
  have hvalue : id.didValue = h.inner := by
    cases id <;> cases hh <;> rfl
  refine ⟨_, toDid_eq_ok.2 ⟨hv, rfl⟩, ?_⟩
  rw [hvalue]
  exact fromDid_of_colon (colon_not_mem_didType id) hcolon

/-- The handle `a:b`. -/
def colonHandle : IdentityString := ⟨ascii "a:b", by decide⟩

/-- The failing input: the Twitter handle `a:b`. -/
theorem fromDid_toDid_fails_on_twitter_colon :
    (twitter colonHandle).handle? = some colonHandle ∧ Utf8.valid colonHandle.inner = true ∧
      colon ∈ colonHandle.inner ∧
      ∃ s, (twitter colonHandle).toDid = .ok s ∧ fromDid s = .error (.err "Wrong did suffix") :=
  ⟨rfl, by decide, by decide,
    fromDid_toDid_fails_on_colon _ colonHandle rfl (by decide) (by decide)⟩

end Identity

end Litentry
