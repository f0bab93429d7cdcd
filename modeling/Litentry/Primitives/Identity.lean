import Litentry.Lib.Codec

/-!
# Identities and web3 networks

The two types of `primitives/core` the identity store is keyed and tagged with:
`Web3Network` (`assertion/network.rs`), the networks an identity may be used on,
ordered as its derived `Ord` orders it, by declaration, which is the order of its
codes; and `Identity` (`identity.rs`), a web2 handle or a web3 address.

`Identity::matches_web3networks` is the admission test for the networks of an
identity, and `default_web3networks` the networks a prime identity gets. The one
fact the store relies on, `matchesWeb3networks_default`, is that every identity's
defaults pass its own test; and `dedup` (sort, then drop repeats) keeps the test.
-/

set_option autoImplicit false

namespace Litentry

/-! ## 1. `Web3Network` -/

/-- `Web3Network`, in declaration order. -/
inductive Web3Network where
  | polkadot
  | kusama
  | litentry
  | litmus
  | litentryRococo
  | khala
  | substrateTestnet
  | ethereum
  | bsc
  | bitcoinP2tr
  | bitcoinP2pkh
  | bitcoinP2sh
  | bitcoinP2wpkh
  | bitcoinP2wsh
  | polygon
  | arbitrum
  | solana
  | combo
  deriving DecidableEq, Repr

namespace Web3Network

/-- `get_code`: the codec index. -/
def getCode : Web3Network → Nat
  | polkadot => 0
  | kusama => 1
  | litentry => 2
  | litmus => 3
  | litentryRococo => 4
  | khala => 5
  | substrateTestnet => 6
  | ethereum => 7
  | bsc => 8
  | bitcoinP2tr => 9
  | bitcoinP2pkh => 10
  | bitcoinP2sh => 11
  | bitcoinP2wpkh => 12
  | bitcoinP2wsh => 13
  | polygon => 14
  | arbitrum => 15
  | solana => 16
  | combo => 17

/-- `from_code`. -/
def fromCode : Nat → Option Web3Network
  | 0 => some polkadot
  | 1 => some kusama
  | 2 => some litentry
  | 3 => some litmus
  | 4 => some litentryRococo
  | 5 => some khala
  | 6 => some substrateTestnet
  | 7 => some ethereum
  | 8 => some bsc
  | 9 => some bitcoinP2tr
  | 10 => some bitcoinP2pkh
  | 11 => some bitcoinP2sh
  | 12 => some bitcoinP2wpkh
  | 13 => some bitcoinP2wsh
  | 14 => some polygon
  | 15 => some arbitrum
  | 16 => some solana
  | 17 => some combo
  | _ => none

theorem fromCode_getCode (n : Web3Network) : fromCode n.getCode = some n := by
  cases n <;> rfl

theorem getCode_injective : Function.Injective getCode := by
  intro a b h
  have := fromCode_getCode a
  rw [h, fromCode_getCode] at this
  exact (Option.some.inj this).symm

/-- The derived `Ord`: declaration order, which is the order of the codes. -/
instance : LinearOrder Web3Network := LinearOrder.lift' getCode getCode_injective

/-- `is_substrate`. -/
def isSubstrate : Web3Network → Bool
  | polkadot | kusama | litentry | litmus | litentryRococo | khala | substrateTestnet => true
  | _ => false

/-- `is_evm`. -/
def isEvm : Web3Network → Bool
  | ethereum | bsc | polygon | arbitrum | combo => true
  | _ => false

/-- `is_bitcoin`. -/
def isBitcoin : Web3Network → Bool
  | bitcoinP2tr | bitcoinP2pkh | bitcoinP2sh | bitcoinP2wpkh | bitcoinP2wsh => true
  | _ => false

/-- `is_solana`. -/
def isSolana : Web3Network → Bool
  | solana => true
  | _ => false

/-- `get_name`. -/
def getName : Web3Network → String
  | polkadot => "polkadot"
  | kusama => "kusama"
  | litentry => "litentry"
  | litmus => "litmus"
  | litentryRococo => "litentry_rococo"
  | khala => "khala"
  | substrateTestnet => "substrate_testnet"
  | ethereum => "ethereum"
  | bsc => "bsc"
  | bitcoinP2tr => "bitcoin_p2tr"
  | bitcoinP2pkh => "bitcoin_p2pkh"
  | bitcoinP2sh => "bitcoin_p2sh"
  | bitcoinP2wpkh => "bitcoin_p2wpkh"
  | bitcoinP2wsh => "bitcoin_p2wsh"
  | polygon => "polygon"
  | arbitrum => "arbitrum"
  | solana => "solana"
  | combo => "combo"

end Web3Network

open Web3Network

/-- `all_web3networks`: `Web3Network::iter()`, in declaration order. -/
def allWeb3networks : List Web3Network :=
  [polkadot, kusama, litentry, litmus, litentryRococo, khala, substrateTestnet, ethereum, bsc,
    bitcoinP2tr, bitcoinP2pkh, bitcoinP2sh, bitcoinP2wpkh, bitcoinP2wsh, polygon, arbitrum,
    solana, combo]

/-- `all_substrate_web3networks`. -/
def allSubstrateWeb3networks : List Web3Network := allWeb3networks.filter isSubstrate

/-- `all_evm_web3networks`. -/
def allEvmWeb3networks : List Web3Network := allWeb3networks.filter isEvm

/-- `all_bitcoin_web3networks`. -/
def allBitcoinWeb3networks : List Web3Network := allWeb3networks.filter isBitcoin

/-- `all_solana_web3networks`. -/
def allSolanaWeb3networks : List Web3Network := allWeb3networks.filter isSolana

/-! ## 2. `Identity` -/

/-- A byte array `[u8; n]`. -/
structure Bytes (n : Nat) where
  data : List UInt8
  length_eq : data.length = n
  deriving DecidableEq

/-- `IdentityString`: a `BoundedVec<u8, ConstU32<64>>`. -/
structure IdentityString where
  inner : List UInt8
  length_le : inner.length ≤ 64
  deriving DecidableEq

/-- `Identity`: a web2 handle, or a web3 address (`Address32`, `Address20`,
    `Address33`). -/
inductive Identity where
  | twitter (handle : IdentityString)
  | discord (handle : IdentityString)
  | github (handle : IdentityString)
  | substrate (address : Bytes 32)
  | evm (address : Bytes 20)
  | bitcoin (address : Bytes 33)
  | solana (address : Bytes 32)
  deriving DecidableEq

namespace Identity

/-- `default_web3networks`. -/
def defaultWeb3networks : Identity → List Web3Network
  | substrate _ => allSubstrateWeb3networks
  | evm _ => allEvmWeb3networks
  | bitcoin _ => allBitcoinWeb3networks
  | solana _ => allSolanaWeb3networks
  | twitter _ | discord _ | github _ => []

/-- `matches_web3networks`: a web3 address takes a nonempty list of networks of
    its own kind, a web2 handle none. -/
def matchesWeb3networks : Identity → List Web3Network → Bool
  | substrate _, networks => !networks.isEmpty && networks.all isSubstrate
  | evm _, networks => !networks.isEmpty && networks.all isEvm
  | bitcoin _, networks => !networks.isEmpty && networks.all isBitcoin
  | solana _, networks => !networks.isEmpty && networks.all isSolana
  | twitter _, networks | discord _, networks | github _, networks => networks.isEmpty

/-- Every identity's default networks pass its own test. -/
theorem matchesWeb3networks_default (id : Identity) :
    id.matchesWeb3networks id.defaultWeb3networks = true := by
  cases id <;> rfl

/-- The test only asks which networks occur: two lists with the same members
    pass it alike. -/
theorem matchesWeb3networks_congr (id : Identity) {l l' : List Web3Network}
    (h : ∀ n, n ∈ l ↔ n ∈ l') : id.matchesWeb3networks l = id.matchesWeb3networks l' := by
  have hnil : l.isEmpty = l'.isEmpty := by
    cases l with
    | nil =>
      cases l' with
      | nil => rfl
      | cons n _ => exact absurd ((h n).2 (by simp)) (by simp)
    | cons n _ =>
      cases l' with
      | nil => exact absurd ((h n).1 (by simp)) (by simp)
      | cons _ _ => rfl
  have hall : ∀ p : Web3Network → Bool, l.all p = l'.all p := by
    intro p
    rw [Bool.eq_iff_iff, List.all_eq_true, List.all_eq_true]
    exact ⟨fun hp n hn => hp n ((h n).2 hn), fun hp n hn => hp n ((h n).1 hn)⟩
  cases id <;> simp only [matchesWeb3networks, hnil, hall]

end Identity

/-! ## 3. The SCALE encoding

Identities are hashed into signed payloads by their SCALE encoding, so that encoding is
part of what a signature binds. -/

theorem Bytes.data_injective {n : Nat} : Function.Injective (Bytes.data (n := n)) := by
  rintro ⟨a, ha⟩ ⟨b, hb⟩ (rfl : a = b)
  rfl

/-- `Encode for IdentityString`: the encoding of its `BoundedVec`, the compact length
    and then the bytes. -/
def IdentityString.encode (s : IdentityString) : List UInt8 :=
  Codec.compact s.inner.length ++ s.inner

theorem IdentityString.encode_injective : Function.Injective IdentityString.encode := by
  rintro ⟨a, ha⟩ ⟨b, hb⟩ h
  have hab : a = b := Codec.prefixed_inj Codec.length_compact_mono h
  subst hab
  rfl

namespace Identity

/-- The derived `Encode`: the codec index of the variant, then its field. -/
def encode : Identity → List UInt8
  | twitter s => 0 :: s.encode
  | discord s => 1 :: s.encode
  | github s => 2 :: s.encode
  | substrate a => 3 :: a.data
  | evm a => 4 :: a.data
  | bitcoin a => 5 :: a.data
  | solana a => 6 :: a.data

theorem encode_injective : Function.Injective encode := by
  intro a b h
  -- the codec index names the variant, and the field's encoding is injective
  cases a <;> cases b <;> simp only [encode, List.cons.injEq] at h <;>
    first
    | exact absurd h.1 (by decide)
    | exact congrArg _ (IdentityString.encode_injective h.2)
    | exact congrArg _ (Bytes.data_injective h.2)

end Identity

end Litentry
