import Litentry.Lib.Reach

/-!
# `pallet_teebag`: the registry of TEE workers

A worker enclave registers itself (`register_enclave`) after remote attestation; the
admin may add and remove enclaves by force, and keeps per worker type the list of
`mrenclave`s that may register (`AuthorizedEnclave`). `EnclaveRegistry` maps an account to
its enclave, and `EnclaveIdentifier(wt)` lists the accounts of the enclaves of worker
type `wt`, in registration order: its head is the primary enclave whose sidechain blocks
`sidechain_block_imported` accepts.

What the model takes from the source (`pallets/teebag/src/lib.rs`, `types.rs`):

* **Attestation.** `verify_ias` and `verify_dcap` check a report against the quoting
  enclave, the TCB info and the clock; they are functions of `Env`, which the step
  `environment` changes arbitrarily (that step also stands for `register_quoting_enclave`,
  `register_tcb_info` and the passing of time). Only what `register_enclave` takes from a
  report is kept: its `mrenclave`, timestamp and build mode.
* **Bytes.** `MrEnclave`, a shard (`H256`) and a block hash are byte lists; a shard is
  compared with an `mrenclave` byte by byte, as `as_ref()` does.
* **Bounded vectors.** `try_push` fails at the bound (`MaxEnclaveIdentifier`,
  `MaxAuthorizedEnclave`, constants of `Config`).
* Events, `ScheduledEnclave` (written by no call), `QuotingEnclaveRegistry` and `TcbInfo`
  (read only through attestation) are left out.

Every extrinsic runs in a storage transaction: a call that fails leaves no write, so a
function here returns the new state or an error and a failed call is dropped.
-/

set_option autoImplicit false

namespace Litentry
namespace Teebag

/-! ## 1. Types and state -/

/-- `OperationalMode`. -/
inductive OperationalMode where
  | production
  | development
  | maintenance
  deriving DecidableEq, Repr

/-- `DcapProvider`. -/
inductive DcapProvider where
  | intel
  | mAA
  | local
  | integritee
  deriving DecidableEq, Repr

/-- `AttestationType`. -/
inductive AttestationType where
  | ignore
  | ias
  | dcap (provider : DcapProvider)
  deriving DecidableEq, Repr

/-- `WorkerType`. -/
inductive WorkerType where
  | identity
  | bitAcross
  deriving DecidableEq, Repr

/-- `WorkerMode`. -/
inductive WorkerMode where
  | offChainWorker
  | sidechain
  deriving DecidableEq, Repr

/-- `SgxBuildMode`. -/
inductive SgxBuildMode where
  | production
  | debug
  deriving DecidableEq, Repr

/-- `MrEnclave`, 32 bytes. -/
abbrev MrEnclave := List UInt8

/-- `SidechainBlockConfirmation`. -/
structure SidechainBlockConfirmation where
  blockNumber : Nat
  blockHeaderHash : List UInt8
  deriving DecidableEq, Repr

/-- `Enclave`. -/
structure Enclave where
  workerType : WorkerType
  workerMode : WorkerMode
  mrenclave : MrEnclave
  lastSeenTimestamp : Nat
  url : List UInt8
  shieldingPubkey : Option (List UInt8)
  vcPubkey : Option (List UInt8)
  sgxBuildMode : SgxBuildMode
  attestationType : AttestationType
  deriving DecidableEq, Repr

/-- `Enclave::new(worker_type)`: every other field at its default. -/
def Enclave.new (workerType : WorkerType) : Enclave :=
  ⟨workerType, .offChainWorker, List.replicate 32 0, 0, [], none, none, .production, .ignore⟩

/-- What `register_enclave` takes from a verified report. -/
structure SgxReport where
  mrEnclave : MrEnclave
  timestamp : Nat
  buildMode : SgxBuildMode

/-- The pallet's `Error`, with `badOrigin` for a failed origin check and `other` for the
    errors of attestation that are strings. -/
inductive Error where
  | requireAdminOrRoot
  | enclaveSignerDecodeError
  | senderIsNotAttestedEnclave
  | remoteAttestationVerificationFailed
  | remoteAttestationTooOld
  | invalidAttestationType
  | invalidSgxMode
  | dcapProviderNotSupported
  | enclaveNotExist
  | enclaveIdentifierNotExist
  | enclaveIdentifierAlreadyExist
  | unexpectedWorkerType
  | wrongMrenclaveForShard
  | enclaveUrlTooLong
  | attestationTooLong
  | unexpectedWorkerMode
  | authorizedEnclaveNotExist
  | authorizedEnclaveAlreadyExist
  | enclaveNotAuthorized
  | collateralInvalid
  | maxEnclaveIdentifierOverflow
  | maxAuthorizedEnclaveOverflow
  | receivedUnexpectedSidechainBlock
  | invalidNextFinalizationCandidateBlockNumber
  | badOrigin
  | other
  deriving DecidableEq, Repr

/-- Who sends a call. -/
inductive Origin (A : Type) where
  | root
  | signed (who : A)
  | none

/-- What the pallet reads from the rest of the runtime: the clock, and remote
    attestation of a sender's report. -/
structure Env (A : Type) where
  now : Nat
  verifyIas : A → List UInt8 → Except Error SgxReport
  verifyDcap : A → List UInt8 → Except Error SgxReport

/-- The pallet's storage, with the part of the runtime it reads. -/
structure State (A : Type) where
  admin : Option A
  mode : OperationalMode
  enclaveIdentifier : WorkerType → List A
  enclaveRegistry : AList fun _ : A => Enclave
  allowSgxDebugMode : Bool
  authorizedEnclave : WorkerType → List MrEnclave
  latestSidechainBlockConfirmation : List UInt8 → Option SidechainBlockConfirmation
  sidechainBlockFinalizationCandidate : List UInt8 → Option Nat
  env : Env A

/-- The runtime's constants, and the origin `SetAdminOrigin` accepts. -/
structure Config (A : Type) where
  maxEnclaveIdentifier : Nat
  maxAuthorizedEnclave : Nat
  setAdminOrigin : Origin A → Bool

/-- `MAX_URL_LEN`. -/
def maxUrlLen : Nat := 256

/-- The storage after `GenesisConfig { allow_sgx_debug_mode, admin, mode }`. -/
def genesis {A : Type} (allowSgxDebugMode : Bool) (admin : Option A) (mode : OperationalMode)
    (env : Env A) : State A :=
  ⟨admin, mode, fun _ => [], ∅, allowSgxDebugMode, fun _ => [], fun _ => none, fun _ => none,
    env⟩

/-- `MrEnclave::decode(&mut attestation.as_slice())`: the first 32 bytes, if there are. -/
def decodeMrEnclave (attestation : List UInt8) : Option MrEnclave :=
  if 32 ≤ attestation.length then some (attestation.take 32) else none

/-! ## 2. Helpers -/

section Helpers

variable {A : Type} [DecidableEq A] (cfg : Config A)

/-- `ensure_signed`. -/
def ensureSigned : Origin A → Except Error A
  | .signed who => pure who
  | _ => throw .badOrigin

/-- `ensure_admin_or_root`: root, or a signed origin that is the admin. -/
def ensureAdminOrRoot (s : State A) : Origin A → Except Error Unit
  | .root => pure ()
  | .signed who => if some who = s.admin then pure () else throw .requireAdminOrRoot
  | .none => throw .badOrigin

/-- `BoundedVec::try_push`. -/
def tryPush {β : Type} (bound : Nat) (v : List β) (x : β) (e : Error) : Except Error (List β) :=
  if v.length < bound then pure (v ++ [x]) else throw e

/-- `add_enclave_identifier(worker_type, who)`. -/
def addEnclaveIdentifier (s : State A) (workerType : WorkerType) (who : A) :
    Except Error (State A) :=
  let v := s.enclaveIdentifier workerType
  if who ∈ v then throw .enclaveIdentifierAlreadyExist
  else tryPush cfg.maxEnclaveIdentifier v who .maxEnclaveIdentifierOverflow >>= fun v' =>
    pure { s with enclaveIdentifier := Function.update s.enclaveIdentifier workerType v' }

/-- `add_enclave(sender, enclave)`: a registered sender keeps its worker type. -/
def addEnclave (s : State A) (sender : A) (enclave : Enclave) : Except Error (State A) :=
  (match s.enclaveRegistry.lookup sender with
    | some oldEnclave =>
      if oldEnclave.workerType ≠ enclave.workerType then throw .unexpectedWorkerType
      else pure s
    | none => addEnclaveIdentifier cfg s enclave.workerType sender) >>= fun s =>
  pure { s with enclaveRegistry := s.enclaveRegistry.insert sender enclave }

/-- `remove_enclave(sender)`. -/
def removeEnclave (s : State A) (sender : A) : Except Error (State A) :=
  Reach.okOr (s.enclaveRegistry.lookup sender) .enclaveNotExist >>= fun enclave =>
  let v := s.enclaveIdentifier enclave.workerType
  if sender ∉ v then throw .enclaveIdentifierNotExist
  else
    let v' := v.filter (· != sender)
    pure { s with
      enclaveIdentifier := Function.update s.enclaveIdentifier enclave.workerType v'
      enclaveRegistry := s.enclaveRegistry.erase sender }

/-- The accounts of `EnclaveRegistry::iter()` whose enclave passes `p`, in its order. -/
def registeredWhere (s : State A) (p : Enclave → Bool) : List A :=
  s.enclaveRegistry.entries.filterMap fun e => if p e.2 then some e.1 else none

/-- `for who in accounts { Self::remove_enclave(&who)? }`. -/
def removeEnclaves (s : State A) (accounts : List A) : Except Error (State A) :=
  accounts.foldlM removeEnclave s

end Helpers

/-! ## 3. The calls -/

section Calls

variable {A : Type} [DecidableEq A] (cfg : Config A)

/-- `set_admin`. -/
def setAdmin (s : State A) (o : Origin A) (newAdmin : A) : Except Error (State A) :=
  if cfg.setAdminOrigin o then pure { s with admin := some newAdmin } else throw .badOrigin

/-- `set_mode`. -/
def setMode (s : State A) (o : Origin A) (newMode : OperationalMode) : Except Error (State A) :=
  ensureAdminOrRoot s o >>= fun _ => pure { s with mode := newMode }

/-- `force_add_enclave`. -/
def forceAddEnclave (s : State A) (o : Origin A) (who : A) (enclave : Enclave) :
    Except Error (State A) :=
  ensureAdminOrRoot s o >>= fun _ => addEnclave cfg s who enclave

/-- `force_remove_enclave`. -/
def forceRemoveEnclave (s : State A) (o : Origin A) (who : A) : Except Error (State A) :=
  ensureAdminOrRoot s o >>= fun _ => removeEnclave s who

/-- `force_remove_enclave_by_mrenclave`. -/
def forceRemoveEnclaveByMrenclave (s : State A) (o : Origin A) (mrenclave : MrEnclave) :
    Except Error (State A) :=
  ensureAdminOrRoot s o >>= fun _ =>
  removeEnclaves s (registeredWhere s fun e => e.mrenclave == mrenclave)

/-- `force_remove_enclave_by_worker_type`. -/
def forceRemoveEnclaveByWorkerType (s : State A) (o : Origin A) (workerType : WorkerType) :
    Except Error (State A) :=
  ensureAdminOrRoot s o >>= fun _ =>
  removeEnclaves s (registeredWhere s fun e => e.workerType == workerType)

/-- `force_add_authorized_enclave`. -/
def forceAddAuthorizedEnclave (s : State A) (o : Origin A) (workerType : WorkerType)
    (mrenclave : MrEnclave) : Except Error (State A) :=
  ensureAdminOrRoot s o >>= fun _ =>
  let v := s.authorizedEnclave workerType
  if mrenclave ∈ v then throw .authorizedEnclaveAlreadyExist
  else tryPush cfg.maxAuthorizedEnclave v mrenclave .maxAuthorizedEnclaveOverflow >>= fun v' =>
    pure { s with authorizedEnclave := Function.update s.authorizedEnclave workerType v' }

/-- `force_remove_authorized_enclave`: the authorisation goes, and then every enclave with
    that `mrenclave`, through `force_remove_enclave_by_mrenclave`. -/
def forceRemoveAuthorizedEnclave (s : State A) (o : Origin A) (workerType : WorkerType)
    (mrenclave : MrEnclave) : Except Error (State A) :=
  ensureAdminOrRoot s o >>= fun _ =>
  let v := s.authorizedEnclave workerType
  if mrenclave ∉ v then throw .authorizedEnclaveNotExist
  else
    let v' := v.filter (· != mrenclave)
    forceRemoveEnclaveByMrenclave
      { s with authorizedEnclave := Function.update s.authorizedEnclave workerType v' } o mrenclave

/-- The `match attestation_type` of `register_enclave`: the enclave's `mrenclave`,
    timestamp and build mode, from the attestation. -/
def attest (s : State A) (sender : A) (enclave : Enclave) (attestation : List UInt8) :
    AttestationType → Except Error Enclave
  | .ignore =>
    if s.mode ≠ .development then throw .invalidAttestationType
    else pure { enclave with
      mrenclave := (decodeMrEnclave attestation).getD (List.replicate 32 0)
      lastSeenTimestamp := s.env.now
      sgxBuildMode := .production }
  | .ias => s.env.verifyIas sender attestation >>= fun report =>
    pure { enclave with
      mrenclave := report.mrEnclave
      lastSeenTimestamp := report.timestamp
      sgxBuildMode := report.buildMode }
  | .dcap provider =>
    if provider ≠ .intel then throw .dcapProviderNotSupported
    else s.env.verifyDcap sender attestation >>= fun report =>
      pure { enclave with
        mrenclave := report.mrEnclave
        lastSeenTimestamp := report.timestamp
        sgxBuildMode := report.buildMode }

/-- The `match Self::mode()` of `register_enclave`: in production and maintenance the
    enclave must be authorised (and not a debug build unless allowed); in development it
    authorises itself. -/
def authorize (s : State A) (workerType : WorkerType) (enclave : Enclave) :
    Except Error (State A) :=
  match s.mode with
  | .production | .maintenance =>
    if !s.allowSgxDebugMode && enclave.sgxBuildMode == .debug then throw .invalidSgxMode
    else if enclave.mrenclave ∉ s.authorizedEnclave workerType then throw .enclaveNotAuthorized
    else pure s
  | .development =>
    let v := s.authorizedEnclave workerType
    if enclave.mrenclave ∉ v then
      tryPush cfg.maxAuthorizedEnclave v enclave.mrenclave .maxAuthorizedEnclaveOverflow >>=
        fun v' => pure { s with authorizedEnclave := Function.update s.authorizedEnclave workerType v' }
    else pure s

/-- `register_enclave`. -/
def registerEnclave (s : State A) (o : Origin A) (workerType : WorkerType)
    (workerMode : WorkerMode) (attestation workerUrl : List UInt8)
    (shieldingPubkey vcPubkey : Option (List UInt8)) (attestationType : AttestationType) :
    Except Error (State A) :=
  ensureSigned o >>= fun sender =>
  if ¬ workerUrl.length ≤ maxUrlLen then throw .enclaveUrlTooLong
  else
    let enclave : Enclave := { Enclave.new workerType with
      workerMode := workerMode
      url := workerUrl
      shieldingPubkey := shieldingPubkey
      vcPubkey := vcPubkey
      attestationType := attestationType }
    attest s sender enclave attestation attestationType >>= fun enclave =>
    authorize cfg s workerType enclave >>= fun s =>
    addEnclave cfg s sender enclave

/-- `unregister_enclave`. -/
def unregisterEnclave (s : State A) (o : Origin A) : Except Error (State A) :=
  ensureSigned o >>= fun sender => removeEnclave s sender

/-- `parentchain_block_processed`: the sender must be registered. The timestamp it sets
    is on a copy of the enclave that is never written back, so storage is unchanged. -/
def parentchainBlockProcessed (s : State A) (o : Origin A) : Except Error (State A) :=
  ensureSigned o >>= fun sender =>
  Reach.okOr (s.enclaveRegistry.lookup sender) .enclaveNotExist >>= fun _ => pure s

/-- The checks of `sidechain_block_imported` once the sender is known to be the primary
    enclave: the block is the expected candidate, and the next one is later. -/
def importBlock (s : State A) (shard : List UInt8) (blockNumber next : Nat)
    (blockHeaderHash : List UInt8) : Except Error (State A) :=
  let candidate := (s.sidechainBlockFinalizationCandidate shard).getD 1
  if blockNumber ≠ candidate then throw .receivedUnexpectedSidechainBlock
  else if ¬ candidate < next then throw .invalidNextFinalizationCandidateBlockNumber
  else pure { s with
    sidechainBlockFinalizationCandidate :=
      Function.update s.sidechainBlockFinalizationCandidate shard (some next)
    latestSidechainBlockConfirmation := Function.update s.latestSidechainBlockConfirmation shard
      (some ⟨blockNumber, blockHeaderHash⟩) }

/-- `sidechain_block_imported`: only the first registered enclave of a worker type, a
    sidechain worker whose `mrenclave` is the shard, moves the shard's finalization on. -/
def sidechainBlockImported (s : State A) (o : Origin A) (shard : List UInt8)
    (blockNumber next : Nat) (blockHeaderHash : List UInt8) : Except Error (State A) :=
  ensureSigned o >>= fun sender =>
  Reach.okOr (s.enclaveRegistry.lookup sender) .enclaveNotExist >>= fun senderEnclave =>
  if senderEnclave.mrenclave ≠ shard then throw .wrongMrenclaveForShard
  else if senderEnclave.workerMode ≠ .sidechain then throw .unexpectedWorkerMode
  else Reach.okOr (s.enclaveIdentifier senderEnclave.workerType).head?
      .enclaveIdentifierNotExist >>= fun primary =>
    if sender ≠ primary then pure s
    else importBlock s shard blockNumber next blockHeaderHash

end Calls

/-! ## 4. The machine -/

/-- The pallet's extrinsics that write storage or may fail, and everything else the
    runtime does. -/
inductive Call (A : Type) where
  | setAdmin (o : Origin A) (newAdmin : A)
  | setMode (o : Origin A) (newMode : OperationalMode)
  | forceAddEnclave (o : Origin A) (who : A) (enclave : Enclave)
  | forceRemoveEnclave (o : Origin A) (who : A)
  | forceRemoveEnclaveByMrenclave (o : Origin A) (mrenclave : MrEnclave)
  | forceRemoveEnclaveByWorkerType (o : Origin A) (workerType : WorkerType)
  | forceAddAuthorizedEnclave (o : Origin A) (workerType : WorkerType) (mrenclave : MrEnclave)
  | forceRemoveAuthorizedEnclave (o : Origin A) (workerType : WorkerType)
      (mrenclave : MrEnclave)
  | registerEnclave (o : Origin A) (workerType : WorkerType) (workerMode : WorkerMode)
      (attestation workerUrl : List UInt8) (shieldingPubkey vcPubkey : Option (List UInt8))
      (attestationType : AttestationType)
  | unregisterEnclave (o : Origin A)
  | parentchainBlockProcessed (o : Origin A)
  | sidechainBlockImported (o : Origin A) (shard : List UInt8) (blockNumber next : Nat)
      (blockHeaderHash : List UInt8)
  | environment (env : Env A)

variable {A : Type} [DecidableEq A]

/-- One call. -/
def step (cfg : Config A) (s : State A) : Call A → Except Error (State A)
  | .setAdmin o a => setAdmin cfg s o a
  | .setMode o m => setMode s o m
  | .forceAddEnclave o who e => forceAddEnclave cfg s o who e
  | .forceRemoveEnclave o who => forceRemoveEnclave s o who
  | .forceRemoveEnclaveByMrenclave o m => forceRemoveEnclaveByMrenclave s o m
  | .forceRemoveEnclaveByWorkerType o wt => forceRemoveEnclaveByWorkerType s o wt
  | .forceAddAuthorizedEnclave o wt m => forceAddAuthorizedEnclave cfg s o wt m
  | .forceRemoveAuthorizedEnclave o wt m => forceRemoveAuthorizedEnclave s o wt m
  | .registerEnclave o wt wm att url sk vk ty => registerEnclave cfg s o wt wm att url sk vk ty
  | .unregisterEnclave o => unregisterEnclave s o
  | .parentchainBlockProcessed o => parentchainBlockProcessed s o
  | .sidechainBlockImported o shard n next hash => sidechainBlockImported s o shard n next hash
  | .environment env => pure { s with env := env }

/-! ## 5. What each call does -/

section Spec

variable {cfg : Config A} {s s' : State A} {o : Origin A}

theorem tryPush_ok {β : Type} {bound : Nat} {v v' : List β} {x : β} {e : Error}
    (h : tryPush bound v x e = .ok v') : v.length < bound ∧ v' = v ++ [x] := by
  unfold tryPush at h
  by_cases hlt : v.length < bound
  · rw [if_pos hlt] at h
    exact ⟨hlt, (Reach.pure_eq_ok.1 h).symm⟩
  · rw [if_neg hlt] at h
    cases h

theorem addEnclaveIdentifier_ok {workerType : WorkerType} {who : A}
    (h : addEnclaveIdentifier cfg s workerType who = .ok s') :
    who ∉ s.enclaveIdentifier workerType ∧
      (s.enclaveIdentifier workerType).length < cfg.maxEnclaveIdentifier ∧
      s' = { s with enclaveIdentifier := (Function.update s.enclaveIdentifier workerType
        (s.enclaveIdentifier workerType ++ [who])) } := by
  unfold addEnclaveIdentifier at h
  obtain ⟨hnot, h⟩ := Reach.ite_throw_eq_ok.1 h
  obtain ⟨v', hv', h⟩ := Reach.bind_eq_ok.1 h
  obtain ⟨hlt, rfl⟩ := tryPush_ok hv'
  exact ⟨hnot, hlt, (Reach.pure_eq_ok.1 h).symm⟩

/-- `add_enclave` rewrites the enclave of a registered sender of the same worker type, or
    registers a new sender, appended to the identifiers of its worker type. -/
theorem addEnclave_ok {sender : A} {e : Enclave} (h : addEnclave cfg s sender e = .ok s') :
    (∃ old, s.enclaveRegistry.lookup sender = some old ∧ old.workerType = e.workerType ∧
        s' = { s with enclaveRegistry := s.enclaveRegistry.insert sender e }) ∨
      (s.enclaveRegistry.lookup sender = none ∧ sender ∉ s.enclaveIdentifier e.workerType ∧
        (s.enclaveIdentifier e.workerType).length < cfg.maxEnclaveIdentifier ∧
        s' = { s with
          enclaveIdentifier := (Function.update s.enclaveIdentifier e.workerType
            (s.enclaveIdentifier e.workerType ++ [sender]))
          enclaveRegistry := s.enclaveRegistry.insert sender e }) := by
  unfold addEnclave at h
  obtain ⟨s₁, h₁, h⟩ := Reach.bind_eq_ok.1 h
  cases hl : s.enclaveRegistry.lookup sender with
  | some old =>
    rw [hl] at h₁
    obtain ⟨hwt, h₁⟩ := Reach.ite_throw_eq_ok.1 h₁
    cases Reach.pure_eq_ok.1 h₁
    exact .inl ⟨old, rfl, not_not.1 hwt, (Reach.pure_eq_ok.1 h).symm⟩
  | none =>
    rw [hl] at h₁
    obtain ⟨hnot, hlt, rfl⟩ := addEnclaveIdentifier_ok h₁
    exact .inr ⟨rfl, hnot, hlt, (Reach.pure_eq_ok.1 h).symm⟩

/-- `remove_enclave` takes a registered sender out of the registry and out of the
    identifiers of its worker type, which must hold it. -/
theorem removeEnclave_ok {sender : A} (h : removeEnclave s sender = .ok s') :
    ∃ e, s.enclaveRegistry.lookup sender = some e ∧ sender ∈ s.enclaveIdentifier e.workerType ∧
      s' = { s with
        enclaveIdentifier := (Function.update s.enclaveIdentifier e.workerType
          ((s.enclaveIdentifier e.workerType).filter (· != sender)))
        enclaveRegistry := s.enclaveRegistry.erase sender } := by
  unfold removeEnclave at h
  obtain ⟨e, he, h⟩ := Reach.okOr_bind_eq_ok.1 h
  obtain ⟨hmem, h⟩ := Reach.ite_throw_eq_ok.1 h
  exact ⟨e, he, not_not.1 hmem, (Reach.pure_eq_ok.1 h).symm⟩

theorem removeEnclave_eq {sender : A} {e : Enclave} (he : s.enclaveRegistry.lookup sender = some e)
    (hmem : sender ∈ s.enclaveIdentifier e.workerType) :
    removeEnclave s sender = .ok { s with
      enclaveIdentifier := (Function.update s.enclaveIdentifier e.workerType
        ((s.enclaveIdentifier e.workerType).filter (· != sender)))
      enclaveRegistry := s.enclaveRegistry.erase sender } := by
  unfold removeEnclave
  rw [he]
  simp [Reach.okOr, hmem, bind, Except.bind, pure, Except.pure]

omit [DecidableEq A] in
theorem setAdmin_ok {a : A} (h : setAdmin cfg s o a = .ok s') : s' = { s with admin := some a } := by
  unfold setAdmin at h
  cases hor : cfg.setAdminOrigin o
  · rw [hor] at h
    cases h
  · rw [hor, if_pos rfl] at h
    exact (Reach.pure_eq_ok.1 h).symm

theorem setMode_ok {m : OperationalMode} (h : setMode s o m = .ok s') : s' = { s with mode := m } := by
  obtain ⟨-, -, h⟩ := Reach.bind_eq_ok.1 h
  exact (Reach.pure_eq_ok.1 h).symm

theorem forceAddEnclave_ok {who : A} {e : Enclave} (h : forceAddEnclave cfg s o who e = .ok s') :
    addEnclave cfg s who e = .ok s' := by
  obtain ⟨-, -, h⟩ := Reach.bind_eq_ok.1 h
  exact h

theorem forceRemoveEnclave_ok {who : A} (h : forceRemoveEnclave s o who = .ok s') :
    removeEnclave s who = .ok s' := by
  obtain ⟨-, -, h⟩ := Reach.bind_eq_ok.1 h
  exact h

theorem forceRemoveEnclaveByMrenclave_ok {m : MrEnclave}
    (h : forceRemoveEnclaveByMrenclave s o m = .ok s') :
    removeEnclaves s (registeredWhere s fun e => e.mrenclave == m) = .ok s' := by
  obtain ⟨-, -, h⟩ := Reach.bind_eq_ok.1 h
  exact h

theorem forceRemoveEnclaveByWorkerType_ok {wt : WorkerType}
    (h : forceRemoveEnclaveByWorkerType s o wt = .ok s') :
    removeEnclaves s (registeredWhere s fun e => e.workerType == wt) = .ok s' := by
  obtain ⟨-, -, h⟩ := Reach.bind_eq_ok.1 h
  exact h

theorem forceAddAuthorizedEnclave_ok {wt : WorkerType} {m : MrEnclave}
    (h : forceAddAuthorizedEnclave cfg s o wt m = .ok s') :
    s' = { s with authorizedEnclave :=
      Function.update s.authorizedEnclave wt (s.authorizedEnclave wt ++ [m]) } := by
  obtain ⟨-, -, h⟩ := Reach.bind_eq_ok.1 h
  obtain ⟨-, h⟩ := Reach.ite_throw_eq_ok.1 h
  obtain ⟨v', hv', h⟩ := Reach.bind_eq_ok.1 h
  obtain ⟨-, rfl⟩ := tryPush_ok hv'
  exact (Reach.pure_eq_ok.1 h).symm

/-- `force_remove_authorized_enclave` is `force_remove_enclave_by_mrenclave` once the
    authorisation is gone. -/
theorem forceRemoveAuthorizedEnclave_ok {wt : WorkerType} {m : MrEnclave}
    (h : forceRemoveAuthorizedEnclave s o wt m = .ok s') :
    m ∈ s.authorizedEnclave wt ∧ forceRemoveEnclaveByMrenclave { s with authorizedEnclave :=
      (Function.update s.authorizedEnclave wt ((s.authorizedEnclave wt).filter (· != m))) } o m =
        .ok s' := by
  obtain ⟨-, -, h⟩ := Reach.bind_eq_ok.1 h
  obtain ⟨hmem, h⟩ := Reach.ite_throw_eq_ok.1 h
  exact ⟨not_not.1 hmem, h⟩

omit [DecidableEq A] in
/-- Attestation sets the `mrenclave`, the timestamp and the build mode, nothing else. -/
theorem attest_workerType {sender : A} {e e' : Enclave} {att : List UInt8} {ty : AttestationType}
    (h : attest s sender e att ty = .ok e') : e'.workerType = e.workerType := by
  cases ty with
  | ignore =>
    obtain ⟨-, h⟩ := Reach.ite_throw_eq_ok.1 h
    rw [← Reach.pure_eq_ok.1 h]
  | ias =>
    obtain ⟨r, -, h⟩ := Reach.bind_eq_ok.1 h
    rw [← Reach.pure_eq_ok.1 h]
  | dcap p =>
    obtain ⟨-, h⟩ := Reach.ite_throw_eq_ok.1 h
    obtain ⟨r, -, h⟩ := Reach.bind_eq_ok.1 h
    rw [← Reach.pure_eq_ok.1 h]

omit [DecidableEq A] in
/-- The mode check of `register_enclave` leaves the enclave's `mrenclave` authorised for
    its worker type, and only adds authorisations. -/
theorem authorize_ok {wt : WorkerType} {e : Enclave} (h : authorize cfg s wt e = .ok s') :
    ∃ auth, s' = { s with authorizedEnclave := auth } ∧ e.mrenclave ∈ auth wt ∧
      ∀ wt' m, m ∈ s.authorizedEnclave wt' → m ∈ auth wt' := by
  unfold authorize at h
  split at h
  -- production and maintenance check the authorisation
  iterate 2
    obtain ⟨-, h⟩ := Reach.ite_throw_eq_ok.1 h
    obtain ⟨hmem, h⟩ := Reach.ite_throw_eq_ok.1 h
    cases Reach.pure_eq_ok.1 h
    exact ⟨s.authorizedEnclave, rfl, not_not.1 hmem, fun _ _ hm => hm⟩
  -- development authorises the enclave if it is not yet
  dsimp only at h
  by_cases hmem : e.mrenclave ∈ s.authorizedEnclave wt
  · rw [if_neg (not_not.2 hmem)] at h
    cases Reach.pure_eq_ok.1 h
    exact ⟨s.authorizedEnclave, rfl, hmem, fun _ _ hm => hm⟩
  · rw [if_pos hmem] at h
    obtain ⟨v', hv', h⟩ := Reach.bind_eq_ok.1 h
    obtain ⟨-, rfl⟩ := tryPush_ok hv'
    refine ⟨_, (Reach.pure_eq_ok.1 h).symm, by simp, fun wt' m hm => ?_⟩
    by_cases hwt : wt' = wt
    · subst hwt
      simp [hm]
    · rwa [Function.update_of_ne hwt]

theorem registerEnclave_ok {wt : WorkerType} {wm : WorkerMode} {att url : List UInt8}
    {sk vk : Option (List UInt8)} {ty : AttestationType}
    (h : registerEnclave cfg s o wt wm att url sk vk ty = .ok s') :
    ∃ sender e s₁, e.workerType = wt ∧ authorize cfg s wt e = .ok s₁ ∧
      addEnclave cfg s₁ sender e = .ok s' := by
  obtain ⟨sender, -, h⟩ := Reach.bind_eq_ok.1 h
  obtain ⟨-, h⟩ := Reach.ite_throw_eq_ok.1 h
  obtain ⟨e, he, h⟩ := Reach.bind_eq_ok.1 h
  obtain ⟨s₁, hs₁, h⟩ := Reach.bind_eq_ok.1 h
  exact ⟨sender, e, s₁, attest_workerType he, hs₁, h⟩

theorem unregisterEnclave_ok (h : unregisterEnclave s o = .ok s') :
    ∃ sender, removeEnclave s sender = .ok s' := by
  obtain ⟨sender, -, h⟩ := Reach.bind_eq_ok.1 h
  exact ⟨sender, h⟩

theorem parentchainBlockProcessed_ok (h : parentchainBlockProcessed s o = .ok s') : s' = s := by
  obtain ⟨sender, -, h⟩ := Reach.bind_eq_ok.1 h
  obtain ⟨-, -, h⟩ := Reach.okOr_bind_eq_ok.1 h
  exact (Reach.pure_eq_ok.1 h).symm

omit [DecidableEq A] in
/-- A block is imported when it is the shard's candidate and names a later one. -/
theorem importBlock_ok {shard hash : List UInt8} {n next : Nat}
    (h : importBlock s shard n next hash = .ok s') :
    n = (s.sidechainBlockFinalizationCandidate shard).getD 1 ∧
      (s.sidechainBlockFinalizationCandidate shard).getD 1 < next ∧
      s' = { s with
        sidechainBlockFinalizationCandidate :=
          Function.update s.sidechainBlockFinalizationCandidate shard (some next)
        latestSidechainBlockConfirmation := (Function.update s.latestSidechainBlockConfirmation
          shard (some ⟨n, hash⟩)) } := by
  unfold importBlock at h
  obtain ⟨hn, h⟩ := Reach.ite_throw_eq_ok.1 h
  obtain ⟨hlt, h⟩ := Reach.ite_throw_eq_ok.1 h
  exact ⟨not_not.1 hn, not_not.1 hlt, (Reach.pure_eq_ok.1 h).symm⟩

theorem sidechainBlockImported_ok {shard hash : List UInt8} {n next : Nat}
    (h : sidechainBlockImported s o shard n next hash = .ok s') :
    s' = s ∨ importBlock s shard n next hash = .ok s' := by
  obtain ⟨sender, -, h⟩ := Reach.bind_eq_ok.1 h
  obtain ⟨e, -, h⟩ := Reach.okOr_bind_eq_ok.1 h
  obtain ⟨-, h⟩ := Reach.ite_throw_eq_ok.1 h
  obtain ⟨-, h⟩ := Reach.ite_throw_eq_ok.1 h
  obtain ⟨primary, -, h⟩ := Reach.okOr_bind_eq_ok.1 h
  -- a block from an enclave other than the primary one is ignored
  split_ifs at h
  · exact .inl (Reach.pure_eq_ok.1 h).symm
  · exact .inr h

end Spec

/-- A run starts from a genesis storage, with any genesis configuration and runtime. -/
def IsGenesis (s : State A) : Prop :=
  ∃ allowSgxDebugMode admin mode env, s = genesis allowSgxDebugMode admin mode env

/-- The states a run can be in. -/
def Reachable (cfg : Config A) : State A → Prop :=
  Reach.Reachable IsGenesis (step cfg)

end Teebag
end Litentry
