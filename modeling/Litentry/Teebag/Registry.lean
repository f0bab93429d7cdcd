import Litentry.Teebag.Pallet
import Litentry.Lib.StorageMap

/-!
# `pallet_teebag`: the registry and its index, authorisations, finalization

`EnclaveIdentifier(wt)` is an index of `EnclaveRegistry` by worker type, kept by hand in
`add_enclave` and `remove_enclave`. Every call keeps the two in step (`IdentInv`), and
that is what lets the two bulk removals, which call `remove_enclave` with `?` once per
account, run to the end.

Registration needs an authorised `mrenclave`, except through `force_add_enclave`; so long
as no `force_add_enclave` has succeeded, every registered enclave is authorised for its
worker type (`AuthInv`), tracked by a ghost flag run beside the pallet. Removing an
authorisation sweeps the registry by `mrenclave` alone: it also removes the enclaves of
the other worker types with that `mrenclave`.

The finalization candidate of a shard only grows: one step writes it, to a later block.
-/

set_option autoImplicit false

namespace Litentry
namespace Teebag

variable {A : Type} [DecidableEq A] {cfg : Config A} {s s' : State A}

/-! ## 1. What each helper changes -/

theorem addEnclave_shape {sender : A} {e : Enclave} (h : addEnclave cfg s sender e = .ok s') :
    ∃ ident, s' = { s with
      enclaveIdentifier := ident
      enclaveRegistry := s.enclaveRegistry.insert sender e } := by
  rcases addEnclave_ok h with ⟨-, -, -, rfl⟩ | ⟨-, -, -, rfl⟩
  · exact ⟨s.enclaveIdentifier, rfl⟩
  · exact ⟨_, rfl⟩

theorem removeEnclave_shape {sender : A} (h : removeEnclave s sender = .ok s') :
    ∃ ident, s' = { s with
      enclaveIdentifier := ident
      enclaveRegistry := s.enclaveRegistry.erase sender } := by
  obtain ⟨e, -, -, rfl⟩ := removeEnclave_ok h
  exact ⟨_, rfl⟩

/-- The bulk removal rewrites the registry and its index, nothing else. -/
theorem removeEnclaves_shape {accounts : List A} (h : removeEnclaves s accounts = .ok s') :
    ∃ ident reg, s' = { s with enclaveIdentifier := ident, enclaveRegistry := reg } := by
  refine Reach.foldlM_invariant (I := fun t : State A => ∃ ident reg,
    t = { s with enclaveIdentifier := ident, enclaveRegistry := reg })
    (fun t a t' ht hst => ?_) ⟨s.enclaveIdentifier, s.enclaveRegistry, rfl⟩ h
  obtain ⟨ident, reg, rfl⟩ := ht
  obtain ⟨ident', rfl⟩ := removeEnclave_shape hst
  exact ⟨ident', _, rfl⟩

/-- After the bulk removal, the accounts it was given are gone and the others stay. -/
theorem lookup_removeEnclaves :
    ∀ {accounts : List A} {s s' : State A}, removeEnclaves s accounts = .ok s' → ∀ a,
      s'.enclaveRegistry.lookup a = if a ∈ accounts then none else s.enclaveRegistry.lookup a
  | [], s, s', h, a => by
    cases Reach.pure_eq_ok.1 h
    simp
  | b :: accounts, s, s', h, a => by
    unfold removeEnclaves at h
    rw [List.foldlM_cons] at h
    obtain ⟨s₁, h₁, h⟩ := Reach.bind_eq_ok.1 h
    obtain ⟨ident, rfl⟩ := removeEnclave_shape h₁
    rw [lookup_removeEnclaves h a]
    by_cases hab : a = b
    · subst hab
      simp
    · simp [hab, AList.lookup_erase_ne hab]

omit [DecidableEq A] in
theorem filterMap_eq_keys (p : Enclave → Bool) (l : List (Σ _ : A, Enclave)) :
    l.filterMap (fun e => if p e.2 then some e.1 else none) = (l.filter fun e => p e.2).keys := by
  induction l with
  | nil => rfl
  | cons e l ih =>
    by_cases hp : p e.2 <;> simp [hp, ih]

omit [DecidableEq A] in
theorem registeredWhere_eq_keys (s : State A) (p : Enclave → Bool) :
    registeredWhere s p = (s.enclaveRegistry.entries.filter fun e => p e.2).keys :=
  filterMap_eq_keys p _

theorem mem_registeredWhere {p : Enclave → Bool} {a : A} :
    a ∈ registeredWhere s p ↔ ∃ e, s.enclaveRegistry.lookup a = some e ∧ p e = true := by
  rw [registeredWhere_eq_keys, List.mem_keys]
  simp only [List.mem_filter]
  constructor
  · rintro ⟨e, he, hp⟩
    exact ⟨e, AList.mem_lookup_iff.2 he, hp⟩
  · rintro ⟨e, he, hp⟩
    exact ⟨e, AList.mem_lookup_iff.1 he, hp⟩

omit [DecidableEq A] in
theorem nodup_registeredWhere (s : State A) (p : Enclave → Bool) :
    (registeredWhere s p).Nodup := by
  rw [registeredWhere_eq_keys]
  exact s.enclaveRegistry.nodupKeys.sublist List.filter_sublist

/-- A sweep by `p` leaves exactly the enclaves that fail `p`. -/
theorem lookup_removeEnclaves_registeredWhere {p : Enclave → Bool}
    (h : removeEnclaves s (registeredWhere s p) = .ok s') (a : A) :
    s'.enclaveRegistry.lookup a = (s.enclaveRegistry.lookup a).filter fun e => !p e := by
  rw [lookup_removeEnclaves h a]
  cases hl : s.enclaveRegistry.lookup a with
  | none => simp
  | some e =>
    by_cases hp : p e
    · have hmem : a ∈ registeredWhere s p := mem_registeredWhere.2 ⟨e, hl, hp⟩
      rw [if_pos hmem]
      simp [Option.filter, hp]
    · have hmem : a ∉ registeredWhere s p := fun hm => by
        obtain ⟨e', he', hp'⟩ := mem_registeredWhere.1 hm
        rw [hl, Option.some.injEq] at he'
        exact hp (he' ▸ hp')
      rw [if_neg hmem]
      simp [Option.filter, hp]

/-! ## 2. The index of the registry by worker type -/

/-- `EnclaveIdentifier(wt)` is duplicate-free and lists exactly the registered accounts
    whose enclave has worker type `wt`. -/
structure IdentInv (s : State A) : Prop where
  nodup : ∀ wt, (s.enclaveIdentifier wt).Nodup
  mem_iff : ∀ wt who, who ∈ s.enclaveIdentifier wt ↔
    ∃ e, s.enclaveRegistry.lookup who = some e ∧ e.workerType = wt

theorem IdentInv.genesis (allowSgxDebugMode : Bool) (admin : Option A) (mode : OperationalMode)
    (env : Env A) : IdentInv (genesis allowSgxDebugMode admin mode env) :=
  ⟨fun _ => List.nodup_nil, fun _ _ => by simp [Teebag.genesis]⟩

theorem IdentInv.of_eq (h : IdentInv s) (hi : s'.enclaveIdentifier = s.enclaveIdentifier)
    (hr : s'.enclaveRegistry = s.enclaveRegistry) : IdentInv s' := by
  obtain ⟨hnd, hmem⟩ := h
  exact ⟨by rw [hi]; exact hnd, by rw [hi, hr]; exact hmem⟩

/-- A change of the authorisations keeps the index. -/
theorem IdentInv.withAuthorized (h : IdentInv s) (auth : WorkerType → List MrEnclave) :
    IdentInv { s with authorizedEnclave := auth } :=
  h.of_eq rfl rfl

/-- The worker type of a registered account, read off the index. -/
theorem IdentInv.mem_of_lookup (h : IdentInv s) {who : A} {e : Enclave}
    (he : s.enclaveRegistry.lookup who = some e) : who ∈ s.enclaveIdentifier e.workerType :=
  (h.mem_iff _ _).2 ⟨e, he, rfl⟩

theorem IdentInv.of_addEnclave (h : IdentInv s) {sender : A} {e : Enclave}
    (hs : addEnclave cfg s sender e = .ok s') : IdentInv s' := by
  rcases addEnclave_ok hs with ⟨old, hold, hwt, rfl⟩ | ⟨hnone, hnot, -, rfl⟩
  · -- a rewrite in place keeps the worker type, so the index stays right
    refine ⟨h.nodup, fun wt who => ?_⟩
    dsimp only
    by_cases hw : who = sender
    · subst hw
      rw [h.mem_iff, hold, AList.lookup_insert]
      simp [hwt]
    · rw [h.mem_iff, AList.lookup_insert_ne hw]
  · -- a new sender is appended to the index of its worker type
    refine ⟨fun wt => ?_, fun wt who => ?_⟩ <;> dsimp only
    · by_cases hwt : wt = e.workerType
      · subst hwt
        rw [Function.update_self, List.nodup_append]
        refine ⟨h.nodup _, List.nodup_singleton _, fun a ha b hb hab => hnot ?_⟩
        rw [List.mem_singleton] at hb
        subst hb hab
        exact ha
      · rw [Function.update_of_ne hwt]
        exact h.nodup wt
    · by_cases hw : who = sender
      · subst hw
        rw [AList.lookup_insert]
        by_cases hwt : wt = e.workerType
        · subst hwt
          simp
        · rw [Function.update_of_ne hwt, h.mem_iff, hnone]
          simp [Ne.symm hwt]
      · rw [AList.lookup_insert_ne hw]
        by_cases hwt : wt = e.workerType
        · subst hwt
          rw [Function.update_self, List.mem_append, h.mem_iff]
          simp [hw]
        · rw [Function.update_of_ne hwt, h.mem_iff]

theorem IdentInv.of_removeEnclave (h : IdentInv s) {sender : A}
    (hs : removeEnclave s sender = .ok s') : IdentInv s' := by
  obtain ⟨e, he, -, rfl⟩ := removeEnclave_ok hs
  refine ⟨fun wt => ?_, fun wt who => ?_⟩ <;> dsimp only
  · by_cases hwt : wt = e.workerType
    · subst hwt
      rw [Function.update_self]
      exact (h.nodup _).filter _
    · rw [Function.update_of_ne hwt]
      exact h.nodup wt
  · by_cases hw : who = sender
    · -- the sender leaves the index of its own worker type, the only one it was in
      subst hw
      rw [AList.lookup_erase]
      by_cases hwt : wt = e.workerType
      · subst hwt
        simp
      · rw [Function.update_of_ne hwt, h.mem_iff, he]
        simp [Ne.symm hwt]
    · rw [AList.lookup_erase_ne hw]
      by_cases hwt : wt = e.workerType
      · subst hwt
        rw [Function.update_self, List.mem_filter, h.mem_iff]
        simp [hw]
      · rw [Function.update_of_ne hwt, h.mem_iff]

theorem IdentInv.of_removeEnclaves (h : IdentInv s) {accounts : List A}
    (hs : removeEnclaves s accounts = .ok s') : IdentInv s' :=
  Reach.foldlM_invariant (fun _ _ _ ht hst => ht.of_removeEnclave hst) h hs

/-- `remove_enclave` never fails on a registered account. -/
theorem IdentInv.removeEnclave_isOk (h : IdentInv s) {who : A} {e : Enclave}
    (he : s.enclaveRegistry.lookup who = some e) : ∃ s', removeEnclave s who = .ok s' :=
  ⟨_, removeEnclave_eq he (h.mem_of_lookup he)⟩

/-- A bulk removal of distinct registered accounts runs to the end. -/
theorem IdentInv.removeEnclaves_isOk :
    ∀ {accounts : List A} {s : State A}, IdentInv s → accounts.Nodup →
      (∀ a ∈ accounts, a ∈ s.enclaveRegistry) → ∃ s', removeEnclaves s accounts = .ok s'
  | [], s, _, _, _ => ⟨s, rfl⟩
  | a :: accounts, s, h, hnd, hreg => by
    rw [List.nodup_cons] at hnd
    obtain ⟨e, he⟩ := Option.isSome_iff_exists.1
      (AList.lookup_isSome.2 (hreg a List.mem_cons_self))
    obtain ⟨s₁, h₁⟩ := h.removeEnclave_isOk he
    -- the other accounts are still registered once `a` is gone
    have hreg₁ : ∀ b ∈ accounts, b ∈ s₁.enclaveRegistry := by
      intro b hb
      obtain ⟨ident, rfl⟩ := removeEnclave_shape h₁
      have hba : b ≠ a := fun hba => hnd.1 (hba ▸ hb)
      exact (AList.mem_erase).2 ⟨hba, hreg b (List.mem_cons_of_mem _ hb)⟩
    obtain ⟨s', h'⟩ := IdentInv.removeEnclaves_isOk (h.of_removeEnclave h₁) hnd.2 hreg₁
    refine ⟨s', ?_⟩
    unfold removeEnclaves at h' ⊢
    rw [List.foldlM_cons, h₁]
    exact h'

/-- A sweep of the registry by any test runs to the end. -/
theorem IdentInv.sweep_isOk (h : IdentInv s) (p : Enclave → Bool) :
    ∃ s', removeEnclaves s (registeredWhere s p) = .ok s' := by
  refine h.removeEnclaves_isOk (nodup_registeredWhere s p) (fun a ha => ?_)
  obtain ⟨e, he, -⟩ := mem_registeredWhere.1 ha
  exact AList.lookup_isSome.1 (by rw [he]; rfl)

theorem step_identInv {c : Call A} (h : IdentInv s) (hs : step cfg s c = .ok s') :
    IdentInv s' := by
  cases c with
  | setAdmin o a =>
    cases setAdmin_ok hs
    exact h.of_eq rfl rfl
  | setMode o m =>
    cases setMode_ok hs
    exact h.of_eq rfl rfl
  | forceAddEnclave o who e => exact h.of_addEnclave (forceAddEnclave_ok hs)
  | forceRemoveEnclave o who => exact h.of_removeEnclave (forceRemoveEnclave_ok hs)
  | forceRemoveEnclaveByMrenclave o m =>
    exact h.of_removeEnclaves (forceRemoveEnclaveByMrenclave_ok hs)
  | forceRemoveEnclaveByWorkerType o wt =>
    exact h.of_removeEnclaves (forceRemoveEnclaveByWorkerType_ok hs)
  | forceAddAuthorizedEnclave o wt m =>
    cases forceAddAuthorizedEnclave_ok hs
    exact h.of_eq rfl rfl
  | forceRemoveAuthorizedEnclave o wt m =>
    obtain ⟨-, hrm⟩ := forceRemoveAuthorizedEnclave_ok hs
    exact (h.withAuthorized _).of_removeEnclaves (forceRemoveEnclaveByMrenclave_ok hrm)
  | registerEnclave o wt wm att url sk vk ty =>
    obtain ⟨sender, e, s₁, -, hauth, hadd⟩ := registerEnclave_ok hs
    obtain ⟨auth, rfl, -, -⟩ := authorize_ok hauth
    exact (h.withAuthorized auth).of_addEnclave hadd
  | unregisterEnclave o =>
    obtain ⟨sender, hrm⟩ := unregisterEnclave_ok hs
    exact h.of_removeEnclave hrm
  | parentchainBlockProcessed o =>
    cases parentchainBlockProcessed_ok hs
    exact h
  | sidechainBlockImported o shard n next hash =>
    rcases sidechainBlockImported_ok hs with rfl | himp
    · exact h
    · obtain ⟨-, -, rfl⟩ := importBlock_ok himp
      exact h.of_eq rfl rfl
  | environment env =>
    cases Reach.pure_eq_ok.1 hs
    exact h.of_eq rfl rfl

theorem Reachable.identInv (h : Reachable cfg s) : IdentInv s :=
  Reach.Reachable.invariant (fun _ ⟨d, admin, mode, env, hs⟩ => hs ▸ IdentInv.genesis d admin mode env)
    (fun _ _ _ hs hst => step_identInv hs hst) h

/-! ## 3. The bulk removals run to the end -/

theorem forceRemoveEnclaveByMrenclave_eq {o : Origin A} {m : MrEnclave}
    (ho : ensureAdminOrRoot s o = .ok ()) :
    forceRemoveEnclaveByMrenclave s o m =
      removeEnclaves s (registeredWhere s fun e => e.mrenclave == m) := by
  unfold forceRemoveEnclaveByMrenclave
  rw [ho]
  rfl

theorem forceRemoveEnclaveByWorkerType_eq {o : Origin A} {wt : WorkerType}
    (ho : ensureAdminOrRoot s o = .ok ()) :
    forceRemoveEnclaveByWorkerType s o wt =
      removeEnclaves s (registeredWhere s fun e => e.workerType == wt) := by
  unfold forceRemoveEnclaveByWorkerType
  rw [ho]
  rfl

theorem forceRemoveAuthorizedEnclave_eq {o : Origin A} {wt : WorkerType} {m : MrEnclave}
    (ho : ensureAdminOrRoot s o = .ok ()) (hm : m ∈ s.authorizedEnclave wt) :
    forceRemoveAuthorizedEnclave s o wt m = forceRemoveEnclaveByMrenclave { s with
      authorizedEnclave :=
        (Function.update s.authorizedEnclave wt ((s.authorizedEnclave wt).filter (· != m))) }
      o m := by
  unfold forceRemoveAuthorizedEnclave
  rw [ho]
  exact if_neg (not_not.2 hm)

theorem IdentInv.forceRemoveEnclaveByMrenclave_isOk (h : IdentInv s) {o : Origin A}
    (ho : ensureAdminOrRoot s o = .ok ()) (m : MrEnclave) :
    ∃ s', forceRemoveEnclaveByMrenclave s o m = .ok s' := by
  rw [forceRemoveEnclaveByMrenclave_eq ho]
  exact h.sweep_isOk _

theorem IdentInv.forceRemoveEnclaveByWorkerType_isOk (h : IdentInv s) {o : Origin A}
    (ho : ensureAdminOrRoot s o = .ok ()) (wt : WorkerType) :
    ∃ s', forceRemoveEnclaveByWorkerType s o wt = .ok s' := by
  rw [forceRemoveEnclaveByWorkerType_eq ho]
  exact h.sweep_isOk _

/-- The sweep after the authorisation is gone runs on the same registry and admin. -/
theorem IdentInv.forceRemoveAuthorizedEnclave_isOk (h : IdentInv s) {o : Origin A}
    {wt : WorkerType} {m : MrEnclave} (ho : ensureAdminOrRoot s o = .ok ())
    (hm : m ∈ s.authorizedEnclave wt) : ∃ s', forceRemoveAuthorizedEnclave s o wt m = .ok s' := by
  rw [forceRemoveAuthorizedEnclave_eq ho hm]
  have h₁ := h.withAuthorized
    (Function.update s.authorizedEnclave wt ((s.authorizedEnclave wt).filter (· != m)))
  exact h₁.forceRemoveEnclaveByMrenclave_isOk ho m

/-- `force_remove_authorized_enclave` takes the authorisation away from its worker type
    only, and removes the registered enclaves with that `mrenclave`, of every worker type. -/
theorem forceRemoveAuthorizedEnclave_removes {o : Origin A} {wt : WorkerType} {m : MrEnclave}
    (hs : forceRemoveAuthorizedEnclave s o wt m = .ok s') :
    (∀ who, s'.enclaveRegistry.lookup who =
      (s.enclaveRegistry.lookup who).filter fun e => e.mrenclave != m) ∧
    s'.authorizedEnclave =
      Function.update s.authorizedEnclave wt ((s.authorizedEnclave wt).filter (· != m)) := by
  obtain ⟨-, hrm⟩ := forceRemoveAuthorizedEnclave_ok hs
  have hsweep := forceRemoveEnclaveByMrenclave_ok hrm
  refine ⟨fun who => lookup_removeEnclaves_registeredWhere hsweep who, ?_⟩
  obtain ⟨ident, reg, rfl⟩ := removeEnclaves_shape hsweep
  rfl

/-! ## 4. Authorisation of every registered enclave -/

/-- Every registered enclave's `mrenclave` is authorised for its worker type. -/
def AuthInv (s : State A) : Prop :=
  ∀ who e, s.enclaveRegistry.lookup who = some e → e.mrenclave ∈ s.authorizedEnclave e.workerType

/-- Fewer enclaves and more authorisations keep every enclave authorised. -/
theorem AuthInv.mono (h : AuthInv s)
    (hreg : ∀ who e, s'.enclaveRegistry.lookup who = some e →
      s.enclaveRegistry.lookup who = some e)
    (hauth : ∀ wt m, m ∈ s.authorizedEnclave wt → m ∈ s'.authorizedEnclave wt) :
    AuthInv s' :=
  fun who e he => hauth _ _ (h who e (hreg who e he))

theorem AuthInv.of_removeEnclaves (h : AuthInv s) {accounts : List A}
    (hs : removeEnclaves s accounts = .ok s') : AuthInv s' := by
  refine h.mono (fun who e he => ?_) (fun wt m hm => ?_)
  · rw [lookup_removeEnclaves hs who] at he
    split_ifs at he
    exact he
  · obtain ⟨ident, reg, rfl⟩ := removeEnclaves_shape hs
    exact hm

theorem AuthInv.of_removeEnclave (h : AuthInv s) {sender : A}
    (hs : removeEnclave s sender = .ok s') : AuthInv s' := by
  have hs' : removeEnclaves s [sender] = .ok s' := by
    unfold removeEnclaves
    rw [List.foldlM_cons, hs]
    rfl
  exact h.of_removeEnclaves hs'

/-- An enclave whose `mrenclave` is authorised for its worker type may be added. -/
theorem AuthInv.of_addEnclave (h : AuthInv s) {sender : A} {e : Enclave}
    (he : e.mrenclave ∈ s.authorizedEnclave e.workerType)
    (hs : addEnclave cfg s sender e = .ok s') : AuthInv s' := by
  obtain ⟨ident, rfl⟩ := addEnclave_shape hs
  refine StorageMap.forall_lookup_insert he (fun who e' he' _ => h who e' he')

/-- Removing an authorisation removes every enclave that relied on it. -/
theorem AuthInv.of_forceRemoveAuthorizedEnclave (h : AuthInv s) {o : Origin A} {wt : WorkerType}
    {m : MrEnclave} (hs : forceRemoveAuthorizedEnclave s o wt m = .ok s') : AuthInv s' := by
  obtain ⟨hreg, hauth⟩ := forceRemoveAuthorizedEnclave_removes hs
  intro who e he
  rw [hreg who] at he
  obtain ⟨he, hm⟩ := Option.filter_eq_some_iff.1 he
  -- the enclave survived the sweep, so its `mrenclave` is not the one taken away
  have hne : e.mrenclave ≠ m := by simpa using hm
  have hold := h who e he
  rw [hauth]
  by_cases hwt : e.workerType = wt
  · rw [hwt, Function.update_self, List.mem_filter]
    exact ⟨hwt ▸ hold, by simpa using hne⟩
  · rwa [Function.update_of_ne hwt]

/-- Whether a call is `force_add_enclave`, the one way in without authorisation. -/
def Call.isForceAddEnclave : Call A → Bool
  | .forceAddEnclave .. => true
  | _ => false

theorem step_authInv {c : Call A} (h : AuthInv s) (hc : c.isForceAddEnclave = false)
    (hs : step cfg s c = .ok s') : AuthInv s' := by
  cases c with
  | setAdmin o a =>
    cases setAdmin_ok hs
    exact h
  | setMode o m =>
    cases setMode_ok hs
    exact h
  | forceAddEnclave o who e => cases hc
  | forceRemoveEnclave o who => exact h.of_removeEnclave (forceRemoveEnclave_ok hs)
  | forceRemoveEnclaveByMrenclave o m =>
    exact h.of_removeEnclaves (forceRemoveEnclaveByMrenclave_ok hs)
  | forceRemoveEnclaveByWorkerType o wt =>
    exact h.of_removeEnclaves (forceRemoveEnclaveByWorkerType_ok hs)
  | forceAddAuthorizedEnclave o wt m =>
    cases forceAddAuthorizedEnclave_ok hs
    refine h.mono (fun _ _ he => he) (fun wt' m' hm => ?_)
    dsimp only
    by_cases hwt : wt' = wt
    · subst hwt
      simp [hm]
    · rwa [Function.update_of_ne hwt]
  | forceRemoveAuthorizedEnclave o wt m => exact h.of_forceRemoveAuthorizedEnclave hs
  | registerEnclave o wt wm att url sk vk ty =>
    -- the mode check authorises the enclave, then `add_enclave` registers it
    obtain ⟨sender, e, s₁, hwt, hauth, hadd⟩ := registerEnclave_ok hs
    obtain ⟨auth, rfl, he, hmono⟩ := authorize_ok hauth
    have h₁ : AuthInv { s with authorizedEnclave := auth } := h.mono (fun _ _ he => he) hmono
    exact h₁.of_addEnclave (hwt ▸ he) hadd
  | unregisterEnclave o =>
    obtain ⟨sender, hrm⟩ := unregisterEnclave_ok hs
    exact h.of_removeEnclave hrm
  | parentchainBlockProcessed o =>
    cases parentchainBlockProcessed_ok hs
    exact h
  | sidechainBlockImported o shard n next hash =>
    rcases sidechainBlockImported_ok hs with rfl | himp
    · exact h
    · obtain ⟨-, -, rfl⟩ := importBlock_ok himp
      exact h
  | environment env =>
    cases Reach.pure_eq_ok.1 hs
    exact h

/-- The ghost flag: whether a `force_add_enclave` has succeeded so far. -/
def forceAddedNext (g : Bool) (_ : State A) (c : Call A) (_ : State A) : Bool :=
  g || c.isForceAddEnclave

/-- The states a run can be in, with whether it made a `force_add_enclave`. -/
def FlagReachable (cfg : Config A) : State A × Bool → Prop :=
  Reach.Reachable (Reach.ghostInit IsGenesis false) (Reach.withGhost forceAddedNext (step cfg))

theorem FlagReachable.reachable {sg : State A × Bool} (h : FlagReachable cfg sg) :
    Reachable cfg sg.1 :=
  Reach.Reachable.of_withGhost h

/-- Every run of the pallet carries its flag. -/
theorem Reachable.exists_flag (h : Reachable cfg s) : ∃ g, FlagReachable cfg (s, g) :=
  Reach.Reachable.withGhost h

/-- Without a `force_add_enclave`, every registered enclave is authorised. -/
theorem FlagReachable.authInv {sg : State A × Bool} (h : FlagReachable cfg sg) :
    sg.2 = false → AuthInv sg.1 := by
  induction h with
  | init hsg =>
    obtain ⟨⟨d, admin, mode, env, hs⟩, -⟩ := hsg
    intro _ who e he
    rw [hs] at he
    exact absurd he (by simp [genesis])
  | step c _ hst ih =>
    obtain ⟨s', hs', rfl⟩ := Reach.withGhost_eq_ok.1 hst
    intro hg
    -- the flag is still down, so it was down before and this call is not the forced add
    simp only [forceAddedNext, Bool.or_eq_false_iff] at hg
    exact step_authInv (ih hg.1) hg.2 hs'

/-! ## 5. Finalization candidates only grow -/

/-- Only an imported block writes a finalization candidate. -/
theorem step_candidate {c : Call A} (hs : step cfg s c = .ok s') :
    s'.sidechainBlockFinalizationCandidate = s.sidechainBlockFinalizationCandidate ∨
      ∃ shard n next hash, importBlock s shard n next hash = .ok s' := by
  cases c with
  | setAdmin o a =>
    cases setAdmin_ok hs
    exact .inl rfl
  | setMode o m =>
    cases setMode_ok hs
    exact .inl rfl
  | forceAddEnclave o who e =>
    obtain ⟨ident, rfl⟩ := addEnclave_shape (forceAddEnclave_ok hs)
    exact .inl rfl
  | forceRemoveEnclave o who =>
    obtain ⟨ident, rfl⟩ := removeEnclave_shape (forceRemoveEnclave_ok hs)
    exact .inl rfl
  | forceRemoveEnclaveByMrenclave o m =>
    obtain ⟨ident, reg, rfl⟩ := removeEnclaves_shape (forceRemoveEnclaveByMrenclave_ok hs)
    exact .inl rfl
  | forceRemoveEnclaveByWorkerType o wt =>
    obtain ⟨ident, reg, rfl⟩ := removeEnclaves_shape (forceRemoveEnclaveByWorkerType_ok hs)
    exact .inl rfl
  | forceAddAuthorizedEnclave o wt m =>
    cases forceAddAuthorizedEnclave_ok hs
    exact .inl rfl
  | forceRemoveAuthorizedEnclave o wt m =>
    obtain ⟨-, hrm⟩ := forceRemoveAuthorizedEnclave_ok hs
    obtain ⟨ident, reg, rfl⟩ := removeEnclaves_shape (forceRemoveEnclaveByMrenclave_ok hrm)
    exact .inl rfl
  | registerEnclave o wt wm att url sk vk ty =>
    obtain ⟨sender, e, s₁, -, hauth, hadd⟩ := registerEnclave_ok hs
    obtain ⟨auth, rfl, -, -⟩ := authorize_ok hauth
    obtain ⟨ident, rfl⟩ := addEnclave_shape hadd
    exact .inl rfl
  | unregisterEnclave o =>
    obtain ⟨sender, hrm⟩ := unregisterEnclave_ok hs
    obtain ⟨ident, rfl⟩ := removeEnclave_shape hrm
    exact .inl rfl
  | parentchainBlockProcessed o =>
    cases parentchainBlockProcessed_ok hs
    exact .inl rfl
  | sidechainBlockImported o shard n next hash =>
    rcases sidechainBlockImported_ok hs with rfl | himp
    · exact .inl rfl
    · exact .inr ⟨shard, n, next, hash, himp⟩
  | environment env =>
    cases Reach.pure_eq_ok.1 hs
    exact .inl rfl

/-- The candidate a step writes is later than the one it replaces, as the getter reads
    it (`0` when there is none). -/
theorem step_candidate_grows {c : Call A} (hs : step cfg s c = .ok s') (shard : List UInt8) :
    (s.sidechainBlockFinalizationCandidate shard).getD 0 ≤
        (s'.sidechainBlockFinalizationCandidate shard).getD 0 ∧
      (s'.sidechainBlockFinalizationCandidate shard ≠ s.sidechainBlockFinalizationCandidate shard →
        (s.sidechainBlockFinalizationCandidate shard).getD 0 <
          (s'.sidechainBlockFinalizationCandidate shard).getD 0) := by
  rcases step_candidate hs with heq | ⟨shard₀, n, next, hash, himp⟩
  · rw [heq]
    exact ⟨Nat.le_refl _, fun hne => absurd rfl hne⟩
  obtain ⟨-, hlt, rfl⟩ := importBlock_ok himp
  -- an absent candidate reads `0` here and `1` to `sidechain_block_imported`
  have hread : (s.sidechainBlockFinalizationCandidate shard₀).getD 0 ≤
      (s.sidechainBlockFinalizationCandidate shard₀).getD 1 := by
    cases s.sidechainBlockFinalizationCandidate shard₀ <;> simp
  by_cases hsh : shard = shard₀
  · subst hsh
    simp only [Function.update_self, Option.getD_some]
    exact ⟨by omega, fun _ => by omega⟩
  · simp only [Function.update_of_ne hsh]
    exact ⟨Nat.le_refl _, fun hne => absurd rfl hne⟩

/-! ## 6. The registry over every run -/

/-- In every run: (a) each `EnclaveIdentifier(wt)` is duplicate-free and lists exactly the
    registered accounts of worker type `wt`, so `remove_enclave` never fails on a
    registered account and the admin's bulk removals run to the end; (b) without a
    `force_add_enclave`, every registered enclave is authorised for its worker type, and
    `force_remove_authorized_enclave(wt, m)` removes exactly the enclaves with `mrenclave`
    `m`, of every worker type, and `m` from the authorisations of `wt` only; (c) a step
    moves a shard's finalization candidate only forward. -/
theorem enclaveRegistry_consistent {g : Bool} (h : FlagReachable cfg (s, g)) :
    (∀ wt, (s.enclaveIdentifier wt).Nodup ∧ ∀ who, who ∈ s.enclaveIdentifier wt ↔
      ∃ e, s.enclaveRegistry.lookup who = some e ∧ e.workerType = wt) ∧
    (∀ who e, s.enclaveRegistry.lookup who = some e → ∃ s', removeEnclave s who = .ok s') ∧
    (∀ o m, ensureAdminOrRoot s o = .ok () →
      ∃ s', forceRemoveEnclaveByMrenclave s o m = .ok s') ∧
    (∀ o wt, ensureAdminOrRoot s o = .ok () →
      ∃ s', forceRemoveEnclaveByWorkerType s o wt = .ok s') ∧
    (g = false → ∀ who e, s.enclaveRegistry.lookup who = some e →
      e.mrenclave ∈ s.authorizedEnclave e.workerType) ∧
    (∀ o wt m, ensureAdminOrRoot s o = .ok () → m ∈ s.authorizedEnclave wt →
      ∃ s', forceRemoveAuthorizedEnclave s o wt m = .ok s') ∧
    (∀ o wt m s', forceRemoveAuthorizedEnclave s o wt m = .ok s' →
      (∀ who, s'.enclaveRegistry.lookup who =
        (s.enclaveRegistry.lookup who).filter fun e => e.mrenclave != m) ∧
      s'.authorizedEnclave =
        Function.update s.authorizedEnclave wt ((s.authorizedEnclave wt).filter (· != m))) ∧
    (∀ c s', step cfg s c = .ok s' → ∀ shard,
      (s.sidechainBlockFinalizationCandidate shard).getD 0 ≤
          (s'.sidechainBlockFinalizationCandidate shard).getD 0 ∧
        (s'.sidechainBlockFinalizationCandidate shard ≠
            s.sidechainBlockFinalizationCandidate shard →
          (s.sidechainBlockFinalizationCandidate shard).getD 0 <
            (s'.sidechainBlockFinalizationCandidate shard).getD 0)) := by
  have hident : IdentInv s := FlagReachable.reachable h |>.identInv
  exact ⟨fun wt => ⟨hident.nodup wt, hident.mem_iff wt⟩,
    fun who e he => hident.removeEnclave_isOk he,
    fun o m ho => hident.forceRemoveEnclaveByMrenclave_isOk ho m,
    fun o wt ho => hident.forceRemoveEnclaveByWorkerType_isOk ho wt,
    FlagReachable.authInv h,
    fun o wt m ho hm => hident.forceRemoveAuthorizedEnclave_isOk ho hm,
    fun o wt m s' hs => forceRemoveAuthorizedEnclave_removes hs,
    fun c s' hs shard => step_candidate_grows hs shard⟩

/-- A runtime whose root is the admin origin, with room for ten enclaves of each kind. -/
def teebagConfig : Config Nat := ⟨10, 10, fun o => match o with | .root => true | _ => false⟩

/-- A clock at `0`, and no attestation report that verifies. -/
def noAttestationEnv : Env Nat := ⟨0, fun _ _ => .error .other, fun _ _ => .error .other⟩

/-- The `mrenclave` two workers of different types share. -/
def sharedMrenclave : MrEnclave := List.replicate 32 7

/-- In development mode an identity worker `1` and a bit-across worker `2` register
    with the same `mrenclave`, each authorising it for its own worker type. -/
def sharedRun : List (Call Nat) :=
  [.registerEnclave (.signed 1) .identity .sidechain sharedMrenclave [] none none .ignore,
    .registerEnclave (.signed 2) .bitAcross .offChainWorker sharedMrenclave [] none none .ignore]

theorem sharedRun_checks :
    Reach.runChecks (Reach.withGhost forceAddedNext (step teebagConfig))
      (genesis false none .development noAttestationEnv, false) sharedRun
      (fun sg => !sg.2 && (sg.1.enclaveRegistry.lookup 2).map Enclave.workerType == some .bitAcross &&
        match forceRemoveAuthorizedEnclave sg.1 .root .identity sharedMrenclave with
        | .ok s' => (s'.enclaveRegistry.lookup 2).isNone
        | .error _ => false) = true := by
  decide

theorem sharedRun_reaches : ∃ s, FlagReachable teebagConfig (s, false) ∧
    (s.enclaveRegistry.lookup 2).map Enclave.workerType = some .bitAcross ∧
    ∃ s', forceRemoveAuthorizedEnclave s .root .identity sharedMrenclave = .ok s' ∧
      s'.enclaveRegistry.lookup 2 = none := by
  have h₀ : Reach.ghostInit IsGenesis false (genesis false none .development noAttestationEnv, false) :=
    ⟨⟨_, _, _, _, rfl⟩, rfl⟩
  obtain ⟨⟨s, g⟩, hsg, hp⟩ := Reach.Reachable.of_runChecks h₀ sharedRun_checks
  simp only [Bool.and_eq_true, Bool.not_eq_true', beq_iff_eq] at hp
  obtain ⟨⟨hg, hwt⟩, hrm⟩ := hp
  subst hg
  split at hrm
  · exact ⟨s, hsg, hwt, _, by assumption, Option.isNone_iff_eq_none.1 hrm⟩
  · cases hrm

/-- Removing the authorisation of `sharedMrenclave` for identity workers also removes the
    bit-across worker `2`, whose worker type still authorises it. -/
theorem forceRemoveAuthorizedEnclave_sweeps_other_worker_types : ∃ s s',
    Reachable teebagConfig s ∧ (s.enclaveRegistry.lookup 2).map Enclave.workerType = some .bitAcross ∧
    forceRemoveAuthorizedEnclave s .root .identity sharedMrenclave = .ok s' ∧
    s'.enclaveRegistry.lookup 2 = none := by
  obtain ⟨s, hs, hwt, s', hrm, hnone⟩ := sharedRun_reaches
  exact ⟨s, s', FlagReachable.reachable hs, hwt, hrm, hnone⟩

theorem enclaveRegistry_consistent_after_sharedRun : ∃ s e, FlagReachable teebagConfig (s, false) ∧
    s.enclaveRegistry.lookup 2 = some e ∧ 2 ∈ s.enclaveIdentifier .bitAcross ∧
    e.mrenclave ∈ s.authorizedEnclave .bitAcross := by
  obtain ⟨s, hs, hwt, -⟩ := sharedRun_reaches
  obtain ⟨e, he, hwt'⟩ := Option.map_eq_some_iff.1 hwt
  have hreg := enclaveRegistry_consistent hs
  have hauth := hreg.2.2.2.2.1 rfl 2 e he
  rw [hwt'] at hauth
  exact ⟨s, e, hs, he, ((hreg.1 .bitAcross).2 2).2 ⟨e, he, hwt'⟩, hauth⟩

end Teebag
end Litentry
