import Litentry.Bridge.Pallet

/-!
# Voting on bridge proposals

What any interleaving of committee calls, votes, evaluations and new blocks keeps,
proposal by proposal:

* no one votes twice on a proposal, or on both sides, and every new vote is cast
  by a relayer of the moment;
* a proposal leaves `Initiated` at most once, for `Approved` or `Rejected`, and
  its entry never changes after that;
* it is approved only with at least `RelayerThreshold` votes for it, and rejected
  only when there are at least `RelayerThreshold` relayers and more votes against
  it than relayers beyond the threshold;
* nothing is written to it at or after its expiry;
* a call dispatches a proposal exactly when it approves it, so each proposal is
  dispatched in at most one step of any run.

`RelayerCount` is a `u32` counted up and down with wrapping arithmetic. It is
the number of relayers modulo `2^32`, and no longer that number once `2^32`
relayers have been added.

Everything rests on `step_move`, which says once what a successful call can do:
one `Move`, a committee change, a new block, or the resolution of one proposal.
-/

set_option autoImplicit false

namespace Litentry
namespace Bridge

variable {A P ρ ε : Type}

/-! ## 1. Entries -/

namespace ProposalVotes

/-- Everyone who voted on the proposal. -/
def voters (v : ProposalVotes A) : List A := v.votesFor ++ v.votesAgainst

/-- No one voted twice, nor on both sides. -/
def WellVoted (v : ProposalVotes A) : Prop :=
  v.votesFor.Nodup ∧ v.votesAgainst.Nodup ∧ v.votesFor.Disjoint v.votesAgainst

@[simp] theorem isComplete_eq_false {v : ProposalVotes A} :
    v.isComplete = false ↔ v.status = .initiated := by
  simp [isComplete]

@[simp] theorem isExpired_eq_false {v : ProposalVotes A} {now : Nat} :
    v.isExpired now = false ↔ now < v.expiry := by
  simp [isExpired]

@[simp] theorem hasVoted_eq_false [DecidableEq A] {v : ProposalVotes A} {who : A} :
    v.hasVoted who = false ↔ who ∉ v.voters := by
  simp [hasVoted, voters]

@[simp] theorem fresh_status (e : Nat) : (fresh e : ProposalVotes A).status = .initiated := rfl

@[simp] theorem fresh_expiry (e : Nat) : (fresh e : ProposalVotes A).expiry = e := rfl

@[simp] theorem fresh_voters (e : Nat) : (fresh e : ProposalVotes A).voters = [] := rfl

theorem fresh_wellVoted (e : Nat) : (fresh e : ProposalVotes A).WellVoted :=
  ⟨List.nodup_nil, List.nodup_nil, List.disjoint_nil_left _⟩

@[simp] theorem addVote_status (v : ProposalVotes A) (who : A) (b : Bool) :
    (v.addVote who b).status = v.status := by
  unfold addVote; split <;> rfl

@[simp] theorem addVote_expiry (v : ProposalVotes A) (who : A) (b : Bool) :
    (v.addVote who b).expiry = v.expiry := by
  unfold addVote; split <;> rfl

theorem mem_voters_addVote {v : ProposalVotes A} {who a : A} {b : Bool} :
    a ∈ (v.addVote who b).voters ↔ a = who ∨ a ∈ v.voters := by
  unfold addVote voters
  cases b <;> simp [or_comm, or_left_comm]

/-- A vote by someone who has not voted keeps the votes well formed. -/
theorem WellVoted.addVote {v : ProposalVotes A} {who : A} (h : v.WellVoted) (hw : who ∉ v.voters)
    (b : Bool) : (v.addVote who b).WellVoted := by
  obtain ⟨hf, ha, hd⟩ := h
  simp only [voters, List.mem_append, not_or] at hw
  unfold ProposalVotes.addVote
  cases b with
  | true =>
    refine ⟨List.nodup_append.2 ⟨hf, List.nodup_singleton who, ?_⟩, ha, ?_⟩
    · simpa using fun a ha' => ne_of_mem_of_not_mem ha' hw.1
    · exact List.disjoint_append_left.2 ⟨hd, by simpa using hw.2⟩
  | false =>
    refine ⟨hf, List.nodup_append.2 ⟨ha, List.nodup_singleton who, ?_⟩, ?_⟩
    · simpa using fun a ha' => ne_of_mem_of_not_mem ha' hw.2
    · exact List.disjoint_append_right.2 ⟨hd, by simpa using hw.1⟩

section Complete

variable {v : ProposalVotes A} {threshold total : UInt32}

@[simp] theorem tryToComplete_votesFor :
    (v.tryToComplete threshold total).1.votesFor = v.votesFor := by
  unfold tryToComplete; split_ifs <;> rfl

@[simp] theorem tryToComplete_votesAgainst :
    (v.tryToComplete threshold total).1.votesAgainst = v.votesAgainst := by
  unfold tryToComplete; split_ifs <;> rfl

@[simp] theorem tryToComplete_expiry :
    (v.tryToComplete threshold total).1.expiry = v.expiry := by
  unfold tryToComplete; split_ifs <;> rfl

theorem tryToComplete_voters : (v.tryToComplete threshold total).1.voters = v.voters := by
  simp [voters]

theorem WellVoted.tryToComplete (h : v.WellVoted) : (v.tryToComplete threshold total).1.WellVoted := by
  simpa [WellVoted] using h

/-- From `Initiated`, the status stored is the status returned. -/
theorem tryToComplete_status (hv : v.status = .initiated) :
    (v.tryToComplete threshold total).1.status = (v.tryToComplete threshold total).2 := by
  unfold tryToComplete; split_ifs <;> simp [hv]

/-- Approval needs the votes for to reach the threshold. -/
theorem threshold_le_of_approved (hv : v.status = .initiated)
    (h : (v.tryToComplete threshold total).1.status = .approved) :
    threshold.toNat ≤ v.votesFor.length := by
  unfold tryToComplete at h
  by_cases h₁ : threshold.toNat ≤ v.votesFor.length
  · exact h₁
  · -- otherwise the status becomes `Rejected` or stays `Initiated`
    rw [if_neg h₁] at h
    split_ifs at h
    simp [hv] at h

/-- Rejection needs at least `threshold` relayers and more votes against than the
    relayers beyond the threshold. The sum of `u32`s may wrap, but then it is
    below the threshold, hence below the count: a wrapped sum never rejects. -/
theorem lt_votesAgainst_of_rejected (hv : v.status = .initiated)
    (h : (v.tryToComplete threshold total).1.status = .rejected) :
    threshold.toNat ≤ total.toNat ∧ total.toNat - threshold.toNat < v.votesAgainst.length := by
  unfold tryToComplete at h
  by_cases h₁ : threshold.toNat ≤ v.votesFor.length
  · rw [if_pos h₁] at h
    simp at h
  rw [if_neg h₁] at h
  by_cases h₂ : threshold ≤ total ∧ total < UInt32.ofNat v.votesAgainst.length + threshold
  · obtain ⟨hle, hlt⟩ := h₂
    have hle' := UInt32.le_iff_toNat_le.1 hle
    have hlt' := UInt32.lt_iff_toNat_lt.1 hlt
    rw [UInt32.toNat_add, UInt32.toNat_ofNat'] at hlt'
    have hth := threshold.toNat_lt
    have hlen := Nat.mod_le v.votesAgainst.length (2 ^ 32)
    omega
  · rw [if_neg h₂] at h
    simp [hv] at h

end Complete

end ProposalVotes

open ProposalVotes

/-! ## 2. Proposals in the state -/

variable [DecidableEq P]

section Entries

variable {s s' : State A P ρ} {srcId srcId' : BridgeChainId} {key key' : DepositNonce × P}

@[simp] theorem insertVotes_votes (v : ProposalVotes A) :
    (insertVotes s srcId key v).votes srcId' key' =
      if srcId' = srcId ∧ key' = key then some v else s.votes srcId' key' := by
  unfold insertVotes
  by_cases h₁ : srcId' = srcId
  · subst h₁
    by_cases h₂ : key' = key
    · subst h₂
      simp
    · simp [h₂]
  · simp [h₁]

@[simp] theorem insertVotes_relayers (v : ProposalVotes A) :
    (insertVotes s srcId key v).relayers = s.relayers := rfl

@[simp] theorem insertVotes_relayerCount (v : ProposalVotes A) :
    (insertVotes s srcId key v).relayerCount = s.relayerCount := rfl

@[simp] theorem insertVotes_relayerThreshold (v : ProposalVotes A) :
    (insertVotes s srcId key v).relayerThreshold = s.relayerThreshold := rfl

@[simp] theorem insertVotes_blockNumber (v : ProposalVotes A) :
    (insertVotes s srcId key v).blockNumber = s.blockNumber := rfl

@[simp] theorem insertVotes_rest (v : ProposalVotes A) :
    (insertVotes s srcId key v).rest = s.rest := rfl

theorem insertVotes_insertVotes (v w : ProposalVotes A) :
    insertVotes (insertVotes s srcId key v) srcId key w = insertVotes s srcId key w := by
  simp [insertVotes]

/-- The status of a proposal, if it has an entry. -/
def State.statusOf (s : State A P ρ) (srcId : BridgeChainId) (key : DepositNonce × P) :
    Option ProposalStatus :=
  (s.votes srcId key).map (·.status)

/-- The step from `s` to `s'` approves the proposal. -/
def Approves (s s' : State A P ρ) (srcId : BridgeChainId) (key : DepositNonce × P) : Prop :=
  s.statusOf srcId key ≠ some .approved ∧ s'.statusOf srcId key = some .approved

instance (s s' : State A P ρ) (srcId : BridgeChainId) (key : DepositNonce × P) :
    Decidable (Approves s s' srcId key) :=
  inferInstanceAs (Decidable (_ ∧ _))

omit [DecidableEq P] in
/-- A step that keeps a proposal's entry does not approve it. -/
theorem not_approves_of_votes_eq (h : s'.votes srcId key = s.votes srcId key) :
    ¬ Approves s s' srcId key := by
  rintro ⟨hs, hs'⟩
  rw [State.statusOf, h] at hs'
  exact hs hs'

end Entries

/-! ## 3. What a step does -/

section Moves

variable [DecidableEq A] (cfg : Config A P ρ ε)

/-- What a resolution does to the rest of the runtime: an approved proposal is
    dispatched, and the call fails if the dispatch does. -/
def Dispatches (prop : P) (status : ProposalStatus) (rest r : ρ) : Prop :=
  if status = .approved then cfg.dispatch prop cfg.accountId rest = .ok r else r = rest

/-- The entry a resolution from `s` completes, the entry `o` stored for the
    proposal before. -/
inductive Resolution (s : State A P ρ) : Option (ProposalVotes A) → ProposalVotes A → Prop
  /-- `eval_vote_state`: the stored entry as it is. -/
  | eval {v : ProposalVotes A} : v.status = .initiated → s.blockNumber < v.expiry →
      Resolution s (some v) v
  /-- A vote: the stored entry, or a fresh one, with the vote of a relayer that has
      not voted on it. -/
  | vote {o : Option (ProposalVotes A)} {v : ProposalVotes A} (who : A) (inFavour : Bool) :
      o.getD (.fresh (s.blockNumber + cfg.proposalLifetime)) = v → v.status = .initiated →
      s.blockNumber < v.expiry → s.relayers who = true → who ∉ v.voters →
      Resolution s o (v.addVote who inFavour)

/-- **What a successful call can do.** -/
inductive Move (s : State A P ρ) : State A P ρ → Prop
  | setThreshold (threshold : UInt32) : threshold ≠ 0 →
      Move s { s with relayerThreshold := threshold }
  | whitelist (id : BridgeChainId) : id ≠ cfg.bridgeChainId → chainWhitelisted s id = false →
      Move s { s with chainNonces := Function.update s.chainNonces id (some 0) }
  | addRelayer (r : A) : s.relayers r = false →
      Move s { s with
        relayers := Function.update s.relayers r true
        relayerCount := s.relayerCount + 1 }
  | removeRelayer (r : A) : s.relayers r = true →
      Move s { s with
        relayers := Function.update s.relayers r false
        relayerCount := s.relayerCount - 1 }
  | resolve (srcId : BridgeChainId) (nonce : DepositNonce) (prop : P) (v₁ : ProposalVotes A)
      (r : ρ) : Resolution cfg s (s.votes srcId (nonce, prop)) v₁ →
      Dispatches cfg prop (v₁.tryToComplete s.relayerThreshold s.relayerCount).2 s.rest r →
      Move s { insertVotes s srcId (nonce, prop)
        (v₁.tryToComplete s.relayerThreshold s.relayerCount).1 with rest := r }
  | newBlock : Move s (newBlock s)

variable {cfg} {s s' : State A P ρ}

omit [DecidableEq A] [DecidableEq P] in
theorem setRelayerThreshold_ok {threshold : UInt32}
    (h : setRelayerThreshold (ε := ε) s threshold = .ok s') :
    threshold ≠ 0 ∧ s' = { s with relayerThreshold := threshold } := by
  simp only [setRelayerThreshold, bind, Except.bind, throw, throwThe, MonadExceptOf.throw,
    pure, Except.pure, Reach.ite_error_eq_ok, Except.ok.injEq] at h
  exact ⟨h.1, h.2.symm⟩

omit [DecidableEq A] [DecidableEq P] in
theorem whitelist_ok {id : BridgeChainId} (h : whitelist cfg s id = .ok s') :
    id ≠ cfg.bridgeChainId ∧ chainWhitelisted s id = false ∧
      s' = { s with chainNonces := Function.update s.chainNonces id (some 0) } := by
  simp only [whitelist, bind, Except.bind, throw, throwThe, MonadExceptOf.throw,
    pure, Except.pure, Reach.ite_error_eq_ok, Except.ok.injEq, Bool.not_eq_true] at h
  exact ⟨h.1, h.2.1, h.2.2.symm⟩

omit [DecidableEq P] in
theorem registerRelayer_ok {r : A} (h : registerRelayer (ε := ε) s r = .ok s') :
    s.relayers r = false ∧ s' = { s with
      relayers := Function.update s.relayers r true
      relayerCount := s.relayerCount + 1 } := by
  simp only [registerRelayer, bind, Except.bind, throw, throwThe, MonadExceptOf.throw,
    pure, Except.pure, Reach.ite_error_eq_ok, Except.ok.injEq, Bool.not_eq_true] at h
  exact ⟨h.1, h.2.symm⟩

omit [DecidableEq P] in
theorem unregisterRelayer_ok {r : A} (h : unregisterRelayer (ε := ε) s r = .ok s') :
    s.relayers r = true ∧ s' = { s with
      relayers := Function.update s.relayers r false
      relayerCount := s.relayerCount - 1 } := by
  simp only [unregisterRelayer, bind, Except.bind, throw, throwThe,
    MonadExceptOf.throw, pure, Except.pure, Reach.ite_error_eq_ok, Except.ok.injEq,
    Bool.not_eq_eq_eq_not, Bool.not_true, Bool.not_eq_false] at h
  exact ⟨h.1, h.2.symm⟩

theorem commitVote_ok {who : A} {nonce : DepositNonce} {srcId : BridgeChainId} {prop : P}
    {inFavour : Bool} (h : commitVote cfg s who nonce srcId prop inFavour = .ok s') :
    ∃ v, (s.votes srcId (nonce, prop)).getD (.fresh (s.blockNumber + cfg.proposalLifetime)) = v ∧
      v.status = .initiated ∧ s.blockNumber < v.expiry ∧ who ∉ v.voters ∧
      s' = insertVotes s srcId (nonce, prop) (v.addVote who inFavour) := by
  simp only [commitVote, bind, Except.bind, throw, throwThe, MonadExceptOf.throw,
    pure, Except.pure, Reach.ite_error_eq_ok, Except.ok.injEq, Bool.not_eq_true,
    isComplete_eq_false, isExpired_eq_false, hasVoted_eq_false] at h
  exact ⟨_, rfl, h.1, h.2.1, h.2.2.1, h.2.2.2.symm⟩

omit [DecidableEq A] [DecidableEq P] in
theorem finalizeExecution_ok {prop : P} (h : finalizeExecution cfg s prop = .ok s') :
    cfg.dispatch prop cfg.accountId s.rest = .ok s'.rest ∧ s' = { s with rest := s'.rest } := by
  unfold finalizeExecution at h
  split at h
  · cases h
    exact ⟨by assumption, rfl⟩
  · cases h

omit [DecidableEq A] in
theorem tryResolveProposal_ok {nonce : DepositNonce} {srcId : BridgeChainId} {prop : P}
    (h : tryResolveProposal cfg s nonce srcId prop = .ok s') :
    ∃ v r, s.votes srcId (nonce, prop) = some v ∧ v.status = .initiated ∧
      s.blockNumber < v.expiry ∧
      Dispatches cfg prop (v.tryToComplete s.relayerThreshold s.relayerCount).2 s.rest r ∧
      s' = { insertVotes s srcId (nonce, prop)
        (v.tryToComplete s.relayerThreshold s.relayerCount).1 with rest := r } := by
  unfold tryResolveProposal at h
  cases hv : s.votes srcId (nonce, prop) with
  | none =>
    rw [hv] at h
    cases h
  | some v =>
    simp only [hv, bind, Except.bind, throw, throwThe, MonadExceptOf.throw,
      pure, Except.pure, Reach.ite_error_eq_ok, isComplete_eq_false, isExpired_eq_false,
      Bool.not_eq_true] at h
    obtain ⟨hi, hl, h⟩ := h
    refine ⟨v, s'.rest, rfl, hi, hl, ?_⟩
    -- the three outcomes of `try_to_complete`
    cases hc : (v.tryToComplete s.relayerThreshold s.relayerCount).2 with
    | approved =>
      rw [hc] at h
      obtain ⟨hd, hs⟩ := finalizeExecution_ok h
      exact ⟨by simpa [Dispatches] using hd, hs⟩
    | rejected =>
      rw [hc] at h
      cases h
      exact ⟨by simp [Dispatches], rfl⟩
    | initiated =>
      rw [hc] at h
      cases h
      exact ⟨by simp [Dispatches], rfl⟩

/-- A vote that succeeds is a resolution of the proposal voted on. -/
theorem vote_move {who : A} {nonce : DepositNonce} {srcId : BridgeChainId} {prop : P}
    {inFavour : Bool} (hr : s.relayers who = true)
    (h : (commitVote cfg s who nonce srcId prop inFavour >>= fun s =>
      tryResolveProposal cfg s nonce srcId prop) = .ok s') :
    Move cfg s s' := by
  obtain ⟨s₁, h₁, h₂⟩ := Reach.bind_eq_ok.1 h
  obtain ⟨v, hv, hi, hl, hw, rfl⟩ := commitVote_ok h₁
  obtain ⟨v', r, hv', -, -, hd, rfl⟩ := tryResolveProposal_ok h₂
  -- the entry resolved is the one the vote stored
  simp only [insertVotes_votes, and_self, if_true, Option.some.injEq] at hv'
  subst hv'
  simp only [insertVotes_relayerThreshold, insertVotes_relayerCount, insertVotes_rest] at hd ⊢
  rw [insertVotes_insertVotes]
  exact .resolve srcId nonce prop _ r (.vote who inFavour hv hi hl hr hw) hd

/-- **Every successful call is a `Move`.** -/
theorem step_move {c : Call A P} (h : step cfg s c = .ok s') : Move cfg s s' := by
  cases c with
  | setThreshold threshold =>
    obtain ⟨hne, rfl⟩ := setRelayerThreshold_ok h
    exact .setThreshold threshold hne
  | whitelistChain id =>
    obtain ⟨hne, hw, rfl⟩ := whitelist_ok h
    exact .whitelist id hne hw
  | addRelayer r =>
    obtain ⟨hr, rfl⟩ := registerRelayer_ok h
    exact .addRelayer r hr
  | removeRelayer r =>
    obtain ⟨hr, rfl⟩ := unregisterRelayer_ok h
    exact .removeRelayer r hr
  | acknowledgeProposal who nonce srcId call =>
    simp only [step, acknowledgeProposal, voteFor, bind, Except.bind, throw, throwThe,
      MonadExceptOf.throw, Reach.ite_error_eq_ok, Bool.not_eq_eq_eq_not, Bool.not_true,
      Bool.not_eq_false] at h
    exact vote_move h.1 h.2.2
  | rejectProposal who nonce srcId call =>
    simp only [step, rejectProposal, voteAgainst, bind, Except.bind, throw, throwThe,
      MonadExceptOf.throw, Reach.ite_error_eq_ok, Bool.not_eq_eq_eq_not, Bool.not_true,
      Bool.not_eq_false] at h
    exact vote_move h.1 h.2.2
  | evalVoteState nonce srcId prop =>
    obtain ⟨v, r, hv, hi, hl, hd, rfl⟩ := tryResolveProposal_ok h
    exact .resolve srcId nonce prop v r (hv ▸ .eval hi hl) hd
  | newBlock =>
    cases h
    exact .newBlock

end Moves

/-! ## 4. Resolutions -/

section Resolutions

variable {cfg : Config A P ρ ε} {s : State A P ρ} {o : Option (ProposalVotes A)}
  {v₁ : ProposalVotes A}

omit [DecidableEq P] in
theorem Resolution.initiated (h : Resolution cfg s o v₁) : v₁.status = .initiated := by
  cases h with
  | eval hi _ => exact hi
  | vote _ _ _ hi _ _ _ => simpa using hi

omit [DecidableEq P] in
theorem Resolution.live (h : Resolution cfg s o v₁) : s.blockNumber < v₁.expiry := by
  cases h with
  | eval _ hl => exact hl
  | vote _ _ _ _ hl _ _ => simpa using hl

omit [DecidableEq P] in
/-- A resolution of a stored entry needs it `Initiated`, and keeps its expiry. -/
theorem Resolution.of_some {v₀ : ProposalVotes A} (h : Resolution cfg s (some v₀) v₁) :
    v₀.status = .initiated ∧ v₁.expiry = v₀.expiry := by
  cases h with
  | eval hi _ => exact ⟨hi, rfl⟩
  | vote _ _ hv hi _ _ _ =>
    rw [Option.getD_some] at hv
    subst hv
    exact ⟨hi, by simp⟩

omit [DecidableEq P] in
/-- A stored entry that is approved is never resolved again. -/
theorem Resolution.not_approved (h : Resolution cfg s o v₁) :
    o.map (·.status) ≠ some .approved := by
  cases o with
  | none => simp
  | some v₀ => simp [h.of_some.1]

omit [DecidableEq P] in
/-- The one voter a resolution may add is a relayer. -/
theorem Resolution.relayer_of_mem (h : Resolution cfg s o v₁) {a : A} (ha : a ∈ v₁.voters)
    (hnew : a ∉ (o.map voters).getD []) : s.relayers a = true := by
  cases h with
  | eval _ _ => exact absurd ha (by simpa using hnew)
  | vote who _ hv _ _ hr _ =>
    rcases mem_voters_addVote.1 ha with rfl | ha'
    · exact hr
    · -- otherwise `a` had voted on the entry before
      cases o with
      | none =>
        rw [Option.getD_none] at hv
        subst hv
        simp at ha'
      | some v₀ =>
        rw [Option.getD_some] at hv
        subst hv
        exact absurd ha' (by simpa using hnew)

omit [DecidableEq P] in
theorem Resolution.wellVoted (h : Resolution cfg s o v₁)
    (ho : ∀ v₀, o = some v₀ → v₀.WellVoted) : v₁.WellVoted := by
  cases h with
  | eval _ _ => exact ho _ rfl
  | vote _ inFavour hv _ _ _ hw =>
    refine WellVoted.addVote ?_ hw inFavour
    cases o with
    | none =>
      rw [← hv]
      exact fresh_wellVoted _
    | some v₀ =>
      rw [← hv]
      exact ho v₀ rfl

end Resolutions

/-! ## 5. What a move does to each proposal -/

section Entry

variable [DecidableEq A] {cfg : Config A P ρ ε} {s s' : State A P ρ}

/-- A move changes the entry of a proposal not at all, or by a resolution. -/
theorem Move.entry (hm : Move cfg s s') (srcId : BridgeChainId) (key : DepositNonce × P) :
    s'.votes srcId key = s.votes srcId key ∨
      ∃ v₁, Resolution cfg s (s.votes srcId key) v₁ ∧
        s'.votes srcId key = some (v₁.tryToComplete s.relayerThreshold s.relayerCount).1 := by
  cases hm with
  | resolve srcId₀ nonce prop v₁ r hres _ =>
    by_cases hk : srcId = srcId₀ ∧ key = (nonce, prop)
    · obtain ⟨rfl, rfl⟩ := hk
      exact .inr ⟨v₁, hres, by simp⟩
    · exact .inl (by simp [hk])
  | setThreshold => exact .inl rfl
  | whitelist => exact .inl rfl
  | addRelayer => exact .inl rfl
  | removeRelayer => exact .inl rfl
  | newBlock => exact .inl rfl

/-- **A move dispatches a proposal exactly when it approves it**, and approves at
    most the one proposal it resolves. -/
theorem Move.dispatch (hm : Move cfg s s') :
    (s'.rest = s.rest ∧ ∀ srcId key, ¬ Approves s s' srcId key) ∨
    ∃ srcId nonce prop, Approves s s' srcId (nonce, prop) ∧
      (∀ srcId' key', Approves s s' srcId' key' → srcId' = srcId ∧ key' = (nonce, prop)) ∧
      cfg.dispatch prop cfg.accountId s.rest = .ok s'.rest := by
  cases hm with
  | resolve srcId nonce prop v₁ r hres hd =>
    -- only the entry resolved changes, and it was not approved before
    have hother : ∀ srcId' key', ¬(srcId' = srcId ∧ key' = (nonce, prop)) →
        ¬ Approves s { insertVotes s srcId (nonce, prop)
          (v₁.tryToComplete s.relayerThreshold s.relayerCount).1 with rest := r } srcId' key' :=
      fun _ _ hk => not_approves_of_votes_eq (by simp [hk])
    have hst : (v₁.tryToComplete s.relayerThreshold s.relayerCount).1.status =
        (v₁.tryToComplete s.relayerThreshold s.relayerCount).2 :=
      tryToComplete_status hres.initiated
    have hold : s.statusOf srcId (nonce, prop) ≠ some .approved := hres.not_approved
    unfold Dispatches at hd
    split_ifs at hd with ha
    · refine .inr ⟨srcId, nonce, prop, ⟨hold, by simp [State.statusOf, hst, ha]⟩, ?_, hd⟩
      intro srcId' key' hap
      by_contra hk
      exact hother _ _ hk hap
    · refine .inl ⟨hd, fun srcId' key' hap => ?_⟩
      by_cases hk : srcId' = srcId ∧ key' = (nonce, prop)
      · obtain ⟨rfl, rfl⟩ := hk
        exact ha (by simpa [State.statusOf, hst] using hap.2)
      · exact hother _ _ hk hap
  | setThreshold => exact .inl ⟨rfl, fun _ _ => not_approves_of_votes_eq rfl⟩
  | whitelist => exact .inl ⟨rfl, fun _ _ => not_approves_of_votes_eq rfl⟩
  | addRelayer => exact .inl ⟨rfl, fun _ _ => not_approves_of_votes_eq rfl⟩
  | removeRelayer => exact .inl ⟨rfl, fun _ _ => not_approves_of_votes_eq rfl⟩
  | newBlock => exact .inl ⟨rfl, fun _ _ => not_approves_of_votes_eq rfl⟩

end Entry

/-! ## 6. The invariant -/

/-- The accounts `Relayers` maps to `true`. -/
def State.relayerSet (s : State A P ρ) : Set A := {a | s.relayers a = true}

/-- What every reachable state keeps: well-formed votes, finitely many relayers,
    and `RelayerCount` their number modulo `2^32`. -/
structure Inv (s : State A P ρ) : Prop where
  wellVoted : ∀ srcId key v, s.votes srcId key = some v → v.WellVoted
  finite : s.relayerSet.Finite
  relayerCount : s.relayerCount.toNat = s.relayerSet.ncard % 2 ^ 32

section Invariant

variable [DecidableEq A] {cfg : Config A P ρ ε} {s s' : State A P ρ}

omit [DecidableEq A] [DecidableEq P] in
theorem Inv.fresh (h : Fresh s) : Inv s := by
  obtain ⟨-, -, hr, hc, hv, -⟩ := h
  have hset : s.relayerSet = ∅ := by
    ext a
    simp [State.relayerSet, hr a]
  refine ⟨fun srcId key v h => ?_, ?_, ?_⟩
  · rw [hv] at h
    cases h
  · rw [hset]
    exact Set.finite_empty
  · rw [hset, hc, Set.ncard_empty]
    rfl

omit [DecidableEq P] in
theorem setOf_update_true (f : A → Bool) (r : A) :
    {a | Function.update f r true a = true} = insert r {a | f a = true} := by
  ext a
  by_cases h : a = r
  · subst h
    simp
  · simp [h]

omit [DecidableEq P] in
theorem setOf_update_false (f : A → Bool) (r : A) :
    {a | Function.update f r false a = true} = {a | f a = true} \ {r} := by
  ext a
  by_cases h : a = r
  · subst h
    simp
  · simp [h]

/-- **Every move keeps the invariant.** -/
theorem Move.inv (hm : Move cfg s s') (h : Inv s) : Inv s' := by
  -- the votes: each entry is kept or resolved
  have hvotes : ∀ srcId key v, s'.votes srcId key = some v → v.WellVoted := by
    intro srcId key v hv
    rcases hm.entry srcId key with he | ⟨v₁, hres, he⟩
    · exact h.wellVoted srcId key v (he ▸ hv)
    · rw [he, Option.some.injEq] at hv
      subst hv
      exact (hres.wellVoted (h.wellVoted srcId key)).tryToComplete
  -- the relayers: only the committee's two calls change them
  cases hm with
  | addRelayer r hr =>
    have hset : {a | Function.update s.relayers r true a = true} = insert r s.relayerSet :=
      setOf_update_true s.relayers r
    have hnot : r ∉ s.relayerSet := by simp [State.relayerSet, hr]
    refine ⟨hvotes, ?_, ?_⟩
    · show Set.Finite {a | Function.update s.relayers r true a = true}
      rw [hset]
      exact h.finite.insert r
    · show (s.relayerCount + 1).toNat =
        ({a | Function.update s.relayers r true a = true} : Set A).ncard % 2 ^ 32
      rw [hset, Set.ncard_insert_of_notMem hnot h.finite, UInt32.toNat_add, UInt32.toNat_one,
        h.relayerCount]
      omega
  | removeRelayer r hr =>
    have hset : {a | Function.update s.relayers r false a = true} = s.relayerSet \ {r} :=
      setOf_update_false s.relayers r
    have hmem : r ∈ s.relayerSet := hr
    have hpos : 0 < s.relayerSet.ncard := (Set.ncard_pos h.finite).2 ⟨r, hmem⟩
    refine ⟨hvotes, ?_, ?_⟩
    · show Set.Finite {a | Function.update s.relayers r false a = true}
      rw [hset]
      exact h.finite.sdiff
    · show (s.relayerCount - 1).toNat =
        ({a | Function.update s.relayers r false a = true} : Set A).ncard % 2 ^ 32
      rw [hset, Set.ncard_sdiff_singleton_of_mem hmem, UInt32.toNat_sub, UInt32.toNat_one,
        h.relayerCount]
      omega
  | setThreshold => exact ⟨hvotes, h.finite, h.relayerCount⟩
  | whitelist => exact ⟨hvotes, h.finite, h.relayerCount⟩
  | resolve => exact ⟨hvotes, h.finite, h.relayerCount⟩
  | newBlock => exact ⟨hvotes, h.finite, h.relayerCount⟩

end Invariant

/-! ## 7. Safety of voting -/

/-- Everyone who voted on the proposal, if it has an entry. -/
def State.votersOf (s : State A P ρ) (srcId : BridgeChainId) (key : DepositNonce × P) : List A :=
  ((s.votes srcId key).map voters).getD []

/-- What a call that succeeds from `s`, leading to `s'`, may do to the proposals
    and to the rest of the runtime. -/
structure SafeStep (cfg : Config A P ρ ε) (s s' : State A P ρ) : Prop where
  /-- Every new vote is a relayer's. -/
  voters : ∀ srcId key a, a ∈ s'.votersOf srcId key → a ∉ s.votersOf srcId key →
    s.relayers a = true
  /-- An approved or rejected proposal is never written again. -/
  settled : ∀ srcId key v, s.votes srcId key = some v → v.isComplete = true →
    s'.votes srcId key = some v
  /-- A status changes only from `Initiated`. -/
  fromInitiated : ∀ srcId key v v', s.votes srcId key = some v → s'.votes srcId key = some v' →
    v'.status ≠ v.status → v.status = .initiated
  /-- Approval needs `RelayerThreshold` votes for. -/
  approved : ∀ srcId key v', s'.votes srcId key = some v' → v'.status = .approved →
    s.statusOf srcId key ≠ some .approved → s.relayerThreshold.toNat ≤ v'.votesFor.length
  /-- Rejection needs `RelayerThreshold` relayers, and more votes against than
      relayers beyond it. -/
  rejected : ∀ srcId key v', s'.votes srcId key = some v' → v'.status = .rejected →
    s.statusOf srcId key ≠ some .rejected →
    s.relayerThreshold.toNat ≤ s.relayerCount.toNat ∧
      s.relayerCount.toNat - s.relayerThreshold.toNat < v'.votesAgainst.length
  /-- A proposal is written only before its expiry, which never moves. -/
  live : ∀ srcId key v', s'.votes srcId key = some v' → s'.votes srcId key ≠ s.votes srcId key →
    s.blockNumber < v'.expiry ∧ ∀ v, s.votes srcId key = some v → v'.expiry = v.expiry
  /-- A proposal is dispatched exactly when it is approved, one at most. -/
  dispatch : (s'.rest = s.rest ∧ ∀ srcId key, ¬ Approves s s' srcId key) ∨
    ∃ srcId nonce prop, Approves s s' srcId (nonce, prop) ∧
      (∀ srcId' key', Approves s s' srcId' key' → srcId' = srcId ∧ key' = (nonce, prop)) ∧
      cfg.dispatch prop cfg.accountId s.rest = .ok s'.rest

section Safety

variable [DecidableEq A] {cfg : Config A P ρ ε} {s s' : State A P ρ}

/-- **Every move is safe.** -/
theorem Move.safe (hm : Move cfg s s') : SafeStep cfg s s' := by
  refine ⟨?_, ?_, ?_, ?_, ?_, ?_, hm.dispatch⟩
  · intro srcId key a ha hnew
    rcases hm.entry srcId key with he | ⟨v₁, hres, he⟩
    · rw [State.votersOf, he] at ha
      exact absurd ha hnew
    · rw [State.votersOf, he] at ha
      simp only [Option.map_some, Option.getD_some, tryToComplete_voters] at ha
      exact hres.relayer_of_mem ha hnew
  · intro srcId key v hv hc
    rcases hm.entry srcId key with he | ⟨v₁, hres, he⟩
    · rw [he, hv]
    · -- a complete entry is never resolved
      rw [hv] at hres
      simp [isComplete, hres.of_some.1] at hc
  · intro srcId key v v' hv hv' hne
    rcases hm.entry srcId key with he | ⟨v₁, hres, he⟩
    · rw [he, hv, Option.some.injEq] at hv'
      exact absurd (congrArg ProposalVotes.status hv') (Ne.symm hne)
    · rw [hv] at hres
      exact hres.of_some.1
  · intro srcId key v' hv' ha hold
    rcases hm.entry srcId key with he | ⟨v₁, hres, he⟩
    · rw [he] at hv'
      exact absurd (by simp [State.statusOf, hv', ha]) hold
    · rw [he, Option.some.injEq] at hv'
      subst hv'
      simpa using threshold_le_of_approved hres.initiated ha
  · intro srcId key v' hv' hr hold
    rcases hm.entry srcId key with he | ⟨v₁, hres, he⟩
    · rw [he] at hv'
      exact absurd (by simp [State.statusOf, hv', hr]) hold
    · rw [he, Option.some.injEq] at hv'
      subst hv'
      simpa using lt_votesAgainst_of_rejected hres.initiated hr
  · intro srcId key v' hv' hne
    rcases hm.entry srcId key with he | ⟨v₁, hres, he⟩
    · exact absurd he hne
    · rw [he, Option.some.injEq] at hv'
      subst hv'
      refine ⟨by simpa using hres.live, fun v hv => ?_⟩
      rw [hv] at hres
      simpa using hres.of_some.2

/-- An approved proposal stays approved. -/
theorem approved_stable (srcId : BridgeChainId) (key : DepositNonce × P) :
    Reach.Stable (step cfg) fun s => s.statusOf srcId key = some .approved := by
  intro s c s' hq h
  obtain ⟨v, hv, hvs⟩ := Option.map_eq_some_iff.1 hq
  have hc : v.isComplete = true := by simp [isComplete, hvs]
  simp [State.statusOf, (step_move h).safe.settled srcId key v hv hc, hvs]

/-- Every reachable state keeps the invariant. -/
theorem Reachable.inv (h : Reachable cfg s) : Inv s :=
  Reach.Reachable.invariant (fun _ hs => Inv.fresh hs) (fun _ _ _ hi hst => (step_move hst).inv hi) h

end Safety

/-! ## 8. Every run -/

section Runs

variable [DecidableEq A]

/-- Over every run: the invariant, the safety of every step, and for each proposal
    at most one step that approves it, hence dispatches it. -/
theorem proposalVoting_safe (cfg : Config A P ρ ε) :
    (∀ s, Reachable cfg s → Inv s) ∧
    (∀ s c s', step cfg s c = .ok s' → SafeStep cfg s s') ∧
    ∀ s cs srcId key,
      Reach.countSteps (step cfg) (fun s s' => Approves s s' srcId key) s cs ≤ 1 := by
  refine ⟨fun s hs => hs.inv, fun s c s' h => (step_move h).safe, fun s cs srcId key => ?_⟩
  -- approving enters the set of approved proposals, which no step leaves
  exact Reach.countSteps_le_one (approved_stable srcId key) (fun s s' hp => hp) s cs

/-- The pallet after `add_relayer` for each of the accounts `0, …, n - 1`, from a
    fresh pallet at block `0`. -/
def relayersUpTo (P : Type) (n : Nat) (rest : ρ) : State Nat P ρ :=
  { (genesis 0 rest : State Nat P ρ) with
    relayers := fun a => decide (a < n)
    relayerCount := UInt32.ofNat n }

omit [DecidableEq A] in
/-- Adding account `n` leads from `n` relayers to `n + 1`. -/
theorem step_relayersUpTo (cfg : Config Nat P ρ ε) (rest : ρ) (n : Nat) :
    step cfg (relayersUpTo P n rest) (.addRelayer n) = .ok (relayersUpTo P (n + 1) rest) := by
  have hr : isRelayer (relayersUpTo P n rest) n = false := by simp [isRelayer, relayersUpTo]
  have hf : Function.update (fun a => decide (a < n)) n true = fun a => decide (a < n + 1) := by
    funext a
    by_cases h : a = n
    · subst h
      simp
    · simp only [Function.update_of_ne h, decide_eq_decide]
      omega
  -- `RelayerCount` wraps, as `UInt32.ofNat` does
  have hc : UInt32.ofNat n + 1 = UInt32.ofNat (n + 1) := by
    apply UInt32.toNat_inj.1
    rw [UInt32.toNat_add, UInt32.toNat_ofNat', UInt32.toNat_ofNat', UInt32.toNat_one]
    omega
  simp only [step, registerRelayer, hr, bind, Except.bind, pure, Except.pure, Bool.false_eq_true,
    if_false, Except.ok.injEq]
  simp only [relayersUpTo, hf, hc]

omit [DecidableEq A] in
theorem relayersUpTo_reachable (cfg : Config Nat P ρ ε) (rest : ρ) :
    ∀ n, Reachable cfg (relayersUpTo P n rest)
  | 0 => .init ⟨fun _ => rfl, rfl, fun a => by simp [relayersUpTo], rfl, fun _ _ => rfl, rfl⟩
  | n + 1 => .step (.addRelayer n) (relayersUpTo_reachable cfg rest n) (step_relayersUpTo cfg rest n)

omit [DecidableEq A] in
/-- After `add_relayer` for `2^32` accounts, `RelayerCount` has wrapped to `0`. -/
theorem relayerCount_wraps (cfg : Config Nat P ρ ε) (rest : ρ) :
    ∃ s, Reachable cfg s ∧ s.relayerCount.toNat ≠ s.relayerSet.ncard := by
  refine ⟨relayersUpTo P (2 ^ 32) rest, relayersUpTo_reachable cfg rest _, ?_⟩
  have hset : (relayersUpTo P (2 ^ 32) rest).relayerSet = ↑(Finset.range (2 ^ 32)) := by
    ext a
    simp [relayersUpTo, State.relayerSet]
  rw [hset, Set.ncard_coe_finset, Finset.card_range]
  simp [relayersUpTo]

/-- A bridge whose proposals are `Unit` and dispatch to nothing. -/
def unitConfig : Config Nat Unit Unit Unit := ⟨0, 50, 0, fun _ _ r => .ok r⟩

theorem relayerCount_wraps_at_unit_bridge :
    ∃ s, Reachable unitConfig s ∧ s.relayerCount.toNat ≠ s.relayerSet.ncard :=
  relayerCount_wraps unitConfig ()

end Runs

end Bridge
end Litentry
