import Litentry.Staking.Ledger

/-!
# The calls that move bonds keep the ledger

`Staking.Ledger` states `LedgerInv` and proves it of the calls that move no bond. This module
takes the rest: `delegate` (with the kick of a full bottom list inside it), the increase paths
(`delegator_bond_more` and the compounding of a payout), the execution of a decrease and of a
revoke, a delegator leaving every candidate at once, and a candidate leaving with every
delegation handed back. The loops of the last two break the mirror while they run, one bond at
a time; each gets a lemma by induction on its list that says which bonds it took from which
copy. `step_ledgerInv` collects every call and `Reachable.ledgerInv` carries the invariant along
every run.
-/

set_option autoImplicit false

namespace Litentry
namespace Staking

variable {A C : Type}

/-! ## 1. Writes of one side -/

section Sides

variable [LinearOrder A] {cfg : Config} {s s' : State A C}

@[simp] theorem removeAutoCompound_delegatorState (s : State A C) (c d : A) :
    (AutoCompoundDelegations.removeAutoCompound s c d).delegatorState = s.delegatorState := by
  unfold AutoCompoundDelegations.removeAutoCompound
  split <;> rfl

@[simp] theorem delegationRemoveRequestWithState_delegatorState (s : State A C) (c d : A)
    (st : Delegator A) :
    (delegationRemoveRequestWithState s c d st).2.delegatorState = s.delegatorState := by
  unfold delegationRemoveRequestWithState
  split <;> rfl

/-- Removing a request credits `less_total` alone. -/
theorem delegationRemoveRequestWithState_books (s : State A C) (c d : A) (st : Delegator A) :
    (delegationRemoveRequestWithState s c d st).1.books = st.books := by
  unfold delegationRemoveRequestWithState
  have hb := cancelRequestWithState_books d st (s.delegationScheduledRequests c)
  split
  · rename_i heq
    rw [heq] at hb
    exact hb
  · rfl

/-- A method run on candidate `c` that wrote its lists and metadata in shape keeps the
    candidates' side. -/
theorem CandidatesOk.write (hs : CandidatesOk cfg s) {c : A} {s₁ : State A C}
    {m' : CandidateMetadata} {top' bottom' : Delegations A}
    (hw : Wrote cfg c s s₁ m' top' bottom') (hf : Fits cfg m' top' bottom')
    (hi : s'.candidateInfo = Function.update s₁.candidateInfo c (some m'))
    (ht : s'.topDelegations = s₁.topDelegations)
    (hb : s'.bottomDelegations = s₁.bottomDelegations) : CandidatesOk cfg s' where
  shape := by
    intro c' m₁ hm₁
    rw [hi, hw.candidateInfo] at hm₁
    rw [ht, hb, hw.top, hw.bottom]
    by_cases hc : c' = c
    · subst hc
      simp only [Function.update_self, Option.some.injEq] at hm₁ ⊢
      subst hm₁
      exact ⟨top', bottom', rfl, rfl, hw.shape, hf⟩
    · simp only [Function.update_of_ne hc] at hm₁ ⊢
      exact hs.shape c' m₁ hm₁
  noTop := by
    intro c' hc'
    rw [hi, hw.candidateInfo] at hc'
    rw [ht, hw.top]
    by_cases hc : c' = c
    · subst hc
      simp at hc'
    · simp only [Function.update_of_ne hc] at hc' ⊢
      exact hs.noTop c' hc'
  noBottom := by
    intro c' hc'
    rw [hi, hw.candidateInfo] at hc'
    rw [hb, hw.bottom]
    by_cases hc : c' = c
    · subst hc
      simp at hc'
    · simp only [Function.update_of_ne hc] at hc' ⊢
      exact hs.noBottom c' hc'

theorem DelegatorsOk.update (hs : DelegatorsOk s) {d : A} {o : Option (Delegator A)}
    (h : s'.delegatorState = Function.update s.delegatorState d o)
    (ho : ∀ st, o = some st → DelegatorOk d st) : DelegatorsOk s' := by
  intro d' st hst
  rw [h] at hst
  by_cases hd : d' = d
  · subst hd
    rw [Function.update_self] at hst
    exact ho st hst
  · rw [Function.update_of_ne hd] at hst
    exact hs d' st hst

/-- `rm_delegation` reads the books alone. -/
theorem Delegator.rmDelegation_books {st st' : Delegator A} (he : st'.books = st.books) (c : A) :
    (st'.rmDelegation c).2.books = (st.rmDelegation c).2.books := by
  simp only [Delegator.books, Prod.mk.injEq] at he
  obtain ⟨hi, hd, ht⟩ := he
  unfold Delegator.rmDelegation
  rw [hd]
  split <;> simp [Delegator.books, hi, hd, ht]

/-- Taking a delegator's bond to `c` off its state, or the state itself where `c` was its only
    candidate, erases that bond from the delegators' copy. -/
theorem DelegatorsOk.rm (hs : DelegatorsOk s) {d c : A} {st : Delegator A}
    (hd : s.delegatorState d = some st) {a : Nat} (hm : ⟨c, a⟩ ∈ st.delegations)
    {o : Option (Delegator A)} (h : s'.delegatorState = Function.update s.delegatorState d o)
    (ho : (o = none ∧ ∀ b ∈ st.delegations, b.owner = c) ∨
      ∃ st', o = some st' ∧ st'.books = (st.rmDelegation c).2.books) :
    s'.delegatorBonds = s.delegatorBonds.erase c d ∧ DelegatorsOk s' := by
  have hok := hs d st hd
  rcases ho with ⟨rfl, hall⟩ | ⟨st', rfl, hst'⟩
  · -- the state goes: every bond of `d` was to `c`
    refine ⟨?_, hs.update h fun _ h => by cases h⟩
    rw [delegatorBonds_remove h]
    refine Ledger.eraseDelegator_eq_erase fun y hy hyd => ?_
    obtain ⟨c', d', a'⟩ := y
    subst hyd
    exact hall _ ((mem_delegatorBonds_of hd).1 hy)
  · rw [Delegator.rmDelegation_of_mem hok.keys hm] at hst'
    have hdel : st'.delegations = st.delegations.filter (·.owner ≠ c) := by
      simp only [Delegator.books, Prod.mk.injEq] at hst'
      exact hst'.2.1
    refine ⟨delegatorBonds_erase h fun c' a' => ?_,
      hs.update h fun _ he => Option.some.inj he ▸ (hok.filter hm).congr hst'⟩
    rw [hdel, List.mem_filter, mem_delegatorBonds_of hd]
    simp only [decide_eq_true_eq]
    exact and_comm

omit [LinearOrder A] in
/-- A delegator with one bond, to `c`, has no other. -/
theorem owner_eq_of_length_eq_one {l : List (Bond A)} (hl : l.length = 1) {c : A} {a : Nat}
    (hm : ⟨c, a⟩ ∈ l) : ∀ b ∈ l, b.owner = c := by
  obtain ⟨x, rfl⟩ := List.length_eq_one_iff.1 hl
  rw [List.mem_singleton] at hm
  subst hm
  intro b hb
  rw [List.mem_singleton.1 hb]

/-- The candidates' side is kept by a removal of one candidate's metadata and lists. -/
theorem CandidatesOk.remove (hs : CandidatesOk cfg s) {c : A}
    (hi : s'.candidateInfo = Function.update s.candidateInfo c none)
    (ht : s'.topDelegations = Function.update s.topDelegations c none)
    (hb : s'.bottomDelegations = Function.update s.bottomDelegations c none) :
    CandidatesOk cfg s' where
  shape := by
    intro c' m hm
    rw [hi] at hm
    by_cases hc : c' = c
    · subst hc
      simp at hm
    · rw [Function.update_of_ne hc] at hm
      rw [ht, hb, Function.update_of_ne hc, Function.update_of_ne hc]
      exact hs.shape c' m hm
  noTop := by
    intro c' hc'
    rw [hi] at hc'
    rw [ht]
    by_cases hc : c' = c
    · subst hc
      exact Function.update_self ..
    · rw [Function.update_of_ne hc] at hc' ⊢
      exact hs.noTop c' hc'
  noBottom := by
    intro c' hc'
    rw [hi] at hc'
    rw [hb]
    by_cases hc : c' = c
    · subst hc
      exact Function.update_self ..
    · rw [Function.update_of_ne hc] at hc' ⊢
      exact hs.noBottom c' hc'

end Sides

/-! ## 2. Handing a bond back: the kick, and a candidate leaving -/

section HandBack

variable [LinearOrder A] {cfg : Config} {cur : Currency A C} {s s' : State A C}

open CandidateMetadata

/-- `kick_bottom` takes the kicked delegator's bond to `c` off its books, and its state where
    this was its only delegation; it writes no other delegator state. -/
theorem kickBottom_delegatorState {c : A} {k : Bond A} (h : kickBottom cur s c k = .ok s') :
    ∃ st o, s.delegatorState k.owner = some st ∧
      s'.delegatorState = Function.update s.delegatorState k.owner o ∧
      ((o = none ∧ st.delegations.length = 1) ∨
        ∃ st', o = some st' ∧ st'.books = (st.rmDelegation c).2.books) := by
  unfold kickBottom at h
  simp only [throw, throwThe, MonadExceptOf.throw, pure, Except.pure] at h
  split at h
  · rename_i st hst
    split_ifs at h with hl <;> cases h
    · exact ⟨st, none, hst, by simp, .inl ⟨rfl, hl⟩⟩
    · refine ⟨st, _, hst, ?_, .inr ⟨_, rfl, delegationRemoveRequestWithState_books
        { s with currency := cur.unreserve s.currency k.owner k.amount } c k.owner _⟩⟩
      simp
  · cases h

/-- The kick erases the kicked bond from the delegators' copy. -/
theorem kickBottom_ledger (hs : DelegatorsOk s) {c : A} {k : Bond A}
    (hk : (c, k.owner, k.amount) ∈ s.delegatorBonds) (h : kickBottom cur s c k = .ok s') :
    s'.delegatorBonds = s.delegatorBonds.erase c k.owner ∧ DelegatorsOk s' ∧
      ∀ d, d ≠ k.owner → s'.delegatorState d = s.delegatorState d := by
  obtain ⟨st, o, hd, h', ho⟩ := kickBottom_delegatorState h
  have hm : ⟨c, k.amount⟩ ∈ st.delegations := (mem_delegatorBonds_of hd).1 hk
  obtain ⟨hb, hok⟩ := hs.rm hd hm h'
    (ho.imp_left fun ⟨ho, hl⟩ => ⟨ho, owner_eq_of_length_eq_one hl hm⟩)
  exact ⟨hb, hok, fun d hne => by rw [h', Function.update_of_ne hne]⟩

/-- `return_stake` for one bond of a leaving candidate `c` erases the delegator's bond to `c`
    from the delegators' copy, and writes neither lists nor metadata. -/
theorem returnStake_ledger (hs : DelegatorsOk s) {c : A} {b : Bond A}
    (h : returnStake cur c s b = .ok s') :
    s'.delegatorBonds = s.delegatorBonds.erase c b.owner ∧ DelegatorsOk s' ∧
      s'.topDelegations = s.topDelegations ∧ s'.bottomDelegations = s.bottomDelegations ∧
      s'.candidateInfo = s.candidateInfo := by
  unfold returnStake at h
  dsimp only at h
  split at h
  · rename_i st hst
    have hok := hs _ st hst
    by_cases hc : ∃ a, ⟨c, a⟩ ∈ st.delegations
    · obtain ⟨a, hm⟩ := hc
      rw [Delegator.rmDelegation_of_mem hok.keys hm] at h
      dsimp only at h
      split_ifs at h with h0 <;> rw [Reach.pure_eq_ok] at h
      · -- nothing remains: every bond of the delegator was to `c`
        have hnil := (hok.filter hm).eq_nil_of_total h0
        rw [List.filter_eq_nil_iff] at hnil
        obtain ⟨hb, hok'⟩ := hs.rm hst hm (show s'.delegatorState = _ by rw [← h]; simp)
          (.inl ⟨rfl, fun x hx => by simpa using hnil x hx⟩)
        exact ⟨hb, hok', by rw [← h]; simp, by rw [← h]; simp, by rw [← h]; simp⟩
      · -- the delegator keeps its other bonds
        have hbooks := delegationRemoveRequestWithState_books
          { s with currency := cur.unreserve s.currency b.owner b.amount } c b.owner
          { st with delegations := st.delegations.filter (·.owner ≠ c), total := st.total - a }
        obtain ⟨hb, hok'⟩ := hs.rm hst hm (show s'.delegatorState = _ by rw [← h]; simp)
          (.inr ⟨_, rfl, hbooks.trans (by rw [Delegator.rmDelegation_of_mem hok.keys hm])⟩)
        exact ⟨hb, hok', by rw [← h]; simp, by rw [← h]; simp, by rw [← h]; simp⟩
    · -- no bond to `c`: nothing of the ledger changes
      push Not at hc
      rw [Delegator.rmDelegation_of_not_mem fun x hx he => hc x.amount (he ▸ hx)] at h
      cases h
      refine ⟨?_, hs, rfl, rfl, rfl⟩
      show s.delegatorBonds = _
      exact (Ledger.erase_eq_self fun a ha => hc a ((mem_delegatorBonds_of hst).1 ha)).symm
  · cases h

/-- The loop of `execute_leave_candidates` over one list of candidate `c`: the delegators' copy
    loses every bond to `c` of an owner on the list. -/
theorem foldlM_returnStake_ledger {c : A} :
    ∀ {l : List (Bond A)} {t t' : State A C}, l.foldlM (returnStake cur c) t = .ok t' →
      DelegatorsOk t →
      t'.delegatorBonds = {x | x ∈ t.delegatorBonds ∧ ¬(x.1 = c ∧ x.2.1 ∈ owners l)} ∧
        DelegatorsOk t' ∧ t'.topDelegations = t.topDelegations ∧
        t'.bottomDelegations = t.bottomDelegations ∧ t'.candidateInfo = t.candidateInfo
  | [], t, t', h, ht => by
    rw [List.foldlM_nil, Reach.pure_eq_ok] at h
    subst h
    refine ⟨?_, ht, rfl, rfl, rfl⟩
    ext x
    simp
  | b :: l, t, t', h, ht => by
    rw [List.foldlM_cons] at h
    obtain ⟨t₁, h₁, h⟩ := Reach.bind_eq_ok.1 h
    obtain ⟨hb₁, hok₁, htop₁, hbot₁, hi₁⟩ := returnStake_ledger ht h₁
    obtain ⟨hb, hok, htop, hbot, hi⟩ := foldlM_returnStake_ledger h hok₁
    refine ⟨?_, hok, htop.trans htop₁, hbot.trans hbot₁, hi.trans hi₁⟩
    rw [hb, hb₁]
    ext ⟨c', d, a⟩
    simp only [Set.mem_ofPred_eq, Ledger.mem_erase, owners_cons, List.mem_cons]
    tauto

omit [LinearOrder A] in
@[simp] theorem delegatorBonds_withTop (s : State A C) (top : A → Option (Delegations A)) :
    ({ s with topDelegations := top } : State A C).delegatorBonds = s.delegatorBonds := rfl

omit [LinearOrder A] in
@[simp] theorem delegatorBonds_withBottom (s : State A C) (bottom : A → Option (Delegations A)) :
    ({ s with bottomDelegations := bottom } : State A C).delegatorBonds = s.delegatorBonds := rfl

omit [LinearOrder A] in
/-- Dropping, from the candidates' copy, the bonds to `c` of the owners on `c`'s top list and
    then of those on its bottom list drops every bond to `c`. -/
theorem eraseCandidate_eq_of_lists {c : A} {top bottom : Delegations A}
    (htop : s.topDelegations c = some top) (hbot : s.bottomDelegations c = some bottom) :
    s.candidateBonds.eraseCandidate c =
      {x | x ∈ {x | x ∈ s.candidateBonds ∧ ¬(x.1 = c ∧ x.2.1 ∈ owners top.delegations)} ∧
        ¬(x.1 = c ∧ x.2.1 ∈ owners bottom.delegations)} := by
  ext ⟨c', d, a⟩
  simp only [Ledger.mem_eraseCandidate, Set.mem_ofPred_eq]
  constructor
  · rintro ⟨hx, hc⟩
    exact ⟨⟨hx, fun h' => hc h'.1⟩, fun h' => hc h'.1⟩
  · rintro ⟨⟨hx, hnt⟩, hnb⟩
    refine ⟨hx, fun hc => ?_⟩
    subst hc
    -- a bond to the candidate sits on one of its two lists
    rcases List.mem_append.1 ((mem_candidateBonds_of htop hbot).1 hx) with hm | hm
    · exact hnt ⟨rfl, mem_owners.2 ⟨a, hm⟩⟩
    · exact hnb ⟨rfl, mem_owners.2 ⟨a, hm⟩⟩

/-- `execute_leave_candidates` hands back every bond on the candidate's two lists, then removes
    the candidate: both copies lose every bond to it. -/
theorem executeLeaveCandidates_ledgerInv (hs : LedgerInv cfg s) {candidate : A}
    (h : executeLeaveCandidates cur s candidate = .ok s') : LedgerInv cfg s' := by
  unfold executeLeaveCandidates at h
  dsimp only at h
  split at h
  · obtain ⟨u, -, h⟩ := Reach.bind_eq_ok.1 h
    split at h
    · rename_i top htop
      obtain ⟨s₁, h₁, h⟩ := Reach.bind_eq_ok.1 h
      split at h
      · rename_i bottom hbot
        obtain ⟨s₂, h₂, h⟩ := Reach.bind_eq_ok.1 h
        rw [Reach.pure_eq_ok] at h
        obtain ⟨hb₁, hok₁, htop₁, hbot₁, hi₁⟩ := foldlM_returnStake_ledger h₁ hs.delegators
        obtain ⟨hb₂, hok₂, htop₂, hbot₂, hi₂⟩ := foldlM_returnStake_ledger h₂ hok₁
        simp only [delegatorBonds_withTop, delegatorBonds_withBottom] at hb₁ hb₂
        rw [hbot₁] at hbot
        have hi : s'.candidateInfo = Function.update s.candidateInfo candidate none := by
          rw [← h]
          exact congrArg (Function.update · candidate none) (hi₂.trans hi₁)
        have ht : s'.topDelegations = Function.update s.topDelegations candidate none := by
          rw [← h]
          exact htop₂.trans htop₁
        have hb : s'.bottomDelegations = Function.update s.bottomDelegations candidate none := by
          rw [← h]
          exact hbot₂.trans (congrArg (Function.update · candidate none) hbot₁)
        have hd : s'.delegatorBonds = s₂.delegatorBonds := by
          rw [← h]
          rfl
        refine ⟨hs.toCandidatesOk.remove hi ht hb, ?_, by rw [← h]; exact hok₂⟩
        -- every bond to the candidate was on one of its lists, and so had its owner there
        rw [candidateBonds_remove ht hb, hd, hb₂, hb₁, ← hs.mirror]
        exact eraseCandidate_eq_of_lists htop hbot
      · cases h
    · cases h
  · cases h

end HandBack

/-! ## 3. A delegator leaving a candidate -/

section Leave

variable [LinearOrder A] {cfg : Config} {cur : Currency A C} {s s' : State A C}

open CandidateMetadata AutoCompoundDelegations

omit [LinearOrder A] in
/-- The candidates' side reads the metadata and the lists alone. -/
theorem CandidatesOk.congr (hs : CandidatesOk cfg s) (hi : s'.candidateInfo = s.candidateInfo)
    (ht : s'.topDelegations = s.topDelegations)
    (hb : s'.bottomDelegations = s.bottomDelegations) : CandidatesOk cfg s' where
  shape := by
    rw [hi, ht, hb]
    exact hs.shape
  noTop := by
    rw [hi, ht]
    exact hs.noTop
  noBottom := by
    rw [hi, hb]
    exact hs.noBottom

/-- `delegator_leaves_candidate` erases the delegator's bond to `c` from the candidates' copy,
    where it was, and keeps their side; it writes no delegator state. -/
theorem delegatorLeavesCandidate_ledger (hs : CandidatesOk cfg s) {c d : A} {amount : Nat}
    (h : delegatorLeavesCandidate cfg cur s c d amount = .ok s') :
    s'.candidateBonds = s.candidateBonds.erase c d ∧ CandidatesOk cfg s' ∧
      s'.delegatorState = s.delegatorState ∧ ∃ a, (c, d, a) ∈ s.candidateBonds := by
  unfold delegatorLeavesCandidate at h
  split at h
  · rename_i m hm
    obtain ⟨⟨same, m', s₁⟩, hr, h⟩ := Reach.bind_eq_ok.1 h
    rw [Reach.pure_eq_ok] at h
    obtain ⟨top, bottom, htop, hbot, hshape, hfit⟩ := hs.shape c m hm
    obtain ⟨top', bottom', hw, hf, hp, hd, hq⟩ :=
      rmDelegationIfExists_wrote hshape hfit htop hbot hr
    obtain ⟨a, ha⟩ := mem_owners.1 hd
    refine ⟨?_, hs.write hw hf (by rw [← h]) (by rw [← h]) (by rw [← h]),
      by rw [← h]; exact hq.1, a, (mem_candidateBonds_of htop hbot).2 ha⟩
    rw [← h]
    exact hw.candidateBonds_erase htop hbot hp
  · cases h

/-- `delegator_leaves_candidate` succeeds for a bond the candidates' copy holds. -/
theorem delegatorLeavesCandidate_isOk (hcfg : Bounds cfg) (hs : CandidatesOk cfg s) {c d : A}
    {a : Nat} (hm : (c, d, a) ∈ s.candidateBonds) :
    ∃ s', delegatorLeavesCandidate cfg cur s c d a = .ok s' := by
  obtain ⟨top, bottom, htop, hbot, hmem⟩ := hm
  cases hc : s.candidateInfo c with
  | none => simp [hs.noTop c hc] at htop
  | some m =>
    obtain ⟨top₁, bottom₁, htop₁, hbot₁, hshape, -⟩ := hs.shape c m hc
    rw [htop, Option.some.injEq] at htop₁
    rw [hbot, Option.some.injEq] at hbot₁
    subst htop₁ hbot₁
    obtain ⟨⟨same, m', s₁⟩, hr⟩ :=
      rmDelegationIfExists_isOk hshape htop hbot hcfg.maxTop hcfg.maxBottom hmem
    unfold delegatorLeavesCandidate
    rw [hc]
    exact ⟨_, by rw [Reach.bind_eq_ok]; exact ⟨_, hr, rfl⟩⟩

/-- The end of a revoke: the candidate side has left (`delegator_leaves_candidate`, after the
    auto-compounding entry went), and the delegator's state is written without the bond, or
    removed where that was its only one. -/
theorem LedgerInv.leave (hs : LedgerInv cfg s) {c d : A} {st : Delegator A}
    (hd : s.delegatorState d = some st) {amount : Nat} {v : State A C}
    (hv : delegatorLeavesCandidate cfg cur (removeAutoCompound s c d) c d amount = .ok v)
    (hi : s'.candidateInfo = v.candidateInfo) (ht : s'.topDelegations = v.topDelegations)
    (hb : s'.bottomDelegations = v.bottomDelegations) {o : Option (Delegator A)}
    (hs' : s'.delegatorState = Function.update v.delegatorState d o)
    (ho : (o = none ∧ st.delegations.length = 1) ∨
      ∃ st', o = some st' ∧ st'.books = (st.rmDelegation c).2.books) : LedgerInv cfg s' := by
  have h₀ : CandidatesOk cfg (removeAutoCompound s c d) :=
    hs.toCandidatesOk.congr (by simp) (by simp) (by simp)
  obtain ⟨hbonds, hok, hdv, a, ha⟩ := delegatorLeavesCandidate_ledger h₀ hv
  rw [hdv, removeAutoCompound_delegatorState] at hs'
  have hL : (removeAutoCompound s c d).candidateBonds = s.candidateBonds :=
    candidateBonds_congr (by simp) (by simp)
  rw [hL] at hbonds ha
  have hm : ⟨c, a⟩ ∈ st.delegations := (mem_delegatorBonds_of hd).1 (by rw [← hs.mirror]; exact ha)
  obtain ⟨hdb, hdok⟩ := hs.delegators.rm hd hm hs'
    (ho.imp_left fun ⟨ho, hl⟩ => ⟨ho, owner_eq_of_length_eq_one hl hm⟩)
  refine ⟨hok.congr hi ht hb, ?_, hdok⟩
  rw [candidateBonds_congr ht hb, hbonds, hdb, hs.mirror]

/-- Executing a due revoke takes the bond off both copies. -/
theorem executeRevoke_ledgerInv (hs : LedgerInv cfg s) {collator delegator : A}
    {state : Delegator A} (hd : s.delegatorState delegator = some state)
    {scheduledRequests : List (ScheduledRequest A)} {requestIdx amount : Nat}
    (h : executeRevoke cfg cur s collator delegator state scheduledRequests requestIdx amount =
      .ok s') : LedgerInv cfg s' := by
  unfold executeRevoke at h
  simp only [bind, Except.bind, throw, throwThe, MonadExceptOf.throw, pure, Except.pure] at h
  -- `leaving` is read back by an `if`: its impossible arm is split off with the others
  split_ifs at h with hl _ hf <;> split at h <;> cases h <;> rename_i v hv
  · exact hs.leave hd hv rfl rfl rfl rfl (.inl ⟨rfl, hl⟩)
  · exact hf.elim
  · exact hs.leave hd hv rfl rfl rfl rfl (.inr ⟨_, rfl, Delegator.rmDelegation_books (by rfl) collator⟩)

omit [LinearOrder A] in
/-- The loop of `delegator_execute_scheduled_revoke_all`, for any turn that takes the turn's bond
    of `d` off the candidates' copy: the loop takes every bond of `d` to an owner on its list,
    one owner at a time, and each is still there when its turn comes. -/
theorem foldl_leave_ledger (d : A) {X V : Type} (key : V → Bond A)
    {f : State A C × X → V → State A C × X}
    (hf : ∀ acc v, CandidatesOk cfg acc.1 →
      ((key v).owner, d, (key v).amount) ∈ acc.1.candidateBonds →
      CandidatesOk cfg (f acc v).1 ∧ (f acc v).1.delegatorState = acc.1.delegatorState ∧
        (f acc v).1.candidateBonds = acc.1.candidateBonds.erase (key v).owner d) :
    ∀ {l : List V} {acc res : State A C × X}, l.foldl f acc = res → CandidatesOk cfg acc.1 →
      (∀ v ∈ l, ((key v).owner, d, (key v).amount) ∈ acc.1.candidateBonds) →
      (owners (l.map key)).Nodup →
      CandidatesOk cfg res.1 ∧ res.1.delegatorState = acc.1.delegatorState ∧
        res.1.candidateBonds =
          {x | x ∈ acc.1.candidateBonds ∧ ¬(x.2.1 = d ∧ x.1 ∈ owners (l.map key))}
  | [], acc, res, h, hok, _, _ => by
    subst h
    refine ⟨hok, rfl, ?_⟩
    ext x
    simp
  | v :: l, acc, res, h, hok, hmem, hnd => by
    rw [List.foldl_cons] at h
    rw [List.map_cons, owners_cons, List.nodup_cons] at hnd
    obtain ⟨hok₁, hd₁, hb₁⟩ := hf acc v hok (hmem v List.mem_cons_self)
    -- the owners to come differ from this turn's, so their bonds are still there
    have hmem₁ : ∀ w ∈ l, ((key w).owner, d, (key w).amount) ∈ (f acc v).1.candidateBonds := by
      intro w hw
      rw [hb₁, Ledger.mem_erase]
      refine ⟨hmem w (List.mem_cons_of_mem _ hw), fun he => hnd.1 ?_⟩
      exact he.1 ▸ mem_owners.2 ⟨(key w).amount, List.mem_map_of_mem hw⟩
    obtain ⟨hok', hd', hb'⟩ := foldl_leave_ledger d key hf h hok₁ hmem₁ hnd.2
    refine ⟨hok', hd'.trans hd₁, ?_⟩
    rw [hb', hb₁]
    ext ⟨c, d', a⟩
    simp only [Set.mem_ofPred_eq, Ledger.mem_erase, List.map_cons, owners_cons, List.mem_cons]
    tauto

/-- The validation of a revoke answers the bond it was given. -/
theorem validateRevoke_fst {d : A} {b : Bond A} {v : Bond A × List (ScheduledRequest A) × Nat}
    (h : validateRevoke s d b = .ok v) : v.1 = b := by
  unfold validateRevoke at h
  simp only [bind, Except.bind, throw, throwThe, MonadExceptOf.throw, pure, Except.pure] at h
  split at h
  · split at h
    · split_ifs at h
      cases h
      rfl
    · cases h
  · cases h

/-- Dropping, from the candidates' copy, the bonds of `d` to the candidates `d`'s books name
    drops every bond of `d`. -/
theorem LedgerInv.eraseDelegator_eq_of_books (hs : LedgerInv cfg s) {d : A} {st : Delegator A}
    (hd : s.delegatorState d = some st) :
    {x | x ∈ s.candidateBonds ∧ ¬(x.2.1 = d ∧ x.1 ∈ owners st.delegations)} =
      s.candidateBonds.eraseDelegator d := by
  ext ⟨c, d', a⟩
  simp only [Set.mem_ofPred_eq, Ledger.mem_eraseDelegator]
  constructor
  · rintro ⟨hx, hn⟩
    refine ⟨hx, fun hd' => hn ⟨hd', ?_⟩⟩
    subst hd'
    rw [hs.mirror] at hx
    exact mem_owners.2 ⟨a, (mem_delegatorBonds_of hd).1 hx⟩
  · rintro ⟨hx, hn⟩
    exact ⟨hx, fun h' => hn h'.1⟩

/-- `delegator_execute_scheduled_revoke_all` takes every bond of the delegator off both
    copies: each candidate in turn, then the delegator's state. -/
theorem delegatorExecuteScheduledRevokeAll_ledgerInv (hcfg : Bounds cfg) (hs : LedgerInv cfg s)
    {delegator : A} (h : delegatorExecuteScheduledRevokeAll cfg cur s delegator = .ok s') :
    LedgerInv cfg s' := by
  unfold delegatorExecuteScheduledRevokeAll at h
  split at h
  · rename_i st hst
    obtain ⟨validated, hv, h⟩ := Reach.bind_eq_ok.1 h
    have hkeys : validated.map Prod.fst = st.delegations :=
      Reach.mapM_ok_map (fun _ _ => validateRevoke_fst) hv
    split at h
    rename_i s₁ updated hfold
    rw [Reach.pure_eq_ok] at h
    -- each turn leaves its candidate: the bond is on its lists, so the call succeeds
    obtain ⟨hok₁, hd₁, hb₁⟩ := foldl_leave_ledger delegator Prod.fst (by
        intro acc v hacc hm
        obtain ⟨t, ht⟩ : ∃ t, delegatorLeavesCandidate cfg cur acc.1 v.1.owner delegator
            v.1.amount = .ok t := delegatorLeavesCandidate_isOk hcfg hacc hm
        obtain ⟨hb, hok, hd, -⟩ := delegatorLeavesCandidate_ledger hacc ht
        dsimp only
        rw [ht]
        exact ⟨hok.congr (by simp) (by simp) (by simp), by simp [hd],
          (candidateBonds_congr (by simp) (by simp)).trans hb⟩)
      hfold hs.toCandidatesOk
      (fun v hv => by
        have hb : v.1 ∈ st.delegations := hkeys ▸ List.mem_map_of_mem hv
        rw [hs.mirror]
        exact (mem_delegatorBonds_of hst).2 hb)
      (by rw [hkeys]; exact (hs.delegators delegator st hst).keys.nodup_keys)
    dsimp only at hok₁ hd₁ hb₁
    rw [hkeys] at hb₁
    have hd : s'.delegatorState = Function.update s.delegatorState delegator none := by
      rw [← h]
      simp [hd₁]
    refine ⟨hok₁.congr (by rw [← h]; simp) (by rw [← h]; simp) (by rw [← h]; simp), ?_,
      hs.delegators.update hd fun _ h => by cases h⟩
    -- every bond of the delegator was to one of its collators
    rw [candidateBonds_congr (s := s₁) (by rw [← h]; simp) (by rw [← h]; simp), hb₁,
      delegatorBonds_remove hd, ← hs.mirror]
    exact hs.eraseDelegator_eq_of_books hst
  · cases h

end Leave

/-! ## 4. Moving the amount of a bond -/

section Amounts

variable [LinearOrder A] {cfg : Config} {cur : Currency A C} {s s' : State A C}

open CandidateMetadata

/-- The bond the first-match index of `owner = c` points at is to `c`. -/
theorem owner_of_findIdx? {l : List (Bond A)} {c : A} {i : Nat}
    (hi : l.findIdx? (fun b => b.owner = c) = some i) {x : Bond A} (hx : l[i]? = some x) :
    x.owner = c := by
  obtain ⟨hlt, hp, -⟩ := List.findIdx?_eq_some_iff_getElem.1 hi
  rw [List.getElem?_eq_getElem hlt, Option.some.injEq] at hx
  subst hx
  simpa using hp

/-- A bond of a delegator is part of its total. -/
theorem DelegatorOk.amount_le_total {d : A} {st : Delegator A} (h : DelegatorOk d st) {x : Bond A}
    (hx : x ∈ st.delegations) : x.amount ≤ st.total := by
  rw [h.total]
  exact List.le_sum_of_mem (List.mem_map_of_mem hx)

/-- Writing `d`'s state with the bond at index `i` rewritten by `f`, and the total moved to
    match, puts the new amount in the delegators' copy. -/
theorem DelegatorsOk.modify (hs : DelegatorsOk s) {d : A} {st : Delegator A}
    (hd : s.delegatorState d = some st) {i : Nat} {x : Bond A} (hx : st.delegations[i]? = some x)
    (f : Nat → Nat) {total lessTotal : Nat}
    (h : s'.delegatorState = Function.update s.delegatorState d (some
      { id := st.id, delegations := st.delegations.modify i (fun b => ⟨b.owner, f b.amount⟩),
        total := total, lessTotal := lessTotal }))
    (hf : 0 < f x.amount) (ht : total + x.amount = st.total + f x.amount) :
    s'.delegatorBonds = s.delegatorBonds.put x.owner d (f x.amount) ∧ DelegatorsOk s' := by
  obtain ⟨hok, hmem⟩ := (hs d st hd).modify hx f hf ht
  refine ⟨delegatorBonds_put h fun c' a => (hmem c' a).trans ?_,
    hs.update h fun _ he => Option.some.inj he ▸ hok.congr rfl⟩
  rw [mem_delegatorBonds_of hd]

/-- `decrease_delegation` on the candidates' copy: `d`'s bond to `c` becomes `bond - less`. -/
theorem decreaseDelegation_ledger (hcfg : Bounds cfg) (hs : CandidatesOk cfg s) {c d : A}
    {m : CandidateMetadata} (hm : s.candidateInfo c = some m) {bond less : Nat}
    (hb : (c, d, bond) ∈ s.candidateBonds) (hless : less ≤ bond)
    {r : Bool × CandidateMetadata × State A C}
    (h : decreaseDelegation cfg s m c d bond less = .ok r) :
    ∃ top' bottom', Wrote cfg c s r.2.2 r.2.1 top' bottom' ∧ Fits cfg r.2.1 top' bottom' ∧
      r.2.2.candidateBonds = s.candidateBonds.put c d (bond - less) ∧ Quiet s r.2.2 := by
  obtain ⟨top, bottom, htop, hbot, hshape, hfit⟩ := hs.shape c m hm
  obtain ⟨inTop, m', s₁, heq, top', bottom', hw, hf, hp, -, hq⟩ :=
    decreaseDelegation_spec hshape hfit htop hbot hcfg.maxTop hcfg.maxBottom
      ((mem_candidateBonds_of htop hbot).1 hb) hless
  rw [heq, Except.ok.injEq] at h
  subst h
  exact ⟨top', bottom', hw, hf, hw.candidateBonds_put htop hbot hp, hq⟩

/-- `increase_delegation` on the candidates' copy: `d`'s bond to `c` becomes `bond + more`. -/
theorem increaseDelegation_ledger (hcfg : Bounds cfg) (hs : CandidatesOk cfg s) {c d : A}
    {m : CandidateMetadata} (hm : s.candidateInfo c = some m) {bond more : Nat}
    (hb : (c, d, bond) ∈ s.candidateBonds) {r : Bool × CandidateMetadata × State A C}
    (h : increaseDelegation cfg s m c d bond more = .ok r) :
    ∃ top' bottom', Wrote cfg c s r.2.2 r.2.1 top' bottom' ∧ Fits cfg r.2.1 top' bottom' ∧
      r.2.2.candidateBonds = s.candidateBonds.put c d (bond + more) ∧ Quiet s r.2.2 := by
  obtain ⟨top, bottom, htop, hbot, hshape, hfit⟩ := hs.shape c m hm
  obtain ⟨inTop, m', s₁, heq, top', bottom', hw, hf, hp, -, hq⟩ :=
    increaseDelegation_spec hshape hfit htop hbot hcfg.maxTop
      ((mem_candidateBonds_of htop hbot).1 hb) more
  rw [heq, Except.ok.injEq] at h
  subst h
  exact ⟨top', bottom', hw, hf, hw.candidateBonds_put htop hbot hp, hq⟩

/-- Executing a due decrease lowers the bond by the same amount on both copies. -/
theorem executeDecrease_ledgerInv (hcfg : Bounds cfg) (hs : LedgerInv cfg s)
    {collator delegator : A} {state : Delegator A} (hd : s.delegatorState delegator = some state)
    {scheduledRequests : List (ScheduledRequest A)} {requestIdx amount : Nat}
    (h : executeDecrease cfg cur s collator delegator state scheduledRequests requestIdx amount =
      .ok s') : LedgerInv cfg s' := by
  unfold executeDecrease at h
  simp only [bind, Except.bind, throw, throwThe, MonadExceptOf.throw, pure, Except.pure] at h
  split at h
  · rename_i i hi
    split at h
    · rename_i x hx
      simp only [Reach.ite_error_eq_ok] at h
      obtain ⟨hlt, -, -, h⟩ := h
      split at h
      · rename_i m hm
        split at h
        · cases h
        · rename_i v hv
          have h := Except.ok.inj h
          have hok := hs.delegators delegator state hd
          have howner : x.owner = collator := owner_of_findIdx? hi hx
          have hxm : x ∈ state.delegations := List.mem_of_getElem? hx
          -- the bond the delegator holds is on the collator's lists
          have hbond : (collator, delegator, x.amount) ∈ s.candidateBonds := by
            rw [hs.mirror, ← howner]
            exact (mem_delegatorBonds_of hd).2 hxm
          have hs₀ : CandidatesOk cfg { s with currency := cur.unreserve s.currency delegator amount } :=
            hs.toCandidatesOk.congr rfl rfl rfl
          obtain ⟨top', bottom', hw, hf, hbonds, hq⟩ :=
            decreaseDelegation_ledger hcfg hs₀ hm hbond (by omega) hv
          have hle := hok.amount_le_total hxm
          obtain ⟨hdb, hdok⟩ := hs.delegators.modify hd hx (· - amount)
            (show s'.delegatorState = _ by
              rw [← h]
              show Function.update v.2.2.delegatorState delegator _ = _
              rw [hq.1])
            (by omega) (by omega)
          refine ⟨hs₀.write hw hf (by rw [← h]) (by rw [← h]) (by rw [← h]), ?_, hdok⟩
          rw [hdb, candidateBonds_congr (s := v.2.2) (by rw [← h]) (by rw [← h]), hbonds, howner]
          exact congrArg (Ledger.put · collator delegator (x.amount - amount)) hs.mirror
      · cases h
    · cases h
  · cases h

/-- `delegation_execute_scheduled_request` runs a revoke or a decrease. -/
theorem delegationExecuteScheduledRequest_ledgerInv (hcfg : Bounds cfg) (hs : LedgerInv cfg s)
    {collator delegator : A}
    (h : delegationExecuteScheduledRequest cfg cur s collator delegator = .ok s') :
    LedgerInv cfg s' := by
  unfold delegationExecuteScheduledRequest at h
  simp only [bind, Except.bind, throw, throwThe, MonadExceptOf.throw] at h
  split at h
  · rename_i st hst
    split at h
    · split at h
      · rw [Reach.ite_error_eq_ok] at h
        obtain ⟨-, h⟩ := h
        split at h
        · exact executeRevoke_ledgerInv hs hst h
        · exact executeDecrease_ledgerInv hcfg hs hst h
      · cases h
    · cases h
  · cases h

/-- What `Delegator::increase_delegation` reads before the candidate side: the first bond to
    the candidate, its index and amount, and the candidate's metadata. -/
theorem reserveIncrease_eq {self : Delegator A} {c : A} {amount : Nat}
    {r : Nat × Nat × CandidateMetadata × C}
    (h : Delegator.reserveIncrease cur s self c amount = .ok r) :
    ∃ x, self.delegations.findIdx? (fun b => b.owner = c) = some r.1 ∧
      self.delegations[r.1]? = some x ∧ r.2.1 = x.amount ∧ s.candidateInfo c = some r.2.2.1 := by
  unfold Delegator.reserveIncrease at h
  split at h
  · split at h
    · split at h
      · split at h
        · cases h
          exact ⟨_, ‹_›, ‹_›, rfl, ‹_›⟩
        · cases h
      · cases h
    · cases h
  · cases h

/-- `Delegator::increase_delegation` raises the bond by the same amount on both copies; the
    pool refresh after it writes nothing the ledger reads. -/
theorem delegatorIncreaseDelegation_ledgerInv (hcfg : Bounds cfg) (hs : LedgerInv cfg s)
    {delegator : A} {self : Delegator A} (hd : s.delegatorState delegator = some self)
    {candidate : A} {amount : Nat} {r : Bool × State A C}
    (h : Delegator.increaseDelegation cfg cur s self candidate amount = .ok r) :
    LedgerInv cfg r.2 := by
  unfold Delegator.increaseDelegation at h
  obtain ⟨⟨i, before, m, c⟩, hr, h⟩ := Reach.bind_eq_ok.1 h
  obtain ⟨x, hi, hx, hbefore, hm⟩ := reserveIncrease_eq hr
  dsimp only at h hbefore hm hi hx
  subst hbefore
  obtain ⟨⟨inTop, m', s₂⟩, hinc, h⟩ := Reach.bind_eq_ok.1 h
  rw [Reach.pure_eq_ok] at h
  have hok := hs.delegators delegator self hd
  have howner : x.owner = candidate := owner_of_findIdx? hi hx
  have hxm : x ∈ self.delegations := List.mem_of_getElem? hx
  have hbond : (candidate, delegator, x.amount) ∈ s.candidateBonds := by
    rw [hs.mirror, ← howner]
    exact (mem_delegatorBonds_of hd).2 hxm
  have hs₀ : CandidatesOk cfg { s with currency := c } := hs.toCandidatesOk.congr rfl rfl rfl
  rw [hok.id] at hinc
  obtain ⟨top', bottom', hw, hf, hbonds, hq⟩ := increaseDelegation_ledger hcfg hs₀ hm hbond hinc
  dsimp only at hw hf hbonds hq
  -- the pool refresh writes the pool alone
  generalize hs₃ : (if m'.isActive = true ∧ m.totalCounted ≠ m'.totalCounted then
    s₂.updateActive candidate m'.totalCounted else s₂) = s₃ at h
  have h₃ : s₃.topDelegations = s₂.topDelegations ∧ s₃.bottomDelegations = s₂.bottomDelegations ∧
      s₃.candidateInfo = s₂.candidateInfo ∧ s₃.delegatorState = s₂.delegatorState := by
    rw [← hs₃]
    split_ifs <;> exact ⟨rfl, rfl, rfl, rfl⟩
  have ht : r.2.topDelegations = s₂.topDelegations := by
    rw [← h]
    exact h₃.1
  have hb : r.2.bottomDelegations = s₂.bottomDelegations := by
    rw [← h]
    exact h₃.2.1
  obtain ⟨hdb, hdok⟩ := hs.delegators.modify hd hx (· + amount)
    (show r.2.delegatorState = _ by
      rw [← h]
      show Function.update s₃.delegatorState self.id _ = _
      rw [h₃.2.2.2, hq.1, hok.id])
    (by have := hok.positive x hxm; omega) (by omega)
  refine ⟨hs₀.write hw hf (by rw [← h]; exact congrArg (Function.update · candidate _) h₃.2.2.1)
    ht hb, ?_, hdok⟩
  rw [hdb, candidateBonds_congr ht hb, hbonds, howner]
  exact congrArg (Ledger.put · candidate delegator (x.amount + amount)) hs.mirror

/-- `delegation_bond_more_without_event`, refused while a revoke is pending. -/
theorem delegationBondMoreWithoutEvent_ledgerInv (hcfg : Bounds cfg) (hs : LedgerInv cfg s)
    {delegator candidate : A} {more : Nat} {r : Bool × State A C}
    (h : delegationBondMoreWithoutEvent cfg cur s delegator candidate more = .ok r) :
    LedgerInv cfg r.2 := by
  unfold delegationBondMoreWithoutEvent at h
  simp only [bind, Except.bind, throw, throwThe, MonadExceptOf.throw, Reach.ite_error_eq_ok] at h
  obtain ⟨-, h⟩ := h
  split at h
  · rename_i st hst
    exact delegatorIncreaseDelegation_ledgerInv hcfg hs hst h
  · cases h

/-- What a failed compounding leaves behind is a reserve: the currency alone. -/
theorem LedgerFrame.delegationBondMoreLeftover {delegator candidate : A} {more : Nat} :
    LedgerFrame s (delegationBondMoreLeftover cur s delegator candidate more) := by
  unfold Staking.delegationBondMoreLeftover
  split
  · split_ifs
    · exact ⟨rfl, rfl, rfl, rfl⟩
    · split <;> exact ⟨rfl, rfl, rfl, rfl⟩
  · exact ⟨rfl, rfl, rfl, rfl⟩

/-- The payout hook mints the reward, then compounds part of it, whether the compounding
    succeeds or not. -/
theorem mintAndCompound_ledgerInv (hcfg : Bounds cfg) (hs : LedgerInv cfg s) {amt : Nat}
    {compoundPercent : Percent} {candidate delegator : A} :
    LedgerInv cfg (mintAndCompound cfg cur s amt compoundPercent candidate delegator) := by
  unfold mintAndCompound
  split
  · exact hs
  · rename_i currency _
    have h₁ : LedgerInv cfg { s with currency := currency } := hs.of_frame ⟨rfl, rfl, rfl, rfl⟩
    dsimp only
    split_ifs
    · exact h₁
    · split
      · rename_i r hr
        exact delegationBondMoreWithoutEvent_ledgerInv hcfg h₁ hr
      · exact h₁.of_frame LedgerFrame.delegationBondMoreLeftover

end Amounts

/-! ## 5. `delegate` -/

section Delegate

variable [LinearOrder A] {cfg : Config} {cur : Currency A C} {s s' : State A C}

open CandidateMetadata

omit [LinearOrder A] in
theorem books_congr (h : s'.delegatorState = s.delegatorState) : s'.books = s.books := by
  funext d
  simp only [State.books, h]

/-- The bonds of `top ++ bottom.dropLast`, where no owner is twice and `k` is last: those of
    another owner than `k`'s. -/
theorem mem_append_dropLast {top bottom : List (Bond A)} (h : (owners (top ++ bottom)).Nodup)
    {k : Bond A} (hk : bottom.getLast? = some k) {y : Bond A} :
    y ∈ top ++ bottom.dropLast ↔ y ∈ top ++ bottom ∧ y.owner ≠ k.owner := by
  have hkb : k ∈ bottom := List.mem_of_getLast? hk
  have hndb : (owners bottom).Nodup := by
    rw [owners_append] at h
    exact (List.nodup_append.1 h).2.1
  have hp : bottom.dropLast.Perm (bottom.filter (·.owner ≠ k.owner)) :=
    ((perm_cons_dropLast hk).symm.trans (perm_cons_filter hndb hkb)).cons_inv
  have htop : ∀ z ∈ top, z.owner ≠ k.owner := fun z hz he =>
    not_mem_owners_left h (mem_owners.2 ⟨k.amount, hkb⟩) (he ▸ mem_owners.2 ⟨z.amount, hz⟩)
  rw [List.mem_append, List.mem_append, hp.mem_iff, List.mem_filter]
  constructor
  · rintro (hy | ⟨hy, hne⟩)
    · exact ⟨.inl hy, htop y hy⟩
    · exact ⟨.inr hy, by simpa using hne⟩
  · rintro ⟨hy | hy, hne⟩
    · exact .inl hy
    · exact .inr ⟨hy, by simpa using hne⟩

/-- A method that wrote `c`'s lists as `x` and a rest whose bonds are `c`'s in a ledger `L₁`,
    which agrees with the old one off `c` and holds no bond of `x.owner` to `c`, put `x` into
    `L₁`. -/
theorem Wrote.candidateBonds_cons {c : A} {m' : CandidateMetadata} {top' bottom' : Delegations A}
    (hw : Wrote cfg c s s' m' top' bottom') {L₁ : Ledger A} {x : Bond A} {rest : List (Bond A)}
    (hp : (top'.delegations ++ bottom'.delegations).Perm (x :: rest))
    (hrest : ∀ d a, (⟨d, a⟩ : Bond A) ∈ rest ↔ (c, d, a) ∈ L₁)
    (hother : ∀ y : A × A × Nat, y.1 ≠ c → (y ∈ L₁ ↔ y ∈ s.candidateBonds))
    (hx : ∀ a, (c, x.owner, a) ∉ L₁) : s'.candidateBonds = L₁.put c x.owner x.amount := by
  ext ⟨c', d, a⟩
  rw [mem_candidateBonds_write hw.top hw.bottom, hp.mem_iff, Ledger.mem_put]
  by_cases hc : c' = c
  · subst hc
    simp only [List.mem_cons, hrest, true_and, ne_eq, not_true_eq_false, false_and, or_false,
      Prod.mk.injEq]
    constructor
    · rintro (rfl | h)
      · exact .inl ⟨rfl, rfl⟩
      · exact .inr ⟨h, fun hd => hx a (hd ▸ h)⟩
    · rintro (⟨rfl, rfl⟩ | ⟨h, -⟩)
      · exact .inl rfl
      · exact .inr h
  · simp [hc, hother (c', d, a) hc]

/-- What `delegate_with_auto_compound` does when it succeeds: the delegator's state it writes
    (a first one, or the old one with the bond added), the candidate side, and the
    write-back. -/
theorem delegateWithAutoCompound_eq {candidate delegator : A} {amount : Nat}
    {autoCompound : Percent}
    (h : delegateWithAutoCompound cfg cur s candidate delegator amount autoCompound = .ok s') :
    ∃ st' m r m' s₁,
      ((∃ st, s.delegatorState delegator = some st ∧ cfg.minDelegation ≤ amount ∧
          st.addDelegation ⟨candidate, amount⟩ = (true, st')) ∨
        (s.delegatorState delegator = none ∧ cfg.minDelegatorStk ≤ amount ∧
          st' = Delegator.new delegator candidate amount)) ∧
      s.candidateInfo candidate = some m ∧
      addDelegation cfg cur s m candidate ⟨delegator, amount⟩ = .ok (r, m', s₁) ∧
      s'.candidateInfo = Function.update s₁.candidateInfo candidate (some m') ∧
      s'.topDelegations = s₁.topDelegations ∧ s'.bottomDelegations = s₁.bottomDelegations ∧
      s'.delegatorState = Function.update s₁.delegatorState delegator (some st') := by
  unfold delegateWithAutoCompound at h
  simp only [bind, Except.bind, throw, throwThe, MonadExceptOf.throw, pure, Except.pure,
    Reach.ite_error_eq_ok] at h
  obtain ⟨-, h⟩ := h
  -- a first delegation and a later one check different things; the candidate side is one
  split at h <;> split_ifs at h with hmin _ hadd <;>
  · split at h
    · rename_i m hm
      split at h
      · cases h
      · rename_i v hv
        split_ifs at h
        split at h
        · cases h
          refine ⟨_, m, v.1, v.2.1, v.2.2, ?_, hm, hv, rfl, rfl, rfl, rfl⟩
          first
          | exact .inl ⟨_, ‹_›, by omega, Prod.ext (by simpa using hadd) rfl⟩
          | exact .inr ⟨‹_›, by omega, rfl⟩
        · cases h
    · cases h

/-- A delegation `delegate` adds is to a candidate the delegator had no bond to: a first one,
    or one `add_delegation` took. -/
theorem fresh_of_delegate (hs : LedgerInv cfg s) {candidate delegator : A} {amount : Nat}
    {st' : Delegator A}
    (hd : (∃ st, s.delegatorState delegator = some st ∧ cfg.minDelegation ≤ amount ∧
          st.addDelegation ⟨candidate, amount⟩ = (true, st')) ∨
        (s.delegatorState delegator = none ∧ cfg.minDelegatorStk ≤ amount ∧
          st' = Delegator.new delegator candidate amount)) (a : Nat) :
    (candidate, delegator, a) ∉ s.candidateBonds := by
  intro ha
  rw [hs.mirror] at ha
  rcases hd with ⟨st, hst, -, hadd⟩ | ⟨hnone, -, -⟩
  · have hins : (SortedVec.insertKey Bond.owner ⟨candidate, amount⟩ st.delegations).1 = true := by
      unfold Delegator.addDelegation at hadd
      split at hadd
      · rename_i heq
        rw [heq]
      · cases hadd
    exact ((hs.delegators delegator st hst).keys.insertKey_fst_eq_true hins).1 _
      ((mem_delegatorBonds_of hst).1 ha) rfl
  · exact not_mem_delegatorBonds hnone ha

/-- The delegator's side of `delegate`: its state, written last, holds the new bond besides
    those it held. -/
theorem delegate_delegatorBonds (hcfg : Bounds cfg) {s₁ : State A C} (hs₁ : DelegatorsOk s₁)
    {candidate delegator : A} {amount : Nat} {st' : Delegator A}
    (hsame : s₁.delegatorState delegator = s.delegatorState delegator)
    (hd : (∃ st, s.delegatorState delegator = some st ∧ cfg.minDelegation ≤ amount ∧
          st.addDelegation ⟨candidate, amount⟩ = (true, st')) ∨
        (s.delegatorState delegator = none ∧ cfg.minDelegatorStk ≤ amount ∧
          st' = Delegator.new delegator candidate amount))
    (h : s'.delegatorState = Function.update s₁.delegatorState delegator (some st')) :
    s'.delegatorBonds = s₁.delegatorBonds.put candidate delegator amount ∧ DelegatorsOk s' := by
  rcases hd with ⟨st, hst, hmin, hadd⟩ | ⟨hnone, hmin, rfl⟩
  · rw [← hsame] at hst
    have hpos := hcfg.minDelegation
    obtain ⟨hok', hmem⟩ := (hs₁ delegator st hst).addDelegation (b := ⟨candidate, amount⟩)
      (by dsimp only; omega) (by rw [hadd])
    rw [hadd] at hok' hmem
    refine ⟨delegatorBonds_put h fun c' a => (hmem c' a).trans ?_,
      hs₁.update h fun _ he => Option.some.inj he ▸ hok'⟩
    rw [mem_delegatorBonds_of hst]
  · rw [← hsame] at hnone
    have hpos := hcfg.minDelegatorStk
    refine ⟨delegatorBonds_put h fun c' a => ?_,
      hs₁.update h fun _ he => Option.some.inj he ▸ DelegatorOk.new (by omega)⟩
    rw [Delegator.new_delegations, List.mem_singleton, Bond.mk.injEq]
    simp [not_mem_delegatorBonds hnone]

/-- `delegate` puts the new bond on both copies; where the candidate's bottom list was full, the
    kicked bond leaves both. -/
theorem delegateWithAutoCompound_ledgerInv (hcfg : Bounds cfg) (hs : LedgerInv cfg s)
    {candidate delegator : A} {amount : Nat} {autoCompound : Percent}
    (h : delegateWithAutoCompound cfg cur s candidate delegator amount autoCompound = .ok s') :
    LedgerInv cfg s' := by
  obtain ⟨st', m, r, m', s₁, hdel, hm, hadd, hi, ht, hb, hd⟩ := delegateWithAutoCompound_eq h
  have hfresh := fresh_of_delegate hs hdel
  obtain ⟨top, bottom, htop, hbot, hshape, hfit⟩ := hs.shape candidate m hm
  have hfresh' : delegator ∉ owners (top.delegations ++ bottom.delegations) := fun hmem => by
    obtain ⟨a, ha⟩ := mem_owners.1 hmem
    exact hfresh a ((mem_candidateBonds_of htop hbot).2 ha)
  obtain ⟨top', bottom', hw, hf, hcase⟩ := addDelegation_wrote hshape hfit htop hbot hfresh' hadd
  -- after the candidate side both copies read one ledger `L₁`, but for the new bond
  obtain ⟨L₁, hc₁, hd₁, hok₁, hsame⟩ : ∃ L₁ : Ledger A,
      s₁.candidateBonds = L₁.put candidate delegator amount ∧ s₁.delegatorBonds = L₁ ∧
        DelegatorsOk s₁ ∧ s₁.delegatorState delegator = s.delegatorState delegator := by
    rcases hcase with ⟨-, hp, hds⟩ | ⟨k, hk, -, hp, s₂, hkick, hds⟩
    · -- no kick: the bond joins the lists
      refine ⟨s.candidateBonds, hw.candidateBonds_put htop hbot ?_, ?_,
        fun d st hd => hs.delegators d st (hds ▸ hd),
        by rw [hds]⟩
      · rwa [filter_owner_ne_of_not_mem hfresh']
      · rw [delegatorBonds_congr (books_congr hds), hs.mirror]
    · -- the lowest bottom bond is kicked, off both copies
      have hkb : k ∈ bottom.delegations := List.mem_of_getLast? hk
      have hkm : (candidate, k.owner, k.amount) ∈ s.delegatorBonds := by
        rw [← hs.mirror]
        exact (mem_candidateBonds_of htop hbot).2 (List.mem_append_right _ hkb)
      obtain ⟨hkbonds, hkok, hkother⟩ := kickBottom_ledger hs.delegators hkm hkick
      have hne : delegator ≠ k.owner := fun he =>
        hfresh' (he ▸ mem_owners.2 ⟨k.amount, List.mem_append_right _ hkb⟩)
      refine ⟨s.candidateBonds.erase candidate k.owner,
        hw.candidateBonds_cons hp (fun d a => ?_) (fun y hy => ?_) (fun a ha => ?_), ?_,
        fun d st hd => hkok d st (hds ▸ hd), by rw [hds, hkother delegator hne]⟩
      · rw [mem_append_dropLast hshape.lists.ownersNodup hk, Ledger.mem_erase,
          mem_candidateBonds_of htop hbot]
        simp
      · rw [Ledger.mem_erase]
        exact ⟨fun h' => h'.1, fun h' => ⟨h', fun h'' => hy h''.1⟩⟩
      · exact hfresh a (Ledger.mem_erase.1 ha).1
      · rw [delegatorBonds_congr (books_congr hds), hkbonds, hs.mirror]
  obtain ⟨hdb, hdok⟩ := delegate_delegatorBonds hcfg hok₁ hsame hdel hd
  refine ⟨hs.toCandidatesOk.write hw hf hi ht hb, ?_, hdok⟩
  rw [candidateBonds_congr ht hb, hc₁, hdb, hd₁]

end Delegate

/-! ## 6. Whole runs -/

section Runs

variable [LinearOrder A] {cfg : Config} {cur : Currency A C} {s s' : State A C}

/-- **One step.** Every call that succeeds keeps the ledger; the execution of a bond-less
    request leans on `BondInv`, which bounds the request by the bond. -/
theorem step_ledgerInv (hcfg : Bounds cfg) {call : Call A C} (hb : BondInv cfg s)
    (hs : LedgerInv cfg s) (h : step cfg cur s call = .ok s') : LedgerInv cfg s' := by
  cases call with
  | joinCandidates => exact joinCandidates_ledgerInv hcfg hs h
  | scheduleLeaveCandidates => exact scheduleLeaveCandidates_ledgerInv hs h
  | executeLeaveCandidates => exact executeLeaveCandidates_ledgerInv hs h
  | cancelLeaveCandidates => exact cancelLeaveCandidates_ledgerInv hs h
  | goOffline => exact goOffline_ledgerInv hs h
  | goOnline => exact goOnline_ledgerInv hs h
  | candidateBondMore => exact candidateBondMore_ledgerInv hs h
  | scheduleCandidateBondLess => exact scheduleCandidateBondLess_ledgerInv hs h
  | executeCandidateBondLess => exact executeCandidateBondLess_ledgerInv hb hs h
  | cancelCandidateBondLess => exact cancelCandidateBondLess_ledgerInv hs h
  | delegate =>
    simp only [step] at h
    exact delegateWithAutoCompound_ledgerInv hcfg hs h
  | delegateWithAutoCompound =>
    simp only [step] at h
    exact delegateWithAutoCompound_ledgerInv hcfg hs h
  | scheduleLeaveDelegators => exact hs.of_frame (delegatorScheduleRevokeAll_ledgerFrame h)
  | executeLeaveDelegators => exact delegatorExecuteScheduledRevokeAll_ledgerInv hcfg hs h
  | cancelLeaveDelegators => exact hs.of_frame (delegatorCancelScheduledRevokeAll_ledgerFrame h)
  | scheduleRevokeDelegation => exact hs.of_frame (delegationScheduleRevoke_ledgerFrame h)
  | delegatorBondMore =>
    obtain ⟨r, hr, rfl⟩ := Reach.map_eq_ok.1 h
    exact delegationBondMoreWithoutEvent_ledgerInv hcfg hs hr
  | scheduleDelegatorBondLess => exact hs.of_frame (delegationScheduleBondDecrease_ledgerFrame h)
  | executeDelegationRequest => exact delegationExecuteScheduledRequest_ledgerInv hcfg hs h
  | cancelDelegationRequest => exact hs.of_frame (delegationCancelRequest_ledgerFrame h)
  | setAutoCompound => exact hs.of_frame (setAutoCompound_ledgerFrame h)
  | addCandidatesWhitelist candidate =>
    cases h
    exact hs.of_frame (LedgerFrame.addCandidatesWhitelist s candidate)
  | removeCandidatesWhitelist candidate =>
    cases h
    exact hs.of_frame (LedgerFrame.removeCandidatesWhitelist s candidate)
  | newRound =>
    cases h
    exact hs.of_frame ⟨rfl, rfl, rfl, rfl⟩
  | payout =>
    cases h
    exact mintAndCompound_ledgerInv hcfg hs
  | setCurrency =>
    cases h
    exact hs.of_frame ⟨rfl, rfl, rfl, rfl⟩

/-- At genesis both copies are empty. -/
theorem Genesis.ledgerInv (h : Genesis s) : LedgerInv cfg s where
  shape c m hm := by
    rw [h.1 c] at hm
    cases hm
  noTop c _ := h.2.1 c
  noBottom c _ := h.2.2.1 c
  mirror := by
    ext ⟨c, d, a⟩
    exact iff_of_false (not_mem_candidateBonds (h.2.1 c)) (not_mem_delegatorBonds (h.2.2.2.1 d))
  delegators d st hd := by
    rw [h.2.2.2.1 d] at hd
    cases hd

/-- **Every run.** The ledger is kept along every run; `BondInv` is carried beside it. -/
theorem Reachable.ledgerInv (hcfg : Bounds cfg) (h : Reachable cfg cur s) : LedgerInv cfg s := by
  refine (Reach.Reachable.invariant
    (fun s₀ (h₀ : Genesis s₀) => (⟨h₀.bondInv, h₀.ledgerInv⟩ : BondInv cfg s₀ ∧ LedgerInv cfg s₀))
    (fun _ _ _ hi hst => ⟨step_bondInv hi.1 hst, step_ledgerInv hcfg hi.1 hi.2 hst⟩) h).2

/-- In every reachable state the candidates' lists and the delegators' states hold the same
    bonds: `(c, d, a)` is on one of `c`'s lists exactly when `d` holds a bond of `a` to `c`. -/
theorem reachable_bonds_mirror (hcfg : Bounds cfg) (h : Reachable cfg cur s) :
    s.candidateBonds = s.delegatorBonds :=
  (h.ledgerInv hcfg).mirror

/-- The test runtime's configuration has room in both lists and positive least
    delegations. -/
theorem mockConfig_bounds : Bounds mockConfig :=
  ⟨by decide, by decide, by decide, by decide⟩

/-- Where `kickRun` ends: delegator `10` holds its bond of `7` to candidate `1`, and delegator
    `9`, kicked off the full bottom list, holds nothing. -/
def kickBondsCheck (s : State Nat (Nat → Nat × Nat)) : Bool :=
  (s.delegatorState 10).any (fun st => st.delegations.any fun b => b.owner == 1 && b.amount == 7) &&
    (s.delegatorState 9).isNone

theorem kickRun_bonds_checks :
    Reach.runChecks (step mockConfig mockBalances) (genesis [1] fun _ => (100, 0)) kickRun
      kickBondsCheck = true := by
  decide

/-- After the kick, the candidate's lists hold the new bond and nothing of the kicked delegator:
    read off the delegators' side through the mirror. -/
theorem reachable_bonds_mirror_after_kickRun : ∃ s, Reachable mockConfig mockBalances s ∧
    (1, 10, 7) ∈ s.candidateBonds ∧ ∀ a, (1, 9, a) ∉ s.candidateBonds := by
  obtain ⟨s, hs, hp⟩ :=
    Reach.Reachable.of_runChecks (Genesis.genesis (by decide) _) kickRun_bonds_checks
  simp only [kickBondsCheck, Bool.and_eq_true, Option.isNone_iff_eq_none] at hp
  obtain ⟨h10, hnone⟩ := hp
  obtain ⟨st, hst, hb⟩ := (Option.any_eq_true _ _).1 h10
  obtain ⟨⟨o, a⟩, hb, he⟩ := List.any_eq_true.1 hb
  simp only [Bool.and_eq_true, beq_iff_eq] at he
  obtain ⟨rfl, rfl⟩ := he
  have hm := reachable_bonds_mirror mockConfig_bounds hs
  refine ⟨s, hs, ?_, fun a => ?_⟩
  · rw [hm]
    exact (mem_delegatorBonds_of hst).2 hb
  · rw [hm]
    exact not_mem_delegatorBonds hnone

/-- In every reachable state a delegator's stored state is its own, keyed by candidate, with
    positive bonds summing to its total, and each bond stands on its candidate's lists. -/
theorem reachable_delegator_books (hcfg : Bounds cfg) (h : Reachable cfg cur s) {d : A}
    {st : Delegator A} (hd : s.delegatorState d = some st) :
    st.id = d ∧ SortedVec.StrictKey Bond.owner st.delegations ∧
      st.total = (amounts st.delegations).sum ∧
      ∀ b ∈ st.delegations, 0 < b.amount ∧ ∃ m top bottom,
        s.candidateInfo b.owner = some m ∧ s.topDelegations b.owner = some top ∧
        s.bottomDelegations b.owner = some bottom ∧
        (⟨d, b.amount⟩ : Bond A) ∈ top.delegations ++ bottom.delegations := by
  have hs := h.ledgerInv hcfg
  have hok := hs.delegators d st hd
  exact ⟨hok.id, hok.keys, hok.total, fun b hb => ⟨hok.positive b hb, hs.backs hd hb⟩⟩

/-- Candidate `1` joins with `20` and delegator `2` delegates `10` to it. -/
def delegateRun : List (Call Nat (Nat → Nat × Nat)) :=
  [.joinCandidates 1 20, .delegate 2 1 10]

theorem delegateRun_checks :
    Reach.runChecks (step mockConfig mockBalances) (genesis [1] fun _ => (100, 0)) delegateRun
      (fun s => (s.delegatorState 2).isSome && (s.candidateInfo 1).isSome) = true := by
  decide

theorem reachable_delegator_books_after_delegateRun : ∃ s st,
    Reachable mockConfig mockBalances s ∧ s.delegatorState 2 = some st ∧ st.id = 2 ∧
      st.total = (amounts st.delegations).sum := by
  obtain ⟨s, hs, hp⟩ :=
    Reach.Reachable.of_runChecks (Genesis.genesis (by decide) _) delegateRun_checks
  obtain ⟨st, hst⟩ := Option.isSome_iff_exists.1 (Bool.and_eq_true_iff.1 hp).1
  obtain ⟨hid, -, htot, -⟩ := reachable_delegator_books mockConfig_bounds hs hst
  exact ⟨s, st, hs, hst, hid, htot⟩

/-- In every reachable state each candidate has both lists, each sorted by amount from the
    highest, every top bond at least every bottom bond, the bottom list empty unless the top
    one is full, both within their bounds, no delegator twice, the top list's total its sum, and
    the metadata caching both capacities, the lowest top and bottom bonds, the highest bottom one
    and the bond with the top total. -/
theorem reachable_candidate_lists (hcfg : Bounds cfg) (h : Reachable cfg cur s) {c : A}
    {m : CandidateMetadata} (hm : s.candidateInfo c = some m) :
    ∃ top bottom, s.topDelegations c = some top ∧ s.bottomDelegations c = some bottom ∧
      CandidateShape cfg m top bottom ∧ Fits cfg m top bottom :=
  (h.ledgerInv hcfg).shape c m hm

theorem reachable_candidate_lists_after_delegateRun : ∃ s m,
    Reachable mockConfig mockBalances s ∧ s.candidateInfo 1 = some m ∧
      ∃ top bottom, s.topDelegations 1 = some top ∧ s.bottomDelegations 1 = some bottom ∧
        CandidateShape mockConfig m top bottom ∧ Fits mockConfig m top bottom := by
  obtain ⟨s, hs, hp⟩ :=
    Reach.Reachable.of_runChecks (Genesis.genesis (by decide) _) delegateRun_checks
  obtain ⟨m, hm⟩ := Option.isSome_iff_exists.1 (Bool.and_eq_true_iff.1 hp).2
  exact ⟨s, m, hs, hm, reachable_candidate_lists mockConfig_bounds hs hm⟩

end Runs

end Staking
end Litentry
