import Litentry.Staking.Rebalance
import Litentry.Staking.SelfBond

/-!
# One ledger of bonds, kept twice

A delegation is stored twice. Candidate `c` holds it as a bond `⟨d, a⟩` on one of its two
lists (`TopDelegations`, `BottomDelegations`); delegator `d` holds it as a bond `⟨c, a⟩` among
its delegations (`DelegatorState`, an `OrderedSet` by collator). The pallet keeps the two in
step by hand: `delegate` writes both, `kick_bottom` and `execute_leave_candidates` clean the
delegator side of what they take off a candidate, the increase and decrease paths change the
amount on both, a revoke takes both away.

The abstract model is a `Ledger`: the set of triples `(c, d, a)`, "delegator `d` has `a`
bonded to candidate `c`", with the four operations the calls perform on it (`put`, `erase`,
`eraseCandidate`, `eraseDelegator`). `State.candidateBonds` and `State.delegatorBonds` read it
off each copy, and `LedgerInv` says the two readings agree, every candidate's lists have the
shape of `Staking.Shape` within their bounds (`Fits`), and every delegator's bonds are keyed,
positive and summed by its total.

This module holds the ledger, how a write of either copy moves its reading, the delegator side,
`LedgerInv`, and the calls that write only metadata or nothing the ledger reads;
`Staking.LedgerCalls` takes the calls that move bonds and the whole runs.
-/

set_option autoImplicit false

namespace Litentry
namespace Staking

/-! ## 1. The ledger -/

/-- A ledger of bonds: `(c, d, a)` when delegator `d` has `a` bonded to candidate `c`. -/
abbrev Ledger (A : Type*) := Set (A × A × Nat)

namespace Ledger

variable {A : Type*} (L : Ledger A)

/-- `d` has no bond to `c` any more. -/
def erase (c d : A) : Ledger A := {x | x ∈ L ∧ ¬(x.1 = c ∧ x.2.1 = d)}

/-- `d`'s bond to `c` is `a`, whatever it was. -/
def put (c d : A) (a : Nat) : Ledger A := insert (c, d, a) (L.erase c d)

/-- No bond to `c` is left. -/
def eraseCandidate (c : A) : Ledger A := {x | x ∈ L ∧ x.1 ≠ c}

/-- No bond of `d` is left. -/
def eraseDelegator (d : A) : Ledger A := {x | x ∈ L ∧ x.2.1 ≠ d}

variable {L} {c d : A} {a : Nat} {x : A × A × Nat}

@[simp] theorem mem_erase : x ∈ L.erase c d ↔ x ∈ L ∧ ¬(x.1 = c ∧ x.2.1 = d) := Iff.rfl

@[simp] theorem mem_put : x ∈ L.put c d a ↔ x = (c, d, a) ∨ (x ∈ L ∧ ¬(x.1 = c ∧ x.2.1 = d)) :=
  Iff.rfl

@[simp] theorem mem_eraseCandidate : x ∈ L.eraseCandidate c ↔ x ∈ L ∧ x.1 ≠ c := Iff.rfl

@[simp] theorem mem_eraseDelegator : x ∈ L.eraseDelegator d ↔ x ∈ L ∧ x.2.1 ≠ d := Iff.rfl

/-- Where `c` is the only candidate `d` is bonded to, dropping every bond of `d` is dropping
    its bond to `c`. -/
theorem eraseDelegator_eq_erase (h : ∀ y ∈ L, y.2.1 = d → y.1 = c) :
    L.eraseDelegator d = L.erase c d := by
  ext y
  simp only [mem_eraseDelegator, mem_erase]
  constructor
  · rintro ⟨hy, hd⟩
    exact ⟨hy, fun h' => hd h'.2⟩
  · rintro ⟨hy, hn⟩
    exact ⟨hy, fun hd => hn ⟨h y hy hd, hd⟩⟩

/-- Erasing a bond that is not there changes nothing. -/
theorem erase_eq_self (h : ∀ a, (c, d, a) ∉ L) : L.erase c d = L := by
  ext ⟨c', d', a'⟩
  simp only [mem_erase, and_iff_left_iff_imp]
  rintro hx ⟨rfl, rfl⟩
  exact h a' hx

end Ledger

variable {A C : Type}

/-! ## 2. The two copies -/

namespace State

/-- The candidates' copy of the ledger: `(c, d, a)` when `⟨d, a⟩` is on one of `c`'s lists. -/
def candidateBonds (s : State A C) : Ledger A :=
  {x | ∃ top bottom, s.topDelegations x.1 = some top ∧ s.bottomDelegations x.1 = some bottom ∧
    (⟨x.2.1, x.2.2⟩ : Bond A) ∈ top.delegations ++ bottom.delegations}

/-- The delegators' copy: `(c, d, a)` when `⟨c, a⟩` is among `d`'s delegations. -/
def delegatorBonds (s : State A C) : Ledger A :=
  {x | ∃ st, s.delegatorState x.2.1 = some st ∧ (⟨x.1, x.2.2⟩ : Bond A) ∈ st.delegations}

end State

/-- What the ledger reads of a delegator's state: its account, its bonds and their total. The
    sum of its pending requests, `less_total`, is not among them. -/
def Delegator.books (st : Delegator A) : A × List (Bond A) × Nat := (st.id, st.delegations, st.total)

/-- The books of every delegator. -/
def State.books (s : State A C) (d : A) : Option (A × List (Bond A) × Nat) :=
  (s.delegatorState d).map Delegator.books

section Views

variable {s s' : State A C}

theorem mem_candidateBonds_of {c : A} {top bottom : Delegations A}
    (htop : s.topDelegations c = some top) (hbot : s.bottomDelegations c = some bottom)
    {d : A} {a : Nat} :
    (c, d, a) ∈ s.candidateBonds ↔ (⟨d, a⟩ : Bond A) ∈ top.delegations ++ bottom.delegations := by
  simp [State.candidateBonds, htop, hbot]

theorem mem_delegatorBonds_of {d : A} {st : Delegator A} (h : s.delegatorState d = some st)
    {c : A} {a : Nat} : (c, d, a) ∈ s.delegatorBonds ↔ (⟨c, a⟩ : Bond A) ∈ st.delegations := by
  simp [State.delegatorBonds, h]

/-- A candidate without lists has no bond in the candidates' copy. -/
theorem not_mem_candidateBonds {c : A} (h : s.topDelegations c = none) {d : A} {a : Nat} :
    (c, d, a) ∉ s.candidateBonds := by
  simp [State.candidateBonds, h]

/-- An account without a delegator state has no bond in the delegators' copy. -/
theorem not_mem_delegatorBonds {d : A} (h : s.delegatorState d = none) {c : A} {a : Nat} :
    (c, d, a) ∉ s.delegatorBonds := by
  simp [State.delegatorBonds, h]

theorem candidateBonds_congr (ht : s'.topDelegations = s.topDelegations)
    (hb : s'.bottomDelegations = s.bottomDelegations) : s'.candidateBonds = s.candidateBonds := by
  simp only [State.candidateBonds, ht, hb]

theorem delegatorBonds_congr (h : s'.books = s.books) : s'.delegatorBonds = s.delegatorBonds := by
  ext ⟨c, d, a⟩
  have hd := congrFun h d
  simp only [State.books] at hd
  simp only [State.delegatorBonds, Set.mem_ofPred_eq]
  cases h₁ : s'.delegatorState d <;> cases h₂ : s.delegatorState d <;>
    simp_all [Delegator.books]

variable [LinearOrder A]

/-- A write of `c`'s two lists: `c`'s bonds are the new lists', the others' stay. -/
theorem mem_candidateBonds_write {c : A} {top' bottom' : Delegations A}
    (ht : s'.topDelegations = Function.update s.topDelegations c (some top'))
    (hb : s'.bottomDelegations = Function.update s.bottomDelegations c (some bottom'))
    {x : A × A × Nat} :
    x ∈ s'.candidateBonds ↔
      (x.1 = c ∧ (⟨x.2.1, x.2.2⟩ : Bond A) ∈ top'.delegations ++ bottom'.delegations) ∨
        (x.1 ≠ c ∧ x ∈ s.candidateBonds) := by
  obtain ⟨c', d, a⟩ := x
  by_cases hc : c' = c
  · subst hc
    simp [State.candidateBonds, ht, hb]
  · simp [State.candidateBonds, ht, hb, hc]

/-- A write of `d`'s state: `d`'s bonds are the new state's, the others' stay. -/
theorem mem_delegatorBonds_update {d : A} {o : Option (Delegator A)}
    (h : s'.delegatorState = Function.update s.delegatorState d o) {x : A × A × Nat} :
    x ∈ s'.delegatorBonds ↔
      (x.2.1 = d ∧ ∃ st, o = some st ∧ (⟨x.1, x.2.2⟩ : Bond A) ∈ st.delegations) ∨
        (x.2.1 ≠ d ∧ x ∈ s.delegatorBonds) := by
  obtain ⟨c, d', a⟩ := x
  by_cases hd : d' = d
  · subst hd
    simp [State.delegatorBonds, h]
  · simp [State.delegatorBonds, h, hd]

/-- Writing `d`'s state with `⟨c, a'⟩` in place of whatever bond to `c` it had puts
    `(c, d, a')` in the delegators' copy. -/
theorem delegatorBonds_put {c d : A} {a' : Nat} {st' : Delegator A}
    (h : s'.delegatorState = Function.update s.delegatorState d (some st'))
    (hst : ∀ c' a, (⟨c', a⟩ : Bond A) ∈ st'.delegations ↔
      (c' = c ∧ a = a') ∨ (c' ≠ c ∧ (c', d, a) ∈ s.delegatorBonds)) :
    s'.delegatorBonds = s.delegatorBonds.put c d a' := by
  ext ⟨c', d', a⟩
  rw [mem_delegatorBonds_update h, Ledger.mem_put]
  by_cases hd : d' = d
  · subst hd
    simp only [Option.some.injEq, exists_eq_left', hst, true_and, Prod.mk.injEq, ne_eq,
      not_true_eq_false, false_and, or_false, and_true]
    tauto
  · simp [hd]

/-- Writing `d`'s state without its bond to `c` erases `(c, d, _)` from the delegators' copy. -/
theorem delegatorBonds_erase {c d : A} {st' : Delegator A}
    (h : s'.delegatorState = Function.update s.delegatorState d (some st'))
    (hst : ∀ c' a, (⟨c', a⟩ : Bond A) ∈ st'.delegations ↔
      c' ≠ c ∧ (c', d, a) ∈ s.delegatorBonds) :
    s'.delegatorBonds = s.delegatorBonds.erase c d := by
  ext ⟨c', d', a⟩
  rw [mem_delegatorBonds_update h, Ledger.mem_erase]
  by_cases hd : d' = d
  · subst hd
    simp only [Option.some.injEq, exists_eq_left', hst, true_and, ne_eq, not_true_eq_false,
      false_and, or_false, and_true]
    tauto
  · simp [hd]

/-- Removing `c`'s lists erases every bond to `c` from the candidates' copy. -/
theorem candidateBonds_remove {c : A}
    (ht : s'.topDelegations = Function.update s.topDelegations c none)
    (hb : s'.bottomDelegations = Function.update s.bottomDelegations c none) :
    s'.candidateBonds = s.candidateBonds.eraseCandidate c := by
  ext ⟨c', d, a⟩
  rw [Ledger.mem_eraseCandidate]
  by_cases hc : c' = c
  · subst hc
    simp [State.candidateBonds, ht]
  · simp [State.candidateBonds, ht, hb, hc]

/-- Removing `d`'s state erases every bond of `d` from the delegators' copy. -/
theorem delegatorBonds_remove {d : A} (h : s'.delegatorState = Function.update s.delegatorState d none) :
    s'.delegatorBonds = s.delegatorBonds.eraseDelegator d := by
  ext ⟨c, d', a⟩
  rw [mem_delegatorBonds_update h, Ledger.mem_eraseDelegator]
  by_cases hd : d' = d
  · subst hd
    simp
  · simp [hd]

end Views

/-! ## 3. What the candidate methods do to the candidates' copy -/

section Lists

variable [LinearOrder A] {cfg : Config} {s s' : State A C} {m' : CandidateMetadata} {c : A}
  {top bottom top' bottom' : Delegations A}

/-- A method that wrote `c`'s lists without `d`'s bond erased `d`'s bond to `c`. -/
theorem Wrote.candidateBonds_erase (hw : Wrote cfg c s s' m' top' bottom')
    (htop : s.topDelegations c = some top) (hbot : s.bottomDelegations c = some bottom) {d : A}
    (hp : (top'.delegations ++ bottom'.delegations).Perm
      ((top.delegations ++ bottom.delegations).filter (·.owner ≠ d))) :
    s'.candidateBonds = s.candidateBonds.erase c d := by
  ext ⟨c', d', a⟩
  rw [mem_candidateBonds_write hw.top hw.bottom, hp.mem_iff, Ledger.mem_erase]
  by_cases hc : c' = c
  · subst hc
    simp [mem_candidateBonds_of htop hbot, or_and_right]
  · simp [hc]

/-- A method that wrote `c`'s lists with `⟨d, a'⟩` in place of `d`'s bond put `(c, d, a')`. -/
theorem Wrote.candidateBonds_put (hw : Wrote cfg c s s' m' top' bottom')
    (htop : s.topDelegations c = some top) (hbot : s.bottomDelegations c = some bottom) {d : A}
    {a' : Nat} (hp : (top'.delegations ++ bottom'.delegations).Perm
      (⟨d, a'⟩ :: (top.delegations ++ bottom.delegations).filter (·.owner ≠ d))) :
    s'.candidateBonds = s.candidateBonds.put c d a' := by
  ext ⟨c', d', a⟩
  rw [mem_candidateBonds_write hw.top hw.bottom, hp.mem_iff, Ledger.mem_put]
  by_cases hc : c' = c
  · subst hc
    simp only [List.mem_cons, Bond.mk.injEq, List.mem_filter, decide_eq_true_eq,
      mem_candidateBonds_of htop hbot, true_and, Prod.mk.injEq, ne_eq]
    tauto
  · simp [hc]

end Lists

/-! ## 4. The delegators' side -/

section Delegators

variable [LinearOrder A]

/-- A delegator state as the ledger needs it: stored under its own account, one bond to each
    collator (`OrderedSet`), every bond positive, and the cached total their sum. -/
structure DelegatorOk (d : A) (st : Delegator A) : Prop where
  id : st.id = d
  keys : SortedVec.StrictKey Bond.owner st.delegations
  positive : ∀ b ∈ st.delegations, 0 < b.amount
  total : st.total = (amounts st.delegations).sum

variable {d c : A} {st : Delegator A}

/-- `DelegatorOk` reads the books alone. -/
theorem DelegatorOk.congr (h : DelegatorOk d st) {st' : Delegator A}
    (he : st'.books = st.books) : DelegatorOk d st' := by
  simp only [Delegator.books, Prod.mk.injEq] at he
  obtain ⟨hi, hd, ht⟩ := he
  exact ⟨hi ▸ h.id, hd ▸ h.keys, hd ▸ h.positive, by rw [ht, hd]; exact h.total⟩

/-- Bonds that are all positive and sum to nothing are none. -/
theorem DelegatorOk.eq_nil_of_total (h : DelegatorOk d st) (h0 : st.total = 0) :
    st.delegations = [] := by
  rw [h.total] at h0
  cases hl : st.delegations with
  | nil => rfl
  | cons b l =>
    have hb := h.positive b (by rw [hl]; exact List.mem_cons_self)
    simp only [hl, amounts, List.map_cons, List.sum_cons] at h0
    omega

omit [LinearOrder A] in
/-- A vector the sum of whose amounts changes by one element rewritten. -/
theorem sum_amounts_modify {l : List (Bond A)} {i : Nat} {x : Bond A} (hx : l[i]? = some x)
    (g : Bond A → Bond A) :
    (amounts (l.modify i g)).sum + x.amount = (amounts l).sum + (g x).amount := by
  obtain ⟨hi, -⟩ := List.getElem?_eq_some_iff.1 hx
  obtain ⟨l₁, a, l₂, rfl, hlen, hmod⟩ := List.exists_of_modify g hi
  have ha : a = x := by
    rw [List.getElem?_append_right (by omega), hlen, Nat.sub_self] at hx
    simpa using hx
  subst ha
  rw [hmod]
  simp only [amounts, List.map_append, List.map_cons, List.sum_append, List.sum_cons]
  omega

/-- `OrderedSet::from` of a vector already strictly increasing in `owner` is that vector. -/
theorem orderedSetFrom_of_strictKey {l : List (Bond A)} (h : SortedVec.StrictKey Bond.owner l) :
    Delegator.orderedSetFrom l = l := by
  unfold SortedVec.StrictKey at h
  unfold Delegator.orderedSetFrom
  rw [List.Pairwise.insertionSort_eq (h.imp le_of_lt)]
  exact List.destutter_of_isChain _ _ (h.imp ne_of_lt).isChain

theorem Delegator.new_delegations (id collator : A) (amount : Nat) :
    (Delegator.new id collator amount).delegations = [⟨collator, amount⟩] := rfl

/-- A first delegation makes a delegator with the one bond. -/
theorem DelegatorOk.new {a : Nat} (ha : 0 < a) : DelegatorOk d (Delegator.new d c a) :=
  ⟨rfl, by simp [Delegator.new_delegations, SortedVec.StrictKey],
    by simp [Delegator.new_delegations, ha], by
      show a = (amounts (Delegator.new d c a).delegations).sum
      simp [Delegator.new_delegations, amounts]⟩

/-- `rm_delegation` of a collator the delegator has a bond to drops that bond from the set and
    its amount from the total. -/
theorem Delegator.rmDelegation_of_mem (hk : SortedVec.StrictKey Bond.owner st.delegations)
    {a : Nat} (hm : ⟨c, a⟩ ∈ st.delegations) :
    st.rmDelegation c = (some (st.total - a),
      { st with delegations := st.delegations.filter (·.owner ≠ c), total := st.total - a }) := by
  unfold Delegator.rmDelegation
  rw [hk.find?_key hm rfl]
  simp only [orderedSetFrom_of_strictKey (hk.filter _)]

/-- `rm_delegation` of a collator the delegator has no bond to changes nothing. -/
theorem Delegator.rmDelegation_of_not_mem (hc : ∀ b ∈ st.delegations, b.owner ≠ c) :
    st.rmDelegation c = (none, st) := by
  unfold Delegator.rmDelegation
  rw [List.find?_eq_none.2 (by simpa using hc)]

theorem DelegatorOk.filter (h : DelegatorOk d st) {a : Nat} (hm : ⟨c, a⟩ ∈ st.delegations) :
    DelegatorOk d
      { st with delegations := st.delegations.filter (·.owner ≠ c), total := st.total - a } := by
  have hsum := sum_amounts_filter h.keys.nodup_keys hm
  have htotal := h.total
  refine ⟨h.id, h.keys.filter _, fun b hb => h.positive b (List.mem_of_mem_filter hb), ?_⟩
  show st.total - a = (amounts (st.delegations.filter (·.owner ≠ c))).sum
  omega

/-- `add_delegation` that answers `true` adds the bond, to a collator the delegator had none
    to. -/
theorem DelegatorOk.addDelegation (h : DelegatorOk d st) {b : Bond A} (hb : 0 < b.amount)
    (hi : (st.addDelegation b).1 = true) :
    DelegatorOk d (st.addDelegation b).2 ∧ ∀ c' a, (⟨c', a⟩ : Bond A) ∈ (st.addDelegation b).2.delegations ↔
      (c' = b.owner ∧ a = b.amount) ∨ (c' ≠ b.owner ∧ ⟨c', a⟩ ∈ st.delegations) := by
  rcases hins : SortedVec.insertKey Bond.owner b st.delegations with ⟨_ | _, ds⟩
  · simp [Delegator.addDelegation, hins] at hi
  · obtain ⟨hv, hk, hmem⟩ := h.keys.insertKey_fst_eq_true (v := b) (by rw [hins])
    rw [hins] at hk hmem
    simp only [Delegator.addDelegation, hins]
    refine ⟨⟨h.id, hk, fun x hx => ?_, ?_⟩, fun c' a => ?_⟩
    · rcases (hmem x).1 hx with rfl | hx
      · exact hb
      · exact h.positive x hx
    · -- `ds` is `b` and the old bonds, up to order
      obtain ⟨l', hl', hperm, -⟩ := h.keys.insertKey_of_not_mem hv
      rw [hins] at hl'
      cases hl'
      rw [amounts, (hperm.map _).sum_eq]
      simp [h.total, amounts, add_comm]
    · rw [hmem]
      constructor
      · rintro (h' | h')
        · cases h'
          exact .inl ⟨rfl, rfl⟩
        · exact .inr ⟨fun hc => hv _ h' hc, h'⟩
      · rintro (⟨rfl, rfl⟩ | ⟨-, h'⟩)
        · exact .inl rfl
        · exact .inr h'

/-- Rewriting the amount of the bond at index `i`, with the total moved to match: the bonds
    are the old ones with that one changed. -/
theorem DelegatorOk.modify (h : DelegatorOk d st) {i : Nat} {x : Bond A}
    (hx : st.delegations[i]? = some x) (f : Nat → Nat) (hf : 0 < f x.amount) {total : Nat}
    (ht : total + x.amount = st.total + f x.amount) :
    DelegatorOk d { st with
        delegations := st.delegations.modify i (fun b => ⟨b.owner, f b.amount⟩), total := total } ∧
      ∀ c' a, (⟨c', a⟩ : Bond A) ∈ st.delegations.modify i (fun b => ⟨b.owner, f b.amount⟩) ↔
        (c' = x.owner ∧ a = f x.amount) ∨ (c' ≠ x.owner ∧ ⟨c', a⟩ ∈ st.delegations) := by
  obtain ⟨hk, hmem⟩ := h.keys.modify hx (f := fun b => ⟨b.owner, f b.amount⟩) rfl
  have hsum := sum_amounts_modify hx (fun b => ⟨b.owner, f b.amount⟩)
  have htotal := h.total
  refine ⟨⟨h.id, hk, fun b hb => ?_, ?_⟩, fun c' a => ?_⟩
  · rcases (hmem b).1 hb with rfl | ⟨hb, -⟩
    · exact hf
    · exact h.positive b hb
  · show total = (amounts (st.delegations.modify i (fun b => ⟨b.owner, f b.amount⟩))).sum
    simp only at hsum
    omega
  · rw [hmem]
    simp only [Bond.mk.injEq, ne_eq]
    constructor
    · rintro (⟨rfl, rfl⟩ | ⟨h', hc⟩)
      · exact .inl ⟨rfl, rfl⟩
      · exact .inr ⟨hc, h'⟩
    · rintro (⟨rfl, rfl⟩ | ⟨hc, h'⟩)
      · exact .inl ⟨rfl, rfl⟩
      · exact .inr ⟨h', hc⟩

end Delegators

/-! ## 5. The invariant -/

section Invariant

variable [LinearOrder A]

/-- The configuration the ledger is kept under: room in both lists, and least delegations above
    nothing, so that no bond is empty. -/
structure Bounds (cfg : Config) : Prop where
  maxTop : 0 < cfg.maxTopDelegationsPerCandidate
  maxBottom : 0 < cfg.maxBottomDelegationsPerCandidate
  minDelegation : 0 < cfg.minDelegation
  minDelegatorStk : 0 < cfg.minDelegatorStk

/-- What the candidates' side keeps: each candidate's lists have the shape and fit the bounds
    its metadata caches, and an account that is no candidate has no lists. -/
structure CandidatesOk (cfg : Config) (s : State A C) : Prop where
  shape : ∀ c m, s.candidateInfo c = some m → ∃ top bottom, s.topDelegations c = some top ∧
    s.bottomDelegations c = some bottom ∧ CandidateShape cfg m top bottom ∧ Fits cfg m top bottom
  noTop : ∀ c, s.candidateInfo c = none → s.topDelegations c = none
  noBottom : ∀ c, s.candidateInfo c = none → s.bottomDelegations c = none

/-- What the delegators' side keeps: every stored state is its account's, keyed, positive and
    summed. -/
def DelegatorsOk (s : State A C) : Prop := ∀ d st, s.delegatorState d = some st → DelegatorOk d st

/-- What every reachable state keeps of the ledger: both sides are well formed and the two
    copies hold the same bonds. -/
structure LedgerInv (cfg : Config) (s : State A C) : Prop extends CandidatesOk cfg s where
  mirror : s.candidateBonds = s.delegatorBonds
  delegators : DelegatorsOk s

variable {cfg : Config} {s s' : State A C}

/-- A bond a delegator holds is on its candidate's lists, and that candidate is one. -/
theorem LedgerInv.backs (hs : LedgerInv cfg s) {d : A} {st : Delegator A}
    (hd : s.delegatorState d = some st) {c : A} {a : Nat} (hb : ⟨c, a⟩ ∈ st.delegations) :
    ∃ m top bottom, s.candidateInfo c = some m ∧ s.topDelegations c = some top ∧
      s.bottomDelegations c = some bottom ∧ (⟨d, a⟩ : Bond A) ∈ top.delegations ++ bottom.delegations := by
  have hmem : (c, d, a) ∈ s.candidateBonds := hs.mirror ▸ (mem_delegatorBonds_of hd).2 hb
  obtain ⟨top, bottom, htop, hbot, hm⟩ := hmem
  cases hc : s.candidateInfo c with
  | none => simp [hs.noTop c hc] at htop
  | some m => exact ⟨m, top, bottom, rfl, htop, hbot, hm⟩

/-- A bond on a candidate's lists is held by its delegator. -/
theorem LedgerInv.holds (hs : LedgerInv cfg s) {c : A} {top bottom : Delegations A}
    (htop : s.topDelegations c = some top) (hbot : s.bottomDelegations c = some bottom) {d : A}
    {a : Nat} (hm : (⟨d, a⟩ : Bond A) ∈ top.delegations ++ bottom.delegations) :
    ∃ st, s.delegatorState d = some st ∧ (⟨c, a⟩ : Bond A) ∈ st.delegations := by
  have hmem : (c, d, a) ∈ s.delegatorBonds := hs.mirror ▸ (mem_candidateBonds_of htop hbot).2 hm
  exact hmem

omit [LinearOrder A] in
/-- A state with equal books: a delegator state there is one with the same books here. -/
theorem exists_of_books (h : s'.books = s.books) {d : A} {st' : Delegator A}
    (hd : s'.delegatorState d = some st') :
    ∃ st, s.delegatorState d = some st ∧ st'.books = st.books := by
  have hb := congrFun h d
  simp only [State.books, hd, Option.map_some] at hb
  cases hs : s.delegatorState d with
  | none => simp [hs] at hb
  | some st =>
    rw [hs, Option.map_some, Option.some.injEq] at hb
    exact ⟨st, rfl, hb⟩

/-- Writing a delegator's state with the same books, its `less_total` changed, keeps the
    books. -/
theorem books_update {d : A} {st st' : Delegator A} (hd : s.delegatorState d = some st)
    (h : s'.delegatorState = Function.update s.delegatorState d (some st'))
    (he : st'.books = st.books) : s'.books = s.books := by
  funext d'
  by_cases hd' : d' = d
  · subst hd'
    simp [State.books, h, hd, he]
  · simp [State.books, h, hd']

/-- A step that writes none of what the ledger reads: the metadata, the lists, the delegators'
    books. -/
structure LedgerFrame (s s' : State A C) : Prop where
  candidateInfo : s'.candidateInfo = s.candidateInfo
  top : s'.topDelegations = s.topDelegations
  bottom : s'.bottomDelegations = s.bottomDelegations
  books : s'.books = s.books

omit [LinearOrder A] in
theorem LedgerFrame.trans {s₁ : State A C} (h₁ : LedgerFrame s s₁) (h₂ : LedgerFrame s₁ s') :
    LedgerFrame s s' :=
  ⟨h₂.candidateInfo.trans h₁.candidateInfo, h₂.top.trans h₁.top, h₂.bottom.trans h₁.bottom,
    h₂.books.trans h₁.books⟩

/-- The delegators' books alone keep what the invariant asks of them. -/
theorem LedgerInv.delegators_of_books (hs : LedgerInv cfg s) (h : s'.books = s.books) :
    DelegatorsOk s' := by
  intro d st' hd
  obtain ⟨st, hst, he⟩ := exists_of_books h hd
  exact (hs.delegators d st hst).congr he

theorem LedgerInv.of_frame (hs : LedgerInv cfg s) (h : LedgerFrame s s') : LedgerInv cfg s' where
  shape := by
    rw [h.candidateInfo, h.top, h.bottom]
    exact hs.shape
  noTop := by
    rw [h.candidateInfo, h.top]
    exact hs.noTop
  noBottom := by
    rw [h.candidateInfo, h.bottom]
    exact hs.noBottom
  mirror := by rw [candidateBonds_congr h.top h.bottom, delegatorBonds_congr h.books, hs.mirror]
  delegators := hs.delegators_of_books h.books

/-! ### Writes of the metadata alone -/

/-- `m'` caches what `m` caches of the lists and counts its bond with the top total as `m`
    does: what a write of the status, the request or the self bond keeps. -/
structure SameCaches (m m' : CandidateMetadata) : Prop where
  topCapacity : m'.topCapacity = m.topCapacity
  bottomCapacity : m'.bottomCapacity = m.bottomCapacity
  lowestTop : m'.lowestTopDelegationAmount = m.lowestTopDelegationAmount
  highestBottom : m'.highestBottomDelegationAmount = m.highestBottomDelegationAmount
  lowestBottom : m'.lowestBottomDelegationAmount = m.lowestBottomDelegationAmount
  counted : m'.totalCounted + m.bond = m.totalCounted + m'.bond

omit [LinearOrder A] in
theorem CandidateShape.of_sameCaches {m m' : CandidateMetadata} {top bottom : Delegations A}
    (hs : CandidateShape cfg m top bottom) (hc : SameCaches m m') :
    CandidateShape cfg m' top bottom := by
  have hcounted := hs.topCaches.totalCounted
  have := hc.counted
  exact ⟨hs.lists, hs.topTotal,
    ⟨hc.topCapacity.trans hs.topCaches.topCapacity, hc.lowestTop.trans hs.topCaches.lowestTop,
      by omega⟩,
    ⟨hc.bottomCapacity.trans hs.bottomCaches.bottomCapacity,
      hc.highestBottom.trans hs.bottomCaches.highestBottom⟩⟩

omit [LinearOrder A] in
theorem Fits.of_sameCaches {m m' : CandidateMetadata} {top bottom : Delegations A}
    (hf : Fits cfg m top bottom) (hc : SameCaches m m') : Fits cfg m' top bottom :=
  ⟨hf.topLength, hf.bottomLength, hc.lowestBottom.trans hf.lowestBottom⟩

/-- A write of one candidate's metadata that keeps its caches, and of nothing else the ledger
    reads, keeps `LedgerInv`. -/
theorem LedgerInv.writeMetadata (hs : LedgerInv cfg s) {c : A} {m m' : CandidateMetadata}
    (hm : s.candidateInfo c = some m)
    (hi : s'.candidateInfo = Function.update s.candidateInfo c (some m')) (hc : SameCaches m m')
    (ht : s'.topDelegations = s.topDelegations) (hb : s'.bottomDelegations = s.bottomDelegations)
    (hbooks : s'.books = s.books) : LedgerInv cfg s' where
  shape := by
    intro c' m₁ hm₁
    rw [ht, hb]
    by_cases hc' : c' = c
    · subst hc'
      rw [hi, Function.update_self, Option.some.injEq] at hm₁
      subst hm₁
      obtain ⟨top, bottom, htop, hbot, hshape, hfit⟩ := hs.shape c' m hm
      exact ⟨top, bottom, htop, hbot, hshape.of_sameCaches hc, hfit.of_sameCaches hc⟩
    · rw [hi, Function.update_of_ne hc'] at hm₁
      exact hs.shape c' m₁ hm₁
  noTop := by
    intro c' hc'
    rw [hi] at hc'
    rw [ht]
    by_cases he : c' = c
    · subst he
      simp at hc'
    · exact hs.noTop c' (by rwa [Function.update_of_ne he] at hc')
  noBottom := by
    intro c' hc'
    rw [hi] at hc'
    rw [hb]
    by_cases he : c' = c
    · subst he
      simp at hc'
    · exact hs.noBottom c' (by rwa [Function.update_of_ne he] at hc')
  mirror := by rw [candidateBonds_congr ht hb, delegatorBonds_congr hbooks, hs.mirror]
  delegators := hs.delegators_of_books hbooks

end Invariant

/-! ## 6. The calls that move no bond -/

section Frames

variable [LinearOrder A]

@[simp] theorem writeRequests_topDelegations :
    ∀ (s : State A C) (updated : List (A × List (ScheduledRequest A))),
      (writeRequests s updated).topDelegations = s.topDelegations
  | _, [] => rfl
  | _, _ :: us => writeRequests_topDelegations _ us

@[simp] theorem writeRequests_bottomDelegations :
    ∀ (s : State A C) (updated : List (A × List (ScheduledRequest A))),
      (writeRequests s updated).bottomDelegations = s.bottomDelegations
  | _, [] => rfl
  | _, _ :: us => writeRequests_bottomDelegations _ us

@[simp] theorem writeRequests_delegatorState :
    ∀ (s : State A C) (updated : List (A × List (ScheduledRequest A))),
      (writeRequests s updated).delegatorState = s.delegatorState
  | _, [] => rfl
  | _, _ :: us => writeRequests_delegatorState _ us

/-- Cancelling a request credits `less_total` alone. -/
theorem cancelRequestWithState_books (d : A) (st : Delegator A)
    (requests : List (ScheduledRequest A)) :
    (cancelRequestWithState d st requests).2.1.books = st.books := by
  unfold cancelRequestWithState
  split
  · rfl
  · split <;> rfl

/-- A turn of the revoke-all loop writes `less_total` alone of the delegator state. -/
theorem revokeAllStep_books (s : State A C) (d : A) (when : Nat)
    (acc : Delegator A × Nat × List (A × List (ScheduledRequest A))) (bond : Bond A) :
    (revokeAllStep s d when acc bond).1.books = acc.1.books := by
  obtain ⟨st, n, updated⟩ := acc
  unfold revokeAllStep
  exact cancelRequestWithState_books d st (s.delegationScheduledRequests bond.owner)

end Frames

section MetadataCalls

variable [LinearOrder A] {cfg : Config} {cur : Currency A C} {s s' : State A C}

open CandidateMetadata

omit [LinearOrder A] in
/-- A new candidate's empty lists have the shape its metadata caches. -/
theorem CandidateShape.new (hcfg : Bounds cfg) (bond : Nat) :
    CandidateShape cfg (CandidateMetadata.new bond) (Delegations.empty : Delegations A)
      Delegations.empty :=
  ⟨⟨List.Pairwise.nil, List.Pairwise.nil, fun _ h => absurd h List.not_mem_nil,
      fun h => absurd rfl h, List.nodup_nil⟩, rfl,
    ⟨by simp [CandidateMetadata.new, Delegations.topCapacity, Delegations.empty,
      Nat.not_le.2 hcfg.maxTop], rfl, rfl⟩,
    ⟨by simp [CandidateMetadata.new, Delegations.bottomCapacity, Delegations.empty,
      Nat.not_le.2 hcfg.maxBottom], rfl⟩⟩

theorem joinCandidates_ledgerInv (hcfg : Bounds cfg) (hs : LedgerInv cfg s) {acc : A}
    {bond : Nat} (h : joinCandidates cfg cur s acc bond = .ok s') : LedgerInv cfg s' := by
  unfold joinCandidates at h
  simp only [bind, Except.bind, throw, throwThe, MonadExceptOf.throw, pure, Except.pure,
    Reach.ite_error_eq_ok, Bool.not_eq_true', Bool.not_eq_false] at h
  obtain ⟨-, hcand, -, -, -, -, h⟩ := h
  split at h
  · cases h
    have hnone : s.candidateInfo acc = none := by
      simpa [State.isCandidate] using hcand
    refine ⟨⟨fun c m hm => ?_, fun c hc => ?_, fun c hc => ?_⟩, ?_, hs.delegators⟩
    · by_cases he : c = acc
      · subst he
        simp only [Function.update_self, Option.some.injEq] at hm
        subst hm
        exact ⟨_, _, Function.update_self .., Function.update_self .., CandidateShape.new hcfg bond,
          ⟨by simp [Delegations.empty], by simp [Delegations.empty], rfl⟩⟩
      · simp only [Function.update_of_ne he] at hm ⊢
        exact hs.shape c m hm
    · by_cases he : c = acc
      · subst he
        simp at hc
      · simp only [Function.update_of_ne he] at hc ⊢
        exact hs.noTop c hc
    · by_cases he : c = acc
      · subst he
        simp at hc
      · simp only [Function.update_of_ne he] at hc ⊢
        exact hs.noBottom c hc
    · -- the new candidate's lists are empty, and it had none before
      show _ = s.delegatorBonds
      rw [← hs.mirror]
      ext x
      rw [mem_candidateBonds_write rfl rfl]
      obtain ⟨c, d, a⟩ := x
      by_cases he : c = acc
      · subst he
        simp [Delegations.empty, not_mem_candidateBonds (hs.noTop c hnone)]
      · simp [he]
  · cases h

/-- `schedule_leave_candidates` writes the candidate's status. -/
theorem scheduleLeaveCandidates_ledgerInv {collator : A} (hs : LedgerInv cfg s)
    (h : scheduleLeaveCandidates cfg s collator = .ok s') : LedgerInv cfg s' := by
  unfold scheduleLeaveCandidates at h
  dsimp only at h
  split at h
  · rename_i m hm
    obtain ⟨⟨r, m'⟩, hl, h⟩ := Reach.bind_eq_ok.1 h
    unfold CandidateMetadata.scheduleLeave at hl
    simp only [bind, Except.bind, throw, throwThe, MonadExceptOf.throw, pure, Except.pure,
      Reach.ite_error_eq_ok] at hl
    obtain ⟨-, hl⟩ := hl
    cases hl
    rw [Reach.pure_eq_ok] at h
    subst h
    split_ifs <;> exact hs.writeMetadata hm rfl ⟨rfl, rfl, rfl, rfl, rfl, rfl⟩ rfl rfl rfl
  · cases h

theorem cancelLeaveCandidates_ledgerInv {collator : A} (hs : LedgerInv cfg s)
    (h : cancelLeaveCandidates s collator = .ok s') : LedgerInv cfg s' := by
  unfold cancelLeaveCandidates at h
  split at h
  · rename_i m hm
    simp only [bind, Except.bind, throw, throwThe, MonadExceptOf.throw, pure, Except.pure,
      Reach.ite_error_eq_ok] at h
    obtain ⟨-, -, h⟩ := h
    cases h
    exact hs.writeMetadata hm rfl ⟨rfl, rfl, rfl, rfl, rfl, rfl⟩ rfl rfl rfl
  · cases h

theorem goOffline_ledgerInv {collator : A} (hs : LedgerInv cfg s)
    (h : goOffline s collator = .ok s') : LedgerInv cfg s' := by
  unfold goOffline at h
  split at h
  · rename_i m hm
    simp only [bind, Except.bind, throw, throwThe, MonadExceptOf.throw, pure, Except.pure,
      Reach.ite_error_eq_ok] at h
    obtain ⟨-, h⟩ := h
    cases h
    split_ifs <;> exact hs.writeMetadata hm rfl ⟨rfl, rfl, rfl, rfl, rfl, rfl⟩ rfl rfl rfl
  · cases h

theorem goOnline_ledgerInv {collator : A} (hs : LedgerInv cfg s)
    (h : goOnline s collator = .ok s') : LedgerInv cfg s' := by
  unfold goOnline at h
  split at h
  · rename_i m hm
    simp only [bind, Except.bind, throw, throwThe, MonadExceptOf.throw, pure, Except.pure,
      Reach.ite_error_eq_ok] at h
    obtain ⟨-, -, -, h⟩ := h
    cases h
    exact hs.writeMetadata hm rfl ⟨rfl, rfl, rfl, rfl, rfl, rfl⟩ rfl rfl rfl
  · cases h

/-- `candidate_bond_more` adds to the bond and to the counted total alike. -/
theorem candidateBondMore_ledgerInv {collator : A} {more : Nat} (hs : LedgerInv cfg s)
    (h : candidateBondMore cur s collator more = .ok s') : LedgerInv cfg s' := by
  unfold candidateBondMore at h
  split at h
  · rename_i m hm
    obtain ⟨⟨m', s₁⟩, hb, h⟩ := Reach.bind_eq_ok.1 h
    unfold CandidateMetadata.bondMore at hb
    simp only [bind, Except.bind, throw, throwThe, MonadExceptOf.throw, pure, Except.pure,
      Reach.ite_error_eq_ok] at hb
    obtain ⟨-, hb⟩ := hb
    split at hb
    · cases hb
      have hc : SameCaches m
          { m with bond := m.bond + more, totalCounted := m.totalCounted + more } :=
        ⟨rfl, rfl, rfl, rfl, rfl, by dsimp only; omega⟩
      dsimp only at h
      split_ifs at h <;> rw [Reach.pure_eq_ok] at h <;> subst h <;>
        exact hs.writeMetadata hm rfl hc rfl rfl rfl
    · cases hb
  · cases h

theorem scheduleCandidateBondLess_ledgerInv {collator : A} {less : Nat} (hs : LedgerInv cfg s)
    (h : scheduleCandidateBondLess cfg s collator less = .ok s') : LedgerInv cfg s' := by
  unfold scheduleCandidateBondLess at h
  split at h
  · rename_i m hm
    obtain ⟨⟨w, m'⟩, hb, h⟩ := Reach.bind_eq_ok.1 h
    unfold CandidateMetadata.scheduleBondLess at hb
    simp only [bind, Except.bind, throw, throwThe, MonadExceptOf.throw, pure, Except.pure,
      Reach.ite_error_eq_ok] at hb
    obtain ⟨-, -, -, hb⟩ := hb
    cases hb
    rw [Reach.pure_eq_ok] at h
    subst h
    exact hs.writeMetadata hm rfl ⟨rfl, rfl, rfl, rfl, rfl, rfl⟩ rfl rfl rfl
  · cases h

/-- `execute_candidate_bond_less` takes the request off the bond and the counted total alike;
    the request is below the bond (`BondInv`), which the counted total covers, so neither
    subtraction saturates. -/
theorem executeCandidateBondLess_ledgerInv {candidate : A} (hb : BondInv cfg s)
    (hs : LedgerInv cfg s) (h : executeCandidateBondLess cur s candidate = .ok s') :
    LedgerInv cfg s' := by
  unfold executeCandidateBondLess at h
  split at h
  · rename_i m hm
    obtain ⟨⟨m', s₁⟩, hx, h⟩ := Reach.bind_eq_ok.1 h
    rw [Reach.pure_eq_ok] at h
    subst h
    unfold CandidateMetadata.executeBondLess at hx
    dsimp only at hx
    split at hx
    · rename_i r hr
      split at hx
      · cases hx
      · rw [Reach.pure_eq_ok] at hx
        obtain ⟨top, bottom, -, -, hshape, -⟩ := hs.shape candidate m hm
        have hlt := ((hb candidate m hm).2 r hr).1
        have hcounted := hshape.topCaches.totalCounted
        have hc : SameCaches m
            { m with bond := m.bond - r.amount, totalCounted := m.totalCounted - r.amount,
                     request := none } :=
          ⟨rfl, rfl, rfl, rfl, rfl, by dsimp only; omega⟩
        split_ifs at hx <;> cases hx <;> exact hs.writeMetadata hm rfl hc rfl rfl rfl
    · cases hx
  · cases h

theorem cancelCandidateBondLess_ledgerInv {collator : A} (hs : LedgerInv cfg s)
    (h : cancelCandidateBondLess s collator = .ok s') : LedgerInv cfg s' := by
  unfold cancelCandidateBondLess at h
  split at h
  · rename_i m hm
    obtain ⟨m', hb, h⟩ := Reach.bind_eq_ok.1 h
    unfold CandidateMetadata.cancelBondLess at hb
    simp only [bind, Except.bind, throw, throwThe, MonadExceptOf.throw, pure, Except.pure,
      Reach.ite_error_eq_ok] at hb
    obtain ⟨-, hb⟩ := hb
    cases hb
    rw [Reach.pure_eq_ok] at h
    subst h
    exact hs.writeMetadata hm rfl ⟨rfl, rfl, rfl, rfl, rfl, rfl⟩ rfl rfl rfl
  · cases h

end MetadataCalls

section RequestCalls

variable [LinearOrder A] {cfg : Config} {s s' : State A C}

/-! The request calls write a delegator's `less_total` and the requests. -/

theorem delegationScheduleRevoke_ledgerFrame {collator delegator : A}
    (h : delegationScheduleRevoke cfg s collator delegator = .ok s') : LedgerFrame s s' := by
  unfold delegationScheduleRevoke at h
  simp only [bind, Except.bind, throw, throwThe, MonadExceptOf.throw, pure, Except.pure] at h
  split at h
  · rename_i st hst
    rw [Reach.ite_error_eq_ok] at h
    obtain ⟨-, h⟩ := h
    split at h
    · cases h
      exact ⟨rfl, rfl, rfl, books_update hst rfl rfl⟩
    · cases h
  · cases h

theorem delegationScheduleBondDecrease_ledgerFrame {collator delegator : A}
    {decreaseAmount : Nat}
    (h : delegationScheduleBondDecrease cfg s collator delegator decreaseAmount = .ok s') :
    LedgerFrame s s' := by
  unfold delegationScheduleBondDecrease at h
  simp only [bind, Except.bind, throw, throwThe, MonadExceptOf.throw, pure, Except.pure] at h
  split at h
  · rename_i st hst
    rw [Reach.ite_error_eq_ok] at h
    obtain ⟨-, h⟩ := h
    split at h
    · simp only [Reach.ite_error_eq_ok] at h
      obtain ⟨-, -, -, h⟩ := h
      cases h
      exact ⟨rfl, rfl, rfl, books_update hst rfl rfl⟩
    · cases h
  · cases h

theorem delegationCancelRequest_ledgerFrame {collator delegator : A}
    (h : delegationCancelRequest s collator delegator = .ok s') : LedgerFrame s s' := by
  unfold delegationCancelRequest at h
  split at h
  · rename_i st hst
    split at h
    · rename_i st' _ heq
      cases h
      have hb := cancelRequestWithState_books delegator st (s.delegationScheduledRequests collator)
      rw [heq] at hb
      exact ⟨rfl, rfl, rfl, books_update hst rfl hb⟩
    · cases h
  · cases h

theorem delegatorScheduleRevokeAll_ledgerFrame {delegator : A}
    (h : delegatorScheduleRevokeAll cfg s delegator = .ok s') : LedgerFrame s s' := by
  unfold delegatorScheduleRevokeAll at h
  simp only [bind, Except.bind, throw, throwThe, MonadExceptOf.throw, pure, Except.pure] at h
  split at h
  · rename_i st hst
    -- the loop credits `less_total` alone
    have hb : (st.delegations.foldl (revokeAllStep s delegator (s.round + cfg.leaveDelegatorsDelay))
        (st, 0, [])).1.books = st.books :=
      Reach.foldl_invariant (I := fun acc => acc.1.books = st.books)
        (fun acc bond hacc => (revokeAllStep_books s delegator _ acc bond).trans hacc) _ rfl
    rcases hf : st.delegations.foldl (revokeAllStep s delegator (s.round + cfg.leaveDelegatorsDelay))
      (st, 0, []) with ⟨st', n, updated⟩
    rw [hf] at h hb
    rw [Reach.ite_error_eq_ok] at h
    obtain ⟨-, h⟩ := h
    cases h
    exact ⟨by simp, by simp, by simp, books_update hst (by simp) hb⟩
  · cases h

theorem delegatorCancelScheduledRevokeAll_ledgerFrame {delegator : A}
    (h : delegatorCancelScheduledRevokeAll s delegator = .ok s') : LedgerFrame s s' := by
  unfold delegatorCancelScheduledRevokeAll at h
  simp only [bind, Except.bind, throw, throwThe, MonadExceptOf.throw, pure, Except.pure] at h
  split at h
  · rename_i st hst
    rw [Reach.ite_error_eq_ok] at h
    obtain ⟨-, h⟩ := h
    generalize hf : List.foldl _ (st, []) st.delegations = res at h
    cases h
    -- every turn of the loop cancels a request, which credits `less_total` alone
    have hb : res.1.books = st.books := by
      rw [← hf]
      refine Reach.foldl_invariant (I := fun acc : Delegator A × _ => acc.1.books = st.books)
        (fun acc bond hacc => ?_) _ rfl
      exact (cancelRequestWithState_books delegator acc.1
        (s.delegationScheduledRequests bond.owner)).trans hacc
    exact ⟨by simp, by simp, by simp, books_update hst (by simp) hb⟩
  · cases h

theorem setAutoCompound_ledgerFrame {candidate delegator : A} {value : Percent}
    (h : setAutoCompound s candidate delegator value = .ok s') : LedgerFrame s s' := by
  unfold setAutoCompound at h
  simp only [bind, Except.bind, throw, throwThe, MonadExceptOf.throw, pure, Except.pure] at h
  split at h
  · rw [Reach.ite_error_eq_ok] at h
    obtain ⟨-, h⟩ := h
    split_ifs at h <;> cases h <;> exact ⟨rfl, rfl, rfl, rfl⟩
  · cases h

theorem LedgerFrame.addCandidatesWhitelist (s : State A C) (candidate : A) :
    LedgerFrame s (addCandidatesWhitelist s candidate) := by
  unfold Staking.addCandidatesWhitelist
  split <;> exact ⟨rfl, rfl, rfl, rfl⟩

theorem LedgerFrame.removeCandidatesWhitelist (s : State A C) (candidate : A) :
    LedgerFrame s (removeCandidatesWhitelist s candidate) := by
  unfold Staking.removeCandidatesWhitelist
  split <;> exact ⟨rfl, rfl, rfl, rfl⟩

end RequestCalls

end Staking
end Litentry
