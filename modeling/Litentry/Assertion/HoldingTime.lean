import Litentry.Lib.Bisection

/-!
# The holding-time search of A4, A7, A10 and A11

`search_holding_date` (`assertion-build/src/holding_time.rs`) finds the earliest of fifteen
dates since which one of the user's accounts has held a token amount. It bisects the dates
with `partition_point`, asking the data provider about every remaining account at each
probe. The predicate is stateful. When some account holds since the probed date, the
accounts that answered a plain "no" are dropped, and the search goes on with the rest.
The first error the provider returns ends the search.

The data provider is a client with a state of its own: `accountIsHolding client a date`
is its answer and the client after it. Its answers are truthful to a relation
`holds a i` ("`a` has held since the `i`-th date") wherever it answers, and `holds` is
monotone in the date. The search then returns the naive answer, `holdingDate`, or an
error (`searchHoldingDate_eq_holdingDate`). The one fact that makes the pruning harmless
is the invariant `Pruned`: an account dropped at a probe does not hold at that date, so by
monotonicity at no earlier one, and the bisection never probes later than that again.
-/

set_option autoImplicit false

namespace Litentry
namespace Assertion

variable {A σ E : Type}

/-- `QueryOutcome`: `Ok(true)` positive, `Ok(false)` negative, `Err` inconclusive. -/
abbrev QueryOutcome (E : Type) := Except E Bool

/-- `is_positive`. -/
def isPositive : QueryOutcome E → Bool
  | .ok true => true
  | _ => false

/-- `is_negative`. -/
def isNegative : QueryOutcome E → Bool
  | .ok false => true
  | _ => false

/-- `is_inconclusive`. -/
def isInconclusive : QueryOutcome E → Bool
  | .error _ => true
  | _ => false

/-- `ASSERTION_DATE_LEN`. -/
def assertionDateLen : Nat := 15

/-- `ASSERTION_FROM_DATE`. -/
def assertionFromDate : List String :=
  ["2017-01-01", "2017-07-01", "2018-01-01", "2018-07-01", "2019-01-01", "2019-07-01",
    "2020-01-01", "2020-07-01", "2021-01-01", "2021-07-01", "2022-01-01", "2022-07-01",
    "2023-01-01", "2023-07-01", "2023-12-01"]

section Search

-- `account_is_holding(client, q_min_balance, account, date)`, with the client's state
variable (accountIsHolding : σ → A → String → QueryOutcome E × σ)

/-- `accounts.iter().map(|account| account_is_holding(..)).collect()`: one query per
    account, in order, each with the client the one before left. -/
def queryAll (date : String) : σ → List A → List (QueryOutcome E) × σ
  | client, [] => ([], client)
  | client, account :: accounts =>
    let (outcome, client) := accountIsHolding client account date
    let (outcomes, client) := queryAll date client accounts
    (outcome :: outcomes, client)

/-- `holding_time_search_step`: on a positive outcome the accounts answering a plain
    "no" go; otherwise the first error, if any, is the outcome. -/
def holdingTimeSearchStep (client : σ) (accounts : List A) (date : String) :
    (QueryOutcome E × List A) × σ :=
  let (outcomes, client) := queryAll accountIsHolding date client accounts
  if outcomes.any isPositive then
    ((.ok true, (accounts.zip outcomes).filterMap fun (account, outcome) =>
      if !isNegative outcome then some account else none), client)
  else
    let outcome := match outcomes.find? isInconclusive with
      | some (.error e) => .error e
      | _ => .ok false
    ((outcome, accounts), client)

/-- The closure `pred` of `search_holding_date`: a search step at the probed date, the
    accounts replaced by those it keeps, and the outcome negated. -/
def searchPred (st : σ × List A) (index : Nat) : Except E Bool × (σ × List A) :=
  let ((outcome, newAccounts), client) :=
    holdingTimeSearchStep accountIsHolding st.1 st.2 (assertionFromDate.getD index "")
  (outcome.map (!·), (client, newAccounts))

/-- `search_holding_date`. -/
def searchHoldingDate (client : σ) (accounts : List A) : Except E (Option String) :=
  match (Bisection.partitionPoint (searchPred accountIsHolding) assertionFromDate.length
      (client, accounts)).1 with
  | .ok index =>
    .ok (if index < assertionDateLen then some (assertionFromDate.getD index "") else none)
  | .error e => .error e

/-- The naive search: the first date since which some account has held. -/
def holdingDate (holds : A → Nat → Bool) (accounts : List A) : Option String :=
  ((List.range assertionDateLen).find? fun i => accounts.any (holds · i)).map
    (assertionFromDate.getD · "")

/-! ## One step -/

variable (holds : A → Nat → Bool)

/-- The provider tells the truth where it answers. -/
def Truthful : Prop :=
  ∀ client a i b, i < assertionDateLen →
    (accountIsHolding client a (assertionFromDate.getD i "")).1 = .ok b → b = holds a i

/-- Holding since a date means holding since every later date of the list. -/
def HoldsMonotone : Prop :=
  ∀ a i j, i ≤ j → j < assertionDateLen → holds a i = true → holds a j = true

/-- What the search keeps while its range ends at `right`: the remaining accounts are
    original ones, and an original account that was dropped holds at no date below
    `right`. -/
def Pruned (accounts : List A) (right : Nat) (st : σ × List A) : Prop :=
  right ≤ assertionDateLen ∧ (∀ a ∈ st.2, a ∈ accounts) ∧
    ∀ a ∈ accounts, a ∉ st.2 → ∀ i, i < right → holds a i = false

variable {accountIsHolding holds}

theorem length_queryAll (date : String) (client : σ) (accounts : List A) :
    (queryAll accountIsHolding date client accounts).1.length = accounts.length := by
  induction accounts generalizing client with
  | nil => rfl
  | cons a accounts ih => exact congrArg Nat.succ (ih _)

/-- Every outcome the queries give is truthful for its account. -/
theorem queryAll_truthful (htruth : Truthful accountIsHolding holds) {i : Nat}
    (hi : i < assertionDateLen) (client : σ) (accounts : List A) :
    ∀ a o, (a, o) ∈ accounts.zip (queryAll accountIsHolding (assertionFromDate.getD i "")
      client accounts).1 → ∀ b, o = .ok b → b = holds a i := by
  induction accounts generalizing client with
  | nil => intro a o h; cases h
  | cons a' accounts ih =>
    intro a o h b hb
    rcases List.mem_cons.1 h with h | h
    · cases h
      exact htruth client a' i b hi hb
    · exact ih _ a o h b hb

/-- What a step that does not fail does at the `i`-th date: on a positive outcome some
    account holds and every account it drops does not; on a negative one no account holds
    and none is dropped. -/
theorem holdingTimeSearchStep_ok (htruth : Truthful accountIsHolding holds) {i : Nat}
    (hi : i < assertionDateLen) {client client' : σ} {accounts accounts' : List A} {b : Bool}
    (h : holdingTimeSearchStep accountIsHolding client accounts (assertionFromDate.getD i "") =
      ((.ok b, accounts'), client')) :
    (b = true → (∃ a ∈ accounts, holds a i = true) ∧ (∀ a ∈ accounts', a ∈ accounts) ∧
        ∀ a ∈ accounts, a ∉ accounts' → holds a i = false) ∧
      (b = false → accounts' = accounts ∧ ∀ a ∈ accounts, holds a i = false) := by
  unfold holdingTimeSearchStep at h
  have hlen : (queryAll accountIsHolding (assertionFromDate.getD i "") client accounts).1.length =
      accounts.length := length_queryAll _ _ _
  have htrue := queryAll_truthful htruth hi client accounts
  generalize queryAll accountIsHolding (assertionFromDate.getD i "") client accounts = q at h hlen htrue
  obtain ⟨outcomes, c⟩ := q
  dsimp only at h hlen htrue
  have hfst : (accounts.zip outcomes).map Prod.fst = accounts := List.map_fst_zip (Nat.le_of_eq hlen.symm)
  have hsnd : (accounts.zip outcomes).map Prod.snd = outcomes := List.map_snd_zip (Nat.le_of_eq hlen)
  -- every account has its outcome beside it in the zip
  have hpair : ∀ a ∈ accounts, ∃ o, (a, o) ∈ accounts.zip outcomes := by
    intro a ha
    rw [← hfst] at ha
    obtain ⟨⟨a', o⟩, hmem, rfl⟩ := List.mem_map.1 ha
    exact ⟨o, hmem⟩
  by_cases hpos : outcomes.any isPositive = true
  · -- a positive outcome: the kept accounts are those not answering a plain "no"
    rw [if_pos hpos] at h
    simp only [Prod.mk.injEq, Except.ok.injEq] at h
    obtain ⟨⟨rfl, rfl⟩, -⟩ := h
    refine ⟨fun _ => ⟨?_, ?_, ?_⟩, fun h => absurd h (by decide)⟩
    · rw [← hsnd, List.any_map] at hpos
      obtain ⟨⟨a, o⟩, hmem, hpo⟩ := List.any_eq_true.1 hpos
      refine ⟨a, (List.of_mem_zip hmem).1, ?_⟩
      cases o with
      | error e => cases hpo
      | ok b => cases b with
        | false => cases hpo
        | true => exact (htrue a _ hmem true rfl).symm
    · intro a ha
      obtain ⟨⟨a', o⟩, hmem, hkeep⟩ := List.mem_filterMap.1 ha
      have ha' : a' = a := by
        cases hn : isNegative o <;> simp [hn] at hkeep
        exact hkeep
      exact ha' ▸ (List.of_mem_zip hmem).1
    · intro a ha hout
      obtain ⟨o, hmem⟩ := hpair a ha
      cases o with
      | error e =>
        exact absurd hout (not_not_intro (List.mem_filterMap.2 ⟨(a, Except.error e), hmem, rfl⟩))
      | ok b =>
        cases b with
        | false => exact (htrue a _ hmem false rfl).symm
        | true => exact absurd hout (not_not_intro (List.mem_filterMap.2 ⟨(a, Except.ok true), hmem, rfl⟩))
  · -- no positive outcome, and no error: every outcome is a plain "no"
    rw [if_neg hpos] at h
    have hnoerr : outcomes.find? isInconclusive = none := by
      cases hfind : outcomes.find? isInconclusive with
      | none => rfl
      | some o =>
        have hinc := List.find?_some hfind
        cases o with
        | error e => rw [hfind] at h; cases h
        | ok b => cases hinc
    rw [hnoerr] at h
    simp only [Prod.mk.injEq, Except.ok.injEq] at h
    obtain ⟨⟨rfl, rfl⟩, -⟩ := h
    refine ⟨fun h => absurd h (by decide), fun _ => ⟨rfl, fun a ha => ?_⟩⟩
    obtain ⟨o, hmem⟩ := hpair a ha
    have ho : o ∈ outcomes := (List.of_mem_zip hmem).2
    cases o with
    | error e => exact absurd (List.find?_eq_none.1 hnoerr _ ho) (by simp [isInconclusive])
    | ok b =>
      cases b with
      | false => exact (htrue a _ hmem false rfl).symm
      | true => exact absurd (List.any_eq_true.2 ⟨_, ho, rfl⟩) hpos

/-- A provider that never fails makes a step that never fails. -/
theorem holdingTimeSearchStep_isOk (hok : ∀ client a date, ∃ b, (accountIsHolding client a date).1 = .ok b)
    (client : σ) (accounts : List A) (date : String) :
    ∃ b, (holdingTimeSearchStep accountIsHolding client accounts date).1.1 = .ok b := by
  -- every outcome is an answer, so the search for an error finds none
  have hall : ∀ client, ∀ o ∈ (queryAll accountIsHolding date client accounts).1,
      isInconclusive o = false := by
    induction accounts with
    | nil => intro client o ho; cases ho
    | cons a accounts ih =>
      intro client o ho
      rcases List.mem_cons.1 ho with rfl | ho
      · obtain ⟨b, hb⟩ := hok client a date
        show isInconclusive (accountIsHolding client a date).1 = false
        rw [hb]
        rfl
      · exact ih _ o ho
  unfold holdingTimeSearchStep
  generalize hq : queryAll accountIsHolding date client accounts = q
  obtain ⟨outcomes, c⟩ := q
  have hnone : outcomes.find? isInconclusive = none := by
    apply List.find?_eq_none.2
    intro o ho
    have := hall client o (by rw [hq]; exact ho)
    rw [this]
    decide
  dsimp only
  by_cases hpos : outcomes.any isPositive = true
  · rw [if_pos hpos]
    exact ⟨true, rfl⟩
  · rw [if_neg hpos, hnone]
    exact ⟨false, rfl⟩

/-! ## The search -/

/-- Below `right` the remaining accounts hold at a date exactly when the original ones
    do. -/
theorem Pruned.any_eq {accounts : List A} {right : Nat} {st : σ × List A}
    (h : Pruned holds accounts right st) {i : Nat} (hi : i < right) :
    st.2.any (holds · i) = accounts.any (holds · i) := by
  obtain ⟨-, hsub, hdrop⟩ := h
  apply Bool.eq_iff_iff.2
  simp only [List.any_eq_true]
  constructor
  · rintro ⟨a, ha, hh⟩
    exact ⟨a, hsub a ha, hh⟩
  · rintro ⟨a, ha, hh⟩
    by_cases hin : a ∈ st.2
    · exact ⟨a, hin, hh⟩
    · rw [hdrop a ha hin i hi] at hh
      cases hh

/-- **The step rule.** At a probe below `right`, the predicate answers that no original
    account holds at the date, and keeps `Pruned`, with `right` moved onto the probe when
    some account holds. -/
theorem searchPred_step (htruth : Truthful accountIsHolding holds) (hmono : HoldsMonotone holds)
    (accounts : List A) (r : Nat) (st : σ × List A) (mid : Nat) (b : Bool)
    (hst : Pruned holds accounts r st) (hmid : mid < r)
    (hb : (searchPred accountIsHolding st mid).1 = .ok b) :
    b = !accounts.any (holds · mid) ∧
      (b = true → Pruned holds accounts r (searchPred accountIsHolding st mid).2) ∧
      (b = false → Pruned holds accounts mid (searchPred accountIsHolding st mid).2) := by
  have hi : mid < assertionDateLen := Nat.lt_of_lt_of_le hmid hst.1
  unfold searchPred at hb ⊢
  generalize hstep : holdingTimeSearchStep accountIsHolding st.1 st.2
    (assertionFromDate.getD mid "") = q at hb ⊢
  obtain ⟨⟨outcome, newAccounts⟩, client⟩ := q
  cases outcome with
  | error e => cases hb
  | ok o =>
    cases hb
    obtain ⟨hpos, hneg⟩ := holdingTimeSearchStep_ok htruth hi hstep
    cases o with
    | true =>
      -- some account holds: the range ends at the probe, and the dropped accounts fail there
      obtain ⟨⟨a, ha, hh⟩, hsub, hdrop⟩ := hpos rfl
      have hany : accounts.any (holds · mid) = true :=
        List.any_eq_true.2 ⟨a, hst.2.1 a ha, hh⟩
      refine ⟨by rw [hany], fun h => absurd h (by decide), fun _ => ?_⟩
      refine ⟨Nat.le_of_lt hi, fun a ha => hst.2.1 a (hsub a ha), fun a ha hout i hlt => ?_⟩
      by_cases hin : a ∈ st.2
      · -- dropped now: it does not hold at the probe, so at no earlier date
        cases hh' : holds a i with
        | false => rfl
        | true =>
          have := hmono a i mid (Nat.le_of_lt hlt) hi hh'
          rw [hdrop a hin hout] at this
          cases this
      · exact hst.2.2 a ha hin i (Nat.lt_trans hlt hmid)
    | false =>
      -- no account holds: nothing is dropped, and the range starts past the probe
      obtain ⟨rfl, hnone⟩ := hneg rfl
      have hany : st.2.any (holds · mid) = false := by
        apply Bool.eq_false_iff.2
        intro h
        obtain ⟨a, ha, hh⟩ := List.any_eq_true.1 h
        rw [hnone a ha] at hh
        cases hh
      rw [hst.any_eq hmid] at hany
      exact ⟨by rw [hany], fun _ => hst, fun h => absurd h (by decide)⟩

/-- A search that returns an index returns that of `holdingDate`. -/
theorem searchHoldingDate_of_index (htruth : Truthful accountIsHolding holds)
    (hmono : HoldsMonotone holds) (client : σ) (accounts : List A) {index : Nat}
    (h : (Bisection.partitionPoint (searchPred accountIsHolding) assertionFromDate.length
      (client, accounts)).1 = .ok index) :
    searchHoldingDate accountIsHolding client accounts = .ok (holdingDate holds accounts) := by
  have hspec := Bisection.partitionPoint_spec (searchPred accountIsHolding)
    (fun i => !accounts.any (holds · i)) (Pruned holds accounts)
    (searchPred_step htruth hmono accounts) assertionDateLen ?_ (client, accounts)
    ⟨Nat.le_refl _, fun a ha => ha, fun a ha hout => absurd ha hout⟩ index h
  · obtain ⟨hle, hbefore, hat⟩ := hspec
    unfold searchHoldingDate holdingDate
    rw [h]
    dsimp only
    congr 1
    by_cases hlt : index < assertionDateLen
    · -- some account holds at `index` and none before
      rw [if_pos hlt]
      have hfind : (List.range assertionDateLen).find? (fun i => accounts.any (holds · i)) =
          some index := by
        rw [List.find?_range_eq_some]
        refine ⟨?_, List.mem_range.2 hlt, fun j hj => hbefore j hj⟩
        have := hat hlt
        cases hany : accounts.any (holds · index) with
        | false => rw [hany] at this; cases this
        | true => rfl
      rw [hfind]
      rfl
    · -- no account holds at any date
      rw [if_neg hlt]
      have hfind : (List.range assertionDateLen).find? (fun i => accounts.any (holds · i)) =
          none :=
        List.find?_range_eq_none.2 fun i hi => hbefore i (by omega)
      rw [hfind]
      rfl
  · -- no original account holding at a date means none holding at an earlier one
    intro i j hij hj hf
    cases hany : accounts.any (holds · i) with
    | false => rfl
    | true =>
      obtain ⟨a, ha, hh⟩ := List.any_eq_true.1 hany
      have hj' : accounts.any (holds · j) = true :=
        List.any_eq_true.2 ⟨a, ha, hmono a i j hij hj hh⟩
      rw [hj'] at hf
      cases hf

/-- **The search is the naive one.** With a provider truthful where it answers and a
    holding relation monotone in the date, `search_holding_date` returns the first date
    since which some original account has held (or `None`), or an error; with a provider
    that never fails, it returns that date. -/
theorem searchHoldingDate_eq_holdingDate (htruth : Truthful accountIsHolding holds)
    (hmono : HoldsMonotone holds) (client : σ) (accounts : List A) :
    (searchHoldingDate accountIsHolding client accounts = .ok (holdingDate holds accounts) ∨
        ∃ e, searchHoldingDate accountIsHolding client accounts = .error e) ∧
      ((∀ client a date, ∃ b, (accountIsHolding client a date).1 = .ok b) →
        searchHoldingDate accountIsHolding client accounts = .ok (holdingDate holds accounts)) := by
  refine ⟨?_, fun hok => ?_⟩
  · cases hpp : (Bisection.partitionPoint (searchPred accountIsHolding) assertionFromDate.length
        (client, accounts)).1 with
    | ok index => exact .inl (searchHoldingDate_of_index htruth hmono client accounts hpp)
    | error e =>
      refine .inr ⟨e, ?_⟩
      unfold searchHoldingDate
      rw [hpp]
  · -- the predicate never fails, so the search returns an index
    have hpred : ∀ st mid, ∃ b, (searchPred accountIsHolding st mid).1 = .ok b := by
      intro st mid
      obtain ⟨b, hb⟩ := holdingTimeSearchStep_isOk hok st.1 st.2 (assertionFromDate.getD mid "")
      refine ⟨!b, ?_⟩
      unfold searchPred
      generalize holdingTimeSearchStep accountIsHolding st.1 st.2 (assertionFromDate.getD mid "") = q at hb ⊢
      obtain ⟨⟨outcome, newAccounts⟩, client⟩ := q
      dsimp only at hb ⊢
      rw [hb]
      rfl
    obtain ⟨index, hindex⟩ := Bisection.partitionPoint_isOk _ hpred assertionFromDate.length
      (client, accounts)
    exact searchHoldingDate_of_index htruth hmono client accounts hindex

end Search

/-! ## A provider at work -/

/-- A provider without state or failures that reads the date back to its index: account
    `a` holds from the `a`-th date on. -/
def thresholdProvider (client : Unit) (a : Nat) (date : String) : QueryOutcome Unit × Unit :=
  (.ok (decide (a ≤ assertionFromDate.idxOf date)), client)

/-- Account `a` holds from the `a`-th date on. -/
def thresholdHolds (a i : Nat) : Bool := decide (a ≤ i)

theorem thresholdProvider_truthful : Truthful thresholdProvider thresholdHolds := by
  intro client a i b hi hb
  -- the dates are distinct, so each reads back to its own index
  have hidx : ∀ i, i < assertionDateLen →
      assertionFromDate.idxOf (assertionFromDate.getD i "") = i := by decide
  cases hb
  rw [hidx i hi]
  rfl

theorem thresholdHolds_monotone : HoldsMonotone thresholdHolds := by
  intro a i j hij _ h
  simp only [thresholdHolds, decide_eq_true_eq] at h ⊢
  omega

theorem searchHoldingDate_of_thresholds :
    Truthful thresholdProvider thresholdHolds ∧ HoldsMonotone thresholdHolds ∧
      (searchHoldingDate thresholdProvider () [5, 3] = .ok (holdingDate thresholdHolds [5, 3]) ∨
          ∃ e, searchHoldingDate thresholdProvider () [5, 3] = .error e) ∧
        ((∀ client a date, ∃ b, (thresholdProvider client a date).1 = .ok b) →
          searchHoldingDate thresholdProvider () [5, 3] = .ok (holdingDate thresholdHolds [5, 3])) :=
  ⟨thresholdProvider_truthful, thresholdHolds_monotone,
    searchHoldingDate_eq_holdingDate thresholdProvider_truthful thresholdHolds_monotone () [5, 3]⟩

example : holdingDate thresholdHolds [5, 3] = some "2018-07-01" := by decide

end Assertion
end Litentry
