import Mathlib

/-!
# `loop_with_abort_strategy`, and the any-address queries built on it

`lc_common::abort_strategy::loop_with_abort_strategy` runs a closure over a list of items.
The closure answers `Break`, `Continue` or an error. An error is pushed onto a vector, and the
strategy decides whether the loop stops there: `FailFast` stops at once, `ContinueUntil(p)`
when `p` holds of the item or the item is the last, `ContinueUntilEnd` only at the last item.
A loop that runs to its end, or breaks, answers `Ok(())`, whatever errors it pushed.

Two credential queries use it with `ContinueUntilEnd` and a captured flag `result`:
`request_achainable` (`assertion-build/src/achainable/mod.rs`) and KaratDao's `is_user`
(`service/src/platform_user/karat_dao_user.rs`). An address the data provider answers `true`
for sets the flag and breaks; `false` continues; an error goes to the loop. The caller then
answers the flag, or the first pushed error if the loop failed.

What this file proves is what that composition answers for every address list and every
oracle (`anyAddress_eq`): `Ok(true)` as soon as some address is `true`; otherwise an error
exactly when the *last* address erred; otherwise `Ok(false)`. An error on any other address
is pushed and then dropped when the loop runs out (`requestAchainable_discards_errors`), so a
failed lookup can come back as a negative answer, and the answer depends on the order of the
addresses.

The closure is an `FnMut`: it is modelled as a function of the state it captured, which it
returns updated. The data provider's client is an oracle `A → Except E Bool`.
-/

set_option autoImplicit false

namespace Litentry
namespace Assertion

/-- `AbortStrategy<F>`. -/
inductive AbortStrategy (T : Type) where
  | failFast
  | continueUntil (predicate : T → Bool)
  | continueUntilEnd

/-- `LoopControls`; `break` and `continue` are keywords of Lean. -/
inductive LoopControls where
  | break'
  | continue'
  deriving DecidableEq, Repr

section Loop

variable {T E σ : Type}

/-- The `for (index, item) in items.iter().enumerate()` loop from `index` on, with the
    errors pushed so far; `len` is `items.len()`. -/
def loopFrom (len : Nat) (action : T → σ → Except E LoopControls × σ)
    (abortStrategy : AbortStrategy T) : Nat → List T → List E → σ → Except (List E) Unit × σ
  | _, [], _, st => (.ok (), st)
  | index, item :: rest, errors, st =>
    match action item st with
    | (.ok .break', st) => (.ok (), st)
    | (.ok .continue', st) => loopFrom len action abortStrategy (index + 1) rest errors st
    | (.error err, st) =>
      let errors := errors ++ [err]
      match abortStrategy with
      | .failFast => (.error errors, st)
      | .continueUntil predicate =>
        if predicate item || index == len - 1 then (.error errors, st)
        else loopFrom len action abortStrategy (index + 1) rest errors st
      | .continueUntilEnd =>
        if index == len - 1 then (.error errors, st)
        else loopFrom len action abortStrategy (index + 1) rest errors st

/-- `loop_with_abort_strategy(items, action, abort_strategy)`, from the closure's state `st`. -/
def loopWithAbortStrategy (items : List T) (action : T → σ → Except E LoopControls × σ)
    (abortStrategy : AbortStrategy T) (st : σ) : Except (List E) Unit × σ :=
  loopFrom items.length action abortStrategy 0 items [] st

/-- `ContinueUntilEnd` read without indices: an error ends the loop only on the last item. -/
def untilEnd (action : T → σ → Except E LoopControls × σ) :
    List T → List E → σ → Except (List E) Unit × σ
  | [], _, st => (.ok (), st)
  | item :: rest, errors, st =>
    match action item st with
    | (.ok .break', st) => (.ok (), st)
    | (.ok .continue', st) => untilEnd action rest errors st
    | (.error err, st) =>
      if rest = [] then (.error (errors ++ [err]), st) else untilEnd action rest (errors ++ [err]) st

/-- With `ContinueUntilEnd`, `index == items.len() - 1` says that no item is left: the
    loop is `untilEnd`. The induction is on the items left, with `index` counting those done. -/
theorem loopFrom_continueUntilEnd (action : T → σ → Except E LoopControls × σ) (len : Nat) :
    ∀ (index : Nat) (items : List T) (errors : List E) (st : σ), index + items.length = len →
      loopFrom len action .continueUntilEnd index items errors st = untilEnd action items errors st
  | _, [], _, _, _ => rfl
  | index, item :: rest, errors, st, hlen => by
    have hlast : (index == len - 1) = decide (rest = []) := by
      cases rest with
      | nil => simp only [List.length_singleton] at hlen; simp [← hlen]
      | cons _ _ => simp only [List.length_cons] at hlen; simp; omega
    have ih := loopFrom_continueUntilEnd action len (index + 1) rest
    simp only [List.length_cons] at hlen
    unfold loopFrom untilEnd
    rcases action item st with ⟨_ | (_ | _), st'⟩
    · simp only [hlast, decide_eq_true_eq]
      split_ifs
      · rfl
      · exact ih _ _ (by omega)
    · rfl
    · exact ih _ _ (by omega)

theorem loopWithAbortStrategy_continueUntilEnd (items : List T)
    (action : T → σ → Except E LoopControls × σ) (st : σ) :
    loopWithAbortStrategy items action .continueUntilEnd st = untilEnd action items [] st :=
  loopFrom_continueUntilEnd action _ 0 items [] st (Nat.zero_add _)

end Loop

/-! ## The any-address queries -/

section AnyAddress

variable {A E F P : Type}

/-- The closure of `request_achainable` and `is_user`: `true` sets the captured `result` and
    breaks, `false` continues, an error goes to the loop. -/
def anyAddressAction (query : A → Except E Bool) (address : A) (result : Bool) :
    Except E LoopControls × Bool :=
  match query address with
  | .ok true => (.ok .break', true)
  | .ok false => (.ok .continue', result)
  | .error e => (.error e, result)

/-- What the two callers share: the loop with `ContinueUntilEnd` from `result = false`, then
    `errors[0]` of a failed loop, or the flag. -/
def anyAddress [Inhabited E] (query : A → Except E Bool) (addresses : List A) : Except E Bool :=
  match loopWithAbortStrategy addresses (anyAddressAction query) .continueUntilEnd false with
  | (.error errors, _) => .error errors.head!
  | (.ok (), result) => .ok result

/-- `request_achainable(addresses, param, config)`: `Params::try_from(param)?`, then the
    loop, a failed loop becoming `RequestVCFailed(Achainable(param), errors[0])`. -/
def requestAchainable [Inhabited E] (requestParam : Except F P) (query : P → A → Except E Bool)
    (requestVCFailed : E → F) (addresses : List A) : Except F Bool := do
  let requestParam ← requestParam
  (anyAddress (query requestParam) addresses).mapError requestVCFailed

/-- KaratDao's `is_user(addresses, config)`: `userVerification a` is the provider's
    `result.is_valid` for `a`. -/
def isUser [Inhabited E] (userVerification : A → Except E Bool) (addresses : List A) :
    Except E Bool :=
  anyAddress userVerification addresses

/-- Whether the oracle answers `Ok(true)` for an address. -/
def answersTrue (query : A → Except E Bool) (a : A) : Bool :=
  match query a with
  | .ok true => true
  | _ => false

theorem answersTrue_iff {query : A → Except E Bool} {a : A} :
    answersTrue query a = true ↔ query a = .ok true := by
  unfold answersTrue
  split <;> simp_all

/-- The errors of the addresses, in order. -/
def errorsOf (query : A → Except E Bool) (addresses : List A) : List E :=
  addresses.filterMap fun a => match query a with
    | .error e => some e
    | .ok _ => none

/-- Whether the last address erred. -/
def lastErred (query : A → Except E Bool) (addresses : List A) : Bool :=
  match addresses.getLast?.map query with
  | some (.error _) => true
  | _ => false

/-- The loop of the any-address closure, by induction on the addresses: a `true` answers
    `true`; otherwise the errors are all pushed and returned only if the last address erred. -/
theorem untilEnd_anyAddressAction (query : A → Except E Bool) :
    ∀ (addresses : List A) (errors : List E) (result : Bool),
      untilEnd (anyAddressAction query) addresses errors result =
        if addresses.any (answersTrue query) then (.ok (), true)
        else if lastErred query addresses then (.error (errors ++ errorsOf query addresses), result)
        else (.ok (), result)
  | [], _, _ => by simp [untilEnd, lastErred]
  | a :: rest, errors, result => by
    have ih := untilEnd_anyAddressAction query rest
    unfold untilEnd
    rcases hq : query a with e | (_ | _)
    · -- an error: pushed, and returned if no address is left
      have ha : answersTrue query a = false := by simp [answersTrue, hq]
      cases rest with
      | nil => simp [anyAddressAction, hq, ha, lastErred, errorsOf]
      | cons b rest =>
        have hlast : lastErred query (a :: b :: rest) = lastErred query (b :: rest) := by
          simp [lastErred, List.getLast?_cons_cons]
        have herrs : errorsOf query (a :: b :: rest) = e :: errorsOf query (b :: rest) := by
          simp [errorsOf, hq]
        simp [anyAddressAction, hq, ih, ha, hlast, herrs]
    · -- `false`: the loop continues with the flag as it was
      have ha : answersTrue query a = false := by simp [answersTrue, hq]
      cases rest with
      | nil => simp [anyAddressAction, hq, ha, untilEnd, lastErred]
      | cons b rest =>
        have hlast : lastErred query (a :: b :: rest) = lastErred query (b :: rest) := by
          simp [lastErred, List.getLast?_cons_cons]
        have herrs : errorsOf query (a :: b :: rest) = errorsOf query (b :: rest) := by
          simp [errorsOf, hq]
        simp [anyAddressAction, hq, ih, ha, hlast, herrs]
    · -- `true`: the flag is set and the loop breaks
      simp [anyAddressAction, hq, answersTrue]

/-- **What the any-address queries answer.** `Ok(true)` if some address is `true`; otherwise
    the first error if the last address erred, and `Ok(false)` if it did not, whatever the
    other addresses answered. -/
theorem anyAddress_eq [Inhabited E] (query : A → Except E Bool) (addresses : List A) :
    anyAddress query addresses =
      if addresses.any (answersTrue query) then .ok true
      else if lastErred query addresses then .error (errorsOf query addresses).head!
      else .ok false := by
  unfold anyAddress
  rw [loopWithAbortStrategy_continueUntilEnd, untilEnd_anyAddressAction]
  split_ifs <;> rfl

/-- An error on an address that is not the last is dropped: with no `true`, an error
    somewhere and a last address answering `false`, both callers answer `Ok(false)`. -/
theorem requestAchainable_discards_errors [Inhabited E] (requestParam : P)
    (query : P → A → Except E Bool) (requestVCFailed : E → F) (addresses : List A)
    (hnone : ∀ a ∈ addresses, query requestParam a ≠ .ok true)
    (herr : ∃ a ∈ addresses, ∃ e, query requestParam a = .error e)
    (hlast : ∃ a, addresses.getLast? = some a ∧ query requestParam a = .ok false) :
    errorsOf (query requestParam) addresses ≠ [] ∧
      requestAchainable (.ok requestParam) query requestVCFailed addresses = .ok false ∧
      isUser (query requestParam) addresses = .ok false := by
  have herrs : errorsOf (query requestParam) addresses ≠ [] := by
    obtain ⟨a, ha, e, he⟩ := herr
    rw [← List.length_pos_iff, errorsOf, List.length_filterMap_pos_iff]
    exact ⟨a, ha, by simp [he]⟩
  have hno : addresses.any (answersTrue (query requestParam)) = false := by
    rw [List.any_eq_false]
    intro a ha h
    exact hnone a ha (answersTrue_iff.1 h)
  have hnot : lastErred (query requestParam) addresses = false := by
    obtain ⟨a, ha, hqa⟩ := hlast
    simp [lastErred, ha, hqa]
  have hany : anyAddress (query requestParam) addresses = .ok false := by
    rw [anyAddress_eq, hno, hnot]
    rfl
  refine ⟨herrs, ?_, hany⟩
  show (anyAddress (query requestParam) addresses).mapError requestVCFailed = .ok false
  rw [hany]
  rfl

/-- A data provider that times out on address `0` and answers `false` for every other. -/
def timeoutOnFirst (_ : Unit) (a : Nat) : Except String Bool :=
  if a = 0 then .error "timeout" else .ok false

/-- The failing input: the first of two addresses times out, the second answers `false`. -/
theorem requestAchainable_discards_first_error :
    (∀ a ∈ [0, 1], timeoutOnFirst () a ≠ .ok true) ∧
      (∃ a ∈ [0, 1], ∃ e, timeoutOnFirst () a = .error e) ∧
      (∃ a, [0, 1].getLast? = some a ∧ timeoutOnFirst () a = .ok false) ∧
      errorsOf (timeoutOnFirst ()) [0, 1] ≠ [] ∧
      requestAchainable (.ok ()) timeoutOnFirst id [0, 1] = .ok false ∧
      isUser (timeoutOnFirst ()) [0, 1] = .ok false := by
  have hnone : ∀ a ∈ [0, 1], timeoutOnFirst () a ≠ .ok true := by decide
  have herr : ∃ a ∈ [0, 1], ∃ e, timeoutOnFirst () a = .error e := ⟨0, by simp, "timeout", rfl⟩
  have hlast : ∃ a, [0, 1].getLast? = some a ∧ timeoutOnFirst () a = .ok false := ⟨1, rfl, rfl⟩
  exact ⟨hnone, herr, hlast,
    requestAchainable_discards_errors () timeoutOnFirst id [0, 1] hnone herr hlast⟩

-- the same two answers in the other order: the last address erred, so the loop fails
example : isUser (timeoutOnFirst ()) [1, 0] = .error "timeout" := rfl

end AnyAddress

end Assertion
end Litentry
