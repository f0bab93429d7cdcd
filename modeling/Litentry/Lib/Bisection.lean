/-!
# Bisection with a stateful, fallible predicate

`slice::partition_point(pred)` is `binary_search_by` with a comparison that answers
`Less` where `pred` holds and `Greater` where it does not, so it never finds `Equal`. Its
loop keeps a half-open range `[left, right)`, probes `mid = left + (right - left) / 2`, and
moves `left` past a probe that holds and `right` onto one that does not.

The predicate here threads a state of its own (an `FnMut` closure), so what it answers at
a probe may depend on the probes before. `partitionPointFrom_spec` says what the loop
returns when the answers agree with a function `f` that holds up to a point and not after
it, as long as an invariant of the state, indexed by the current `right`, survives each
probe. A state may also turn `Bad` (an error trapped), and stays so; nothing is claimed of
the answers then.

`partitionPoint` is the fallible variant: the first error the predicate returns is
trapped, every later probe answers `true` without asking, and the search returns the
error.
-/

set_option autoImplicit false

namespace Bisection

variable {σ ε : Type}

/-- The loop of `binary_search_by` on `[left, right)`, with a predicate for the comparison:
    `true` is `Less`, `false` is `Greater`. -/
def partitionPointFrom (pred : σ → Nat → Bool × σ) (left right : Nat) (st : σ) : Nat × σ :=
  if left < right then
    match pred st (left + (right - left) / 2) with
    | (true, st') => partitionPointFrom pred (left + (right - left) / 2 + 1) right st'
    | (false, st') => partitionPointFrom pred left (left + (right - left) / 2) st'
  else (left, st)
termination_by right - left
decreasing_by all_goals omega

/-- A predicate that returns an error is asked no more: the error is kept beside the
    state, and every later probe answers `true`. -/
def trapped (pred : σ → Nat → Except ε Bool × σ) : σ × Option ε → Nat → Bool × (σ × Option ε)
  | (st, some e), _ => (true, (st, some e))
  | (st, none), mid =>
    match pred st mid with
    | (.ok b, st') => (b, (st', none))
    | (.error e, st') => (true, (st', some e))

/-- `partition_point` over the indices `[0, len)` with a fallible predicate: the index, or
    the error the predicate returned first. -/
def partitionPoint (pred : σ → Nat → Except ε Bool × σ) (len : Nat) (st : σ) : Except ε Nat × σ :=
  match partitionPointFrom (trapped pred) 0 len (st, none) with
  | (index, (st', none)) => (.ok index, st')
  | (_, (st', some e)) => (.error e, st')

/-! ## The loop -/

section Loop

variable (pred : σ → Nat → Bool × σ)

/-- A property of the state that every probe keeps holds at the end of the loop. -/
theorem partitionPointFrom_invariant (P : σ → Prop) (hP : ∀ st mid, P st → P (pred st mid).2)
    (left right : Nat) (st : σ) (h : P st) : P (partitionPointFrom pred left right st).2 := by
  induction left, right, st using partitionPointFrom.induct pred with
  | case1 left right st hlt st' hp ih | case2 left right st hlt st' hp ih =>
    rw [partitionPointFrom, if_pos hlt, hp]
    have hst' := hP st (left + (right - left) / 2) h
    rw [hp] at hst'
    exact ih hst'
  | case3 left right st hlt =>
    rw [partitionPointFrom, if_neg hlt]
    exact h

variable (Bad : σ → Prop)

variable (f : Nat → Bool) (I : Nat → σ → Prop)

/-- **The loop rule.** Say the answers agree with `f` at every probe below the current
    `right` that does not leave a `Bad` state, and the invariant `I right` survives each
    probe (with `right` moved onto a probe answering `false`). If the loop ends in a state
    that is not `Bad`, the index it returns splits `[left, right)`: `f` holds before it,
    and not at it. -/
theorem partitionPointFrom_spec (hbad : ∀ st mid, Bad st → Bad (pred st mid).2)
    (hstep : ∀ r st mid, I r st → mid < r → ¬ Bad (pred st mid).2 →
      (pred st mid).1 = f mid ∧ ((pred st mid).1 = true → I r (pred st mid).2) ∧
        ((pred st mid).1 = false → I mid (pred st mid).2))
    (left right : Nat) (hf : ∀ i j, i ≤ j → j < right → f j = true → f i = true)
    (st : σ) (hI : I right st) (hle : left ≤ right)
    (hok : ¬ Bad (partitionPointFrom pred left right st).2) :
    let index := (partitionPointFrom pred left right st).1
    left ≤ index ∧ index ≤ right ∧ (∀ i, left ≤ i → i < index → f i = true) ∧
      (index < right → f index = false) := by
  induction left, right, st using partitionPointFrom.induct pred with
  | case1 left right st hlt st' hp ih =>
    -- the probe holds: `f` holds up to it, and the search goes on to its right
    rw [partitionPointFrom, if_pos hlt, hp] at hok ⊢
    dsimp only at hok ⊢
    have hgood : ¬ Bad (pred st (left + (right - left) / 2)).2 := by
      rw [hp]
      exact fun hb => hok (partitionPointFrom_invariant pred Bad hbad _ _ _ hb)
    obtain ⟨hans, hI', -⟩ := hstep right st _ hI (by omega) hgood
    rw [hp] at hans hI'
    have hfmid : f (left + (right - left) / 2) = true := hans.symm
    obtain ⟨h₁, h₂, h₃, h₄⟩ := ih hf (hI' rfl) (by omega) hok
    refine ⟨by omega, h₂, fun i hi hlt' => ?_, h₄⟩
    by_cases him : i ≤ left + (right - left) / 2
    · exact hf i _ him (by omega) hfmid
    · exact h₃ i (by omega) hlt'
  | case2 left right st hlt st' hp ih =>
    -- the probe fails: the search goes on to its left, with `right` on it
    rw [partitionPointFrom, if_pos hlt, hp] at hok ⊢
    dsimp only at hok ⊢
    have hgood : ¬ Bad (pred st (left + (right - left) / 2)).2 := by
      rw [hp]
      exact fun hb => hok (partitionPointFrom_invariant pred Bad hbad _ _ _ hb)
    obtain ⟨hans, -, hI'⟩ := hstep right st _ hI (by omega) hgood
    rw [hp] at hans hI'
    have hfmid : f (left + (right - left) / 2) = false := hans.symm
    have hf' : ∀ i j, i ≤ j → j < left + (right - left) / 2 → f j = true → f i = true :=
      fun i j hij hj => hf i j hij (by omega)
    obtain ⟨h₁, h₂, h₃, h₄⟩ := ih hf' (hI' rfl) (by omega) hok
    refine ⟨h₁, by omega, h₃, fun hlt' => ?_⟩
    by_cases hm : (partitionPointFrom pred left (left + (right - left) / 2) st').1 <
        left + (right - left) / 2
    · exact h₄ hm
    · rw [show (partitionPointFrom pred left (left + (right - left) / 2) st').1 =
        left + (right - left) / 2 by omega]
      exact hfmid
  | case3 left right st hlt =>
    rw [partitionPointFrom, if_neg hlt]
    exact ⟨Nat.le_refl _, hle, fun i hi hlt' => absurd hlt' (by omega), fun h => absurd h (by omega)⟩

end Loop

/-! ## A fallible predicate -/

section Fallible

variable (pred : σ → Nat → Except ε Bool × σ) (f : Nat → Bool) (I : Nat → σ → Prop)

/-- A search whose predicate never fails traps no error. -/
theorem partitionPoint_isOk (hok : ∀ st mid, ∃ b, (pred st mid).1 = .ok b) (len : Nat) (st : σ) :
    ∃ index, (partitionPoint pred len st).1 = .ok index := by
  have hnone := partitionPointFrom_invariant (trapped pred) (fun st => st.2 = none)
    (fun st mid hst => ?_) 0 len (st, none) rfl
  · unfold partitionPoint
    split
    · exact ⟨_, rfl⟩
    · rename_i heq
      rw [heq] at hnone
      cases hnone
  · obtain ⟨st, trap⟩ := st
    dsimp only at hst
    subst hst
    obtain ⟨b, hb⟩ := hok st mid
    simp only [trapped]
    split
    · rfl
    · rename_i heq
      rw [heq] at hb
      cases hb

/-- **Search with trapped errors.** Say every answer the predicate gives at a probe below
    the current `right` is `f` at the probe, and keeps the invariant `I right` (with `right`
    moved onto a probe answering `false`). Then a search that returns an index returns the
    one that splits `[0, len)`: `f` holds before it, and not at it. -/
theorem partitionPoint_spec
    (hstep : ∀ r st mid b, I r st → mid < r → (pred st mid).1 = .ok b →
      b = f mid ∧ (b = true → I r (pred st mid).2) ∧ (b = false → I mid (pred st mid).2))
    (len : Nat) (hf : ∀ i j, i ≤ j → j < len → f j = true → f i = true) (st : σ) (hI : I len st)
    (index : Nat) (h : (partitionPoint pred len st).1 = .ok index) :
    index ≤ len ∧ (∀ i, i < index → f i = true) ∧ (index < len → f index = false) := by
  -- the trapped search, with the trapped error as the `Bad` part of its state
  have hbad : ∀ st mid, (st : σ × Option ε).2.isSome → ((trapped pred st mid).2.2).isSome := by
    intro st mid hst
    obtain ⟨st, trap⟩ := st
    cases trap with
    | none => cases hst
    | some e => rfl
  have hstep' : ∀ r (st : σ × Option ε) mid, I r st.1 → mid < r →
      ¬ ((trapped pred st mid).2.2).isSome →
      (trapped pred st mid).1 = f mid ∧ ((trapped pred st mid).1 = true → I r (trapped pred st mid).2.1) ∧
        ((trapped pred st mid).1 = false → I mid (trapped pred st mid).2.1) := by
    intro r st mid hI hmid hgood
    obtain ⟨st, trap⟩ := st
    cases trap with
    | some e => exact absurd rfl hgood
    | none =>
      simp only [trapped] at hgood ⊢
      split
      · rename_i b st' hp
        obtain ⟨hb, htrue, hfalse⟩ := hstep r st mid b hI hmid (by rw [hp])
        rw [hp] at htrue hfalse
        exact ⟨hb, htrue, hfalse⟩
      · rename_i e st' hp
        rw [hp] at hgood
        exact absurd rfl hgood
  unfold partitionPoint at h
  split at h
  · rename_i index' st' heq
    cases h
    have hspec := partitionPointFrom_spec (trapped pred) (fun st => st.2.isSome) f
      (fun r st => I r st.1) hbad hstep' 0 len hf (st, none) hI (Nat.zero_le _)
      (by rw [heq]; exact Bool.false_ne_true)
    rw [heq] at hspec
    obtain ⟨-, h₂, h₃, h₄⟩ := hspec
    exact ⟨h₂, fun i hi => h₃ i (Nat.zero_le i) hi, h₄⟩
  · cases h

end Fallible

end Bisection
