import Mathlib

/-!
# Reachable states of a machine whose steps may fail

A machine here is a function `step : σ → α → Except ε σ`: from a state and a
request, either the next state or an error. An error leaves the state as it was
(the request is dropped), so the states a run can be in are those reached from
an initial state by requests that succeed. That is `Reachable`, and
`Reachable.invariant` is the rule every safety proof over such a machine uses:
an invariant that holds initially and is kept by each successful step holds in
every reachable state.

`runAll` performs a list of requests in order, stopping at the first failure; a
concrete scenario is a `runAll` that succeeds, and `Reachable.runAll` says where
it ends is reachable. `runChecks` evaluates a scenario and a check of where it
ends, and `Reachable.of_runChecks` turns a passing check into a reachable state.

`countSteps` counts the steps of a run at which a relation holds between the state
before and the state after. `countSteps_le_one` is the rule for "at most once":
a run enters a set its steps never leave at most once.
-/

set_option autoImplicit false

namespace Reach

variable {σ α ε : Type*}

/-- The states reachable from one satisfying `init` by steps that succeed. -/
inductive Reachable (init : σ → Prop) (step : σ → α → Except ε σ) : σ → Prop
  | init {s : σ} : init s → Reachable init step s
  | step {s s' : σ} (a : α) : Reachable init step s → step s a = .ok s' →
      Reachable init step s'

/-! ### Steps that succeed -/

/-- A sequenced step succeeds exactly when its first part does and the rest does
    from there. -/
theorem bind_eq_ok {β γ : Type} {x : Except ε β} {f : β → Except ε γ} {b : γ} :
    x >>= f = .ok b ↔ ∃ a, x = .ok a ∧ f a = .ok b := by
  cases x <;> simp [bind, Except.bind]

/-- A step that returns a value succeeds with it. -/
theorem pure_eq_ok {β : Type} {a b : β} : (pure a : Except ε β) = .ok b ↔ a = b := by
  simp [pure, Except.pure]

/-- A step that throws does not succeed, whatever was to follow it. -/
theorem throw_bind_ne_ok {β γ : Type} {e : ε} {f : β → Except ε γ} {b : γ} :
    (throw e >>= f) ≠ .ok b := by
  simp [throw, throwThe, MonadExceptOf.throw, bind, Except.bind]

/-- A guard that fails with `e` lets the step succeed only when it does not hold. -/
theorem ite_error_eq_ok {β : Type} {c : Prop} [Decidable c] {e : ε} {x : Except ε β} {b : β} :
    (if c then .error e else x) = .ok b ↔ ¬ c ∧ x = .ok b := by
  by_cases hc : c <;> simp [hc]

/-- The same guard written with `throw`. -/
theorem ite_throw_eq_ok {β : Type} {c : Prop} [Decidable c] {e : ε} {x : Except ε β} {b : β} :
    (if c then throw e else x) = .ok b ↔ ¬ c ∧ x = .ok b :=
  ite_error_eq_ok

/-- A guard `if c then throw e` before the rest of a `do` block lets it succeed only
    when `c` does not hold and the rest succeeds. -/
theorem ite_throw_bind_eq_ok {β γ : Type} {c : Prop} [Decidable c] {e : ε}
    {f : β → Except ε γ} {x : Except ε γ} {b : γ} :
    (if c then throw e >>= f else x) = .ok b ↔ ¬ c ∧ x = .ok b := by
  by_cases hc : c
  · simp only [hc, if_true, not_true_eq_false, false_and, iff_false]
    exact throw_bind_ne_ok
  · simp [hc]

/-- Renaming the error changes no success. -/
theorem mapError_eq_ok {ε' β : Type} {x : Except ε β} {f : ε → ε'} {b : β} :
    x.mapError f = .ok b ↔ x = .ok b := by
  cases x <;> simp [Except.mapError]

/-- A mapped step succeeds when the step does. -/
theorem map_eq_ok {β γ : Type} {x : Except ε β} {f : β → γ} {c : γ} :
    x.map f = .ok c ↔ ∃ b, x = .ok b ∧ f b = c := by
  cases x <;> simp [Except.map]

/-- `Option::ok_or(e)` followed by `?`: the value, or the error `e` when there is none. -/
def okOr {β : Type} (o : Option β) (e : ε) : Except ε β :=
  match o with
  | some b => .ok b
  | none => .error e

@[simp] theorem okOr_eq_ok {β : Type} {o : Option β} {e : ε} {b : β} :
    okOr o e = .ok b ↔ o = some b := by
  cases o <;> simp [okOr]

/-- `okOr` followed by more: it succeeds only from a value that is there. -/
theorem okOr_bind_eq_ok {β γ : Type} {o : Option β} {e : ε} {f : β → Except ε γ} {c : γ} :
    okOr o e >>= f = .ok c ↔ ∃ b, o = some b ∧ f b = .ok c := by
  rw [bind_eq_ok]
  simp

/-- A pure fold whose every step keeps `I` keeps it. -/
theorem foldl_invariant {τ β : Type*} {f : τ → β → τ} {I : τ → Prop}
    (hf : ∀ t b, I t → I (f t b)) : ∀ (l : List β) {t : τ}, I t → I (l.foldl f t)
  | [], _, ht => ht
  | b :: l, t, ht => foldl_invariant hf l (hf t b ht)

/-- **The loop rule.** A fold whose every successful step keeps `I` keeps it. -/
theorem foldlM_invariant {τ β : Type} {f : τ → β → Except ε τ} {I : τ → Prop}
    (hf : ∀ s b s', I s → f s b = .ok s' → I s') :
    ∀ {l : List β} {s s' : τ}, I s → l.foldlM f s = .ok s' → I s'
  | [], s, s', hs, h => by
    rw [List.foldlM_nil, pure_eq_ok] at h
    exact h ▸ hs
  | b :: l, s, s', hs, h => by
    rw [List.foldlM_cons] at h
    obtain ⟨s₁, h₁, h⟩ := bind_eq_ok.1 h
    exact foldlM_invariant hf (hf s b s₁ hs h₁) h

/-- A fold that succeeds ran each of its turns to success, from some state. -/
theorem foldlM_ok_mem {τ β : Type} {f : τ → β → Except ε τ} :
    ∀ {l : List β} {s s' : τ}, l.foldlM f s = .ok s' → ∀ b ∈ l, ∃ t t', f t b = .ok t'
  | [], _, _, _, _, hb => absurd hb List.not_mem_nil
  | b :: l, s, _, h, b', hb' => by
    rw [List.foldlM_cons] at h
    obtain ⟨s₁, h₁, h⟩ := bind_eq_ok.1 h
    rcases List.mem_cons.1 hb' with rfl | hmem
    · exact ⟨s, s₁, h₁⟩
    · exact foldlM_ok_mem h b' hmem

/-- A map that succeeds keeps what each result remembers of its input. -/
theorem mapM_ok_map {β γ : Type} {f : β → Except ε γ} {g : γ → β}
    (hf : ∀ b c, f b = .ok c → g c = b) :
    ∀ {l : List β} {l' : List γ}, l.mapM f = .ok l' → l'.map g = l
  | [], l', h => by
    rw [List.mapM_nil, pure_eq_ok] at h
    subst h
    rfl
  | b :: l, l', h => by
    rw [List.mapM_cons] at h
    obtain ⟨c, hc, h⟩ := bind_eq_ok.1 h
    obtain ⟨cs, hcs, h⟩ := bind_eq_ok.1 h
    rw [pure_eq_ok] at h
    subst h
    rw [List.map_cons, hf b c hc, mapM_ok_map hf hcs]

/-! ### Reachability -/

variable {init : σ → Prop} {step : σ → α → Except ε σ}

/-- **The invariant rule.** What holds initially and is kept by every successful
    step holds of every reachable state. -/
theorem Reachable.invariant {Inv : σ → Prop} (h₀ : ∀ s, init s → Inv s)
    (hstep : ∀ s a s', Inv s → step s a = .ok s' → Inv s') {s : σ}
    (h : Reachable init step s) : Inv s := by
  induction h with
  | init hs => exact h₀ _ hs
  | step a _ hst ih => exact hstep _ a _ ih hst

/-! ### A ghost run beside the machine

A property about a whole history (what was paid so far, what was credited) is stated
over a ghost: a value the machine does not hold, updated at each successful step from
the states before and after it. `withGhost` runs the two together; a ghost run projects
to a run of the machine (`Reachable.of_withGhost`) and every run of the machine carries a
ghost run (`Reachable.withGhost`), so an invariant of the pair speaks of every run. -/

section Ghost

variable {γ : Type*} (next : γ → σ → α → σ → γ)

/-- One step of the machine, with the ghost updated from it. -/
def withGhost (step : σ → α → Except ε σ) (sg : σ × γ) (a : α) : Except ε (σ × γ) :=
  (step sg.1 a).map fun s' => (s', next sg.2 sg.1 a s')

/-- A ghost run starts where the machine may, with the ghost at `g₀`. -/
def ghostInit (init : σ → Prop) (g₀ : γ) (sg : σ × γ) : Prop := init sg.1 ∧ sg.2 = g₀

variable {next}

theorem withGhost_eq_ok {sg sg' : σ × γ} {a : α} :
    withGhost next step sg a = .ok sg' ↔
      ∃ s', step sg.1 a = .ok s' ∧ sg' = (s', next sg.2 sg.1 a s') := by
  unfold withGhost
  cases step sg.1 a with
  | error e => simp [Except.map]
  | ok s' => simp [Except.map, eq_comm]

variable {g₀ : γ}

theorem Reachable.of_withGhost {sg : σ × γ}
    (h : Reachable (ghostInit init g₀) (withGhost next step) sg) :
    Reachable init step sg.1 := by
  induction h with
  | init hs => exact .init hs.1
  | step a _ hst ih =>
    obtain ⟨s', hs', rfl⟩ := withGhost_eq_ok.1 hst
    exact .step a ih hs'

theorem Reachable.withGhost {s : σ} (h : Reachable init step s) :
    ∃ g, Reachable (ghostInit init g₀) (withGhost next step) (s, g) := by
  induction h with
  | init hs => exact ⟨g₀, .init ⟨hs, rfl⟩⟩
  | @step s s' a _ hst ih =>
    obtain ⟨g, hg⟩ := ih
    exact ⟨next g s a s', .step a hg (withGhost_eq_ok.2 ⟨s', hst, rfl⟩)⟩

end Ghost

/-! ### One machine simulated by another

A machine simulates into another under a projection when each of its successful steps
moves the projection by successful steps of the other, any number of them. The projection
of a reachable state is then reachable (`Reachable.simulate`): what is proved of every
reachable state of the second machine holds of the projections of the first. -/

section Simulation

variable {τ β ε' : Type*} {step' : τ → β → Except ε' τ}

/-- Successful steps of `step'`, any number of them. -/
def Moves (step' : τ → β → Except ε' τ) : τ → τ → Prop :=
  Relation.ReflTransGen fun t t' => ∃ b, step' t b = .ok t'

theorem Moves.refl (t : τ) : Moves step' t t := Relation.ReflTransGen.refl

theorem Moves.single {t t' : τ} {b : β} (h : step' t b = .ok t') : Moves step' t t' :=
  Relation.ReflTransGen.single ⟨b, h⟩

theorem Moves.trans {t₁ t₂ t₃ : τ} (h₁ : Moves step' t₁ t₂) (h₂ : Moves step' t₂ t₃) :
    Moves step' t₁ t₃ :=
  Relation.ReflTransGen.trans h₁ h₂

theorem Reachable.moves {init' : τ → Prop} {t t' : τ} (h : Reachable init' step' t)
    (hm : Moves step' t t') : Reachable init' step' t' := by
  induction hm with
  | refl => exact h
  | tail _ hst ih =>
    obtain ⟨b, hb⟩ := hst
    exact .step b ih hb

/-- **Simulation.** The projection of a reachable state is reachable. -/
theorem Reachable.simulate {init' : τ → Prop} (π : σ → τ) (h₀ : ∀ s, init s → init' (π s))
    (hstep : ∀ s a s', step s a = .ok s' → Moves step' (π s) (π s')) {s : σ}
    (h : Reachable init step s) : Reachable init' step' (π s) := by
  induction h with
  | init hs => exact .init (h₀ _ hs)
  | step a _ hst ih => exact ih.moves (hstep _ a _ hst)

end Simulation

/-- Requests performed in order; the first failure ends the run with its error. -/
def runAll (step : σ → α → Except ε σ) : σ → List α → Except ε σ
  | s, [] => .ok s
  | s, a :: as =>
    match step s a with
    | .ok s' => runAll step s' as
    | .error e => .error e

@[simp] theorem runAll_nil (s : σ) : runAll step s [] = .ok s := rfl

theorem runAll_cons (s : σ) (a : α) (as : List α) :
    runAll step s (a :: as) =
      match step s a with
      | .ok s' => runAll step s' as
      | .error e => .error e := rfl

/-- A run that succeeds from a reachable state ends in a reachable state. -/
theorem Reachable.runAll {s s' : σ} (h : Reachable init step s) :
    ∀ {as : List α}, runAll step s as = .ok s' → Reachable init step s' := by
  intro as
  induction as generalizing s with
  | nil =>
    intro hr
    cases hr
    exact h
  | cons a as ih =>
    intro hr
    rw [runAll_cons] at hr
    cases hs : step s a with
    | ok s₁ =>
      rw [hs] at hr
      exact ih (.step a h hs) hr
    | error e => rw [hs] at hr; exact absurd hr (by simp)

/-- Whether a run succeeds and the state it ends in passes the check `p`. -/
def runChecks (step : σ → α → Except ε σ) (s : σ) (as : List α) (p : σ → Bool) : Bool :=
  match runAll step s as with
  | .ok s' => p s'
  | .error _ => false

/-- A run that passes its check succeeds, and ends in a state passing it. -/
theorem runAll_of_runChecks {s : σ} {as : List α} {p : σ → Bool}
    (h : runChecks step s as p = true) : ∃ s', runAll step s as = .ok s' ∧ p s' = true := by
  unfold runChecks at h
  cases hr : Reach.runAll step s as with
  | ok s' =>
    rw [hr] at h
    exact ⟨s', rfl, h⟩
  | error e => rw [hr] at h; exact absurd h (by simp)

/-- A run from an initial state that passes its check exhibits a reachable state
    passing it; the check is what a scenario evaluates. -/
theorem Reachable.of_runChecks {s : σ} {as : List α} {p : σ → Bool} (h₀ : init s)
    (h : runChecks step s as p = true) : ∃ s', Reachable init step s' ∧ p s' = true := by
  obtain ⟨s', hr, hp⟩ := runAll_of_runChecks h
  exact ⟨s', (Reachable.init h₀).runAll hr, hp⟩

/-- The sum of `f` over the steps of the run of `as` from `s`, each at the state it
    starts from; a failed step ends the run. -/
def sumSteps (step : σ → α → Except ε σ) (f : σ → α → Nat) : σ → List α → Nat
  | _, [] => 0
  | s, a :: as =>
    match step s a with
    | .ok s' => f s a + sumSteps step f s' as
    | .error _ => 0

/-- **A quantity every step moves by a known amount.** If each allowed step from a
    state satisfying `I` keeps `I` and raises `g` by `f`, a run of allowed steps
    that succeeds raises `g` by the sum of `f` over it. -/
theorem runAll_sum {I : σ → Prop} {p : α → Prop} {g : σ → Nat} {f : σ → α → Nat}
    (hstep : ∀ s a s', I s → p a → step s a = .ok s' → I s' ∧ g s' = g s + f s a) :
    ∀ {s s' : σ} {as : List α}, I s → (∀ a ∈ as, p a) → runAll step s as = .ok s' →
      g s' = g s + sumSteps step f s as := by
  intro s s' as hs hp hr
  induction as generalizing s with
  | nil =>
    cases hr
    rfl
  | cons a as ih =>
    rw [runAll_cons] at hr
    cases hst : step s a with
    | error e =>
      rw [hst] at hr
      cases hr
    | ok s₁ =>
      rw [hst] at hr
      obtain ⟨hs₁, hg⟩ := hstep s a s₁ hs (hp a (by simp)) hst
      have ih' := ih hs₁ (fun b hb => hp b (by simp [hb])) hr
      simp only [sumSteps, hst]
      omega

/-- The number of steps of the run of `as` from `s` at which `p` holds of the state
    before and the state after; a failed step ends the run. -/
def countSteps (step : σ → α → Except ε σ) (p : σ → σ → Prop) [DecidableRel p] :
    σ → List α → Nat
  | _, [] => 0
  | s, a :: as =>
    match step s a with
    | .ok s' => (if p s s' then 1 else 0) + countSteps step p s' as
    | .error _ => 0

/-- No successful step leaves `q`. -/
def Stable (step : σ → α → Except ε σ) (q : σ → Prop) : Prop :=
  ∀ s a s', q s → step s a = .ok s' → q s'

section Count

variable {p : σ → σ → Prop} [DecidableRel p] {q : σ → Prop}

/-- From inside a stable set, no step enters it. -/
theorem countSteps_eq_zero (hq : Stable step q) (hp : ∀ s s', p s s' → ¬ q s) :
    ∀ {s : σ} (as : List α), q s → countSteps step p s as = 0 := by
  intro s as hs
  induction as generalizing s with
  | nil => rfl
  | cons a as ih =>
    unfold countSteps
    cases hst : step s a with
    | error e => rfl
    | ok s' =>
      have hp' : ¬ p s s' := fun h => hp s s' h hs
      simp only [hp', if_false, ih (hq s a s' hs hst)]

/-- **At most once.** A run enters a set its steps never leave at most once. -/
theorem countSteps_le_one (hq : Stable step q) (hp : ∀ s s', p s s' → ¬ q s ∧ q s') :
    ∀ (s : σ) (as : List α), countSteps step p s as ≤ 1 := by
  intro s as
  induction as generalizing s with
  | nil => exact Nat.zero_le _
  | cons a as ih =>
    unfold countSteps
    cases hst : step s a with
    | error e => exact Nat.zero_le _
    | ok s' =>
      by_cases hpss : p s s'
      · -- the step enters `q`, and from there the run never enters it again
        have h0 := countSteps_eq_zero hq (fun s s' h => (hp s s' h).1) as (hp s s' hpss).2
        simp only [hpss, if_true, h0]
        exact Nat.le_refl 1
      · simpa only [hpss, if_false, Nat.zero_add] using ih s'

end Count

end Reach
