import Mathlib

/-!
# Triples for programs that keep their writes when they fail

A program in `EStateM ε σ` ends `ok` with a value and a state, or `error` with an
error and a state; the state an error leaves is the one at the point of failure,
with every write made before it. `Triple P x Q E` says: from a state satisfying
`P`, the program `x` ends `ok a s'` with `Q a s'`, or `error e s'` with `E e s'`.

The rules are those of a Hoare logic with an exceptional postcondition, one for
each construct such programs are written with: `pure`, `throw`, `get` followed by
a continuation, `set`, `bind`, `if`, and `List.forM` by a loop invariant.
`Triple.final` reads off what a triple says about the state a program leaves
either way, which is what an invariant of a machine without rollback needs.
-/

set_option autoImplicit false

namespace Hoare

variable {ε σ α β : Type}

/-- The state a program leaves, whether it ended in a value or an error. -/
def final : EStateM.Result ε σ α → σ
  | .ok _ s => s
  | .error _ s => s

/-- From a state satisfying `P`, `x` ends in a value and a state satisfying `Q`, or
    in an error and a state satisfying `E`. -/
def Triple (P : σ → Prop) (x : EStateM ε σ α) (Q : α → σ → Prop) (E : ε → σ → Prop) : Prop :=
  ∀ s, P s → match x s with
    | .ok a s' => Q a s'
    | .error e s' => E e s'

namespace Triple

variable {P P' : σ → Prop} {Q Q' : α → σ → Prop} {E E' : ε → σ → Prop}

theorem pure (a : α) : Triple (Q a) (Pure.pure a : EStateM ε σ α) Q E := by
  intro s hs
  exact hs

theorem throw (e : ε) : Triple (E e) (MonadExcept.throw e : EStateM ε σ α) Q E := by
  intro s hs
  exact hs

/-- A `throw` ends the program, whatever was to follow. -/
theorem throw_bind {β : Type} (e : ε) (f : β → EStateM ε σ α) :
    Triple (E e) (MonadExcept.throw e >>= f) Q E := by
  intro s hs
  exact hs

theorem set (s' : σ) {Q : PUnit → σ → Prop} :
    Triple (fun _ => Q ⟨⟩ s') (MonadStateOf.set s' : EStateM ε σ PUnit) Q E := by
  intro s hs
  exact hs

theorem bind {R : β → σ → Prop} {x : EStateM ε σ β} {f : β → EStateM ε σ α}
    (hx : Triple P x R E) (hf : ∀ b, Triple (R b) (f b) Q E) : Triple P (x >>= f) Q E := by
  intro s hs
  have h := hx s hs
  show match EStateM.bind x f s with
    | .ok a s' => Q a s'
    | .error e s' => E e s'
  unfold EStateM.bind
  cases hxs : x s with
  | ok b s₁ =>
    rw [hxs] at h
    exact hf b s₁ h
  | error e s₁ =>
    rw [hxs] at h
    exact h

/-- Name the state the program starts from. -/
theorem ghost {x : EStateM ε σ α} (h : ∀ s₀, Triple (fun s => s = s₀ ∧ P s) x Q E) :
    Triple P x Q E := by
  intro s hs
  exact h s s ⟨rfl, hs⟩

/-- A `get` and what follows it: prove the rest for the state that was read. -/
theorem get_bind {f : σ → EStateM ε σ α}
    (h : ∀ s₀, Triple (fun s => s = s₀ ∧ P s) (f s₀) Q E) :
    Triple P (MonadState.get >>= f) Q E := by
  intro s hs
  exact h s s ⟨rfl, hs⟩

theorem ite {c : Prop} [Decidable c] {t e : EStateM ε σ α} (ht : c → Triple P t Q E)
    (he : ¬c → Triple P e Q E) : Triple P (if c then t else e) Q E := by
  by_cases hc : c
  · rw [if_pos hc]
    exact ht hc
  · rw [if_neg hc]
    exact he hc

theorem conseq {x : EStateM ε σ α} (h : Triple P x Q E) (hP : ∀ s, P' s → P s)
    (hQ : ∀ a s, Q a s → Q' a s) (hE : ∀ e s, E e s → E' e s) : Triple P' x Q' E' := by
  intro s hs
  have h' := h s (hP s hs)
  cases hxs : x s with
  | ok a s' =>
    rw [hxs] at h'
    exact hQ a s' h'
  | error e s' =>
    rw [hxs] at h'
    exact hE e s' h'

theorem pre {x : EStateM ε σ α} (h : Triple P x Q E) (hP : ∀ s, P' s → P s) :
    Triple P' x Q E :=
  h.conseq hP (fun _ _ h => h) (fun _ _ h => h)

/-- **The loop rule.** An invariant every turn keeps, whichever way the turn ends, holds
    wherever the loop ends. -/
theorem forM {I : σ → Prop} {l : List β} {f : β → EStateM ε σ PUnit}
    (h : ∀ b ∈ l, Triple I (f b) (fun _ => I) (fun _ => I)) :
    Triple I (l.forM f) (fun _ => I) (fun _ => I) := by
  induction l with
  | nil =>
    intro s hs
    exact hs
  | cons b l ih =>
    show Triple I (f b >>= fun _ => l.forM f) _ _
    apply bind (h b (by simp))
    intro _
    exact ih fun b' hb' => h b' (by simp [hb'])

/-- What a triple whose outcomes agree says about the state the program leaves. -/
theorem final {x : EStateM ε σ α} {I : σ → Prop} (h : Triple P x (fun _ => I) (fun _ => I))
    {s : σ} (hs : P s) : I (Hoare.final (x.run s)) := by
  have h' := h s hs
  show I (Hoare.final (x s))
  cases hxs : x s with
  | ok a s' =>
    rw [hxs] at h'
    exact h'
  | error e s' =>
    rw [hxs] at h'
    exact h'

end Triple

end Hoare
