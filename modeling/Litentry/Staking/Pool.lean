import Litentry.Staking.Calls

/-!
# `CandidatePool` as a copy of the metadata: the candidate methods

`CandidatePool` is what collator selection reads: the bonds `⟨c, total_counted⟩` of
the active candidates, sorted by owner. Nothing derives it from `CandidateInfo`;
the pallet edits it by hand, with `update_active` (from `reset_top_data` and from
three extrinsics) and with `insert` and `remove` at each change of status.
`PoolMatches f pool` says that `pool` is the copy of a table `f` of entries, and
`poolAmount` is the entry a candidate's metadata calls for.

A method of `CandidateMetadata` runs on the metadata `m` of one candidate `c`, held
outside storage, and its caller writes the result back. `Follows c s m s' m'` is
what such a run has to do for the copy to survive the write: leave every stored
metadata alone, and move the pool's entry of `c` from the one `m` calls for to the
one `m'` calls for, with no other entry touched. Every method does; the extrinsics
are taken up in `Staking.PoolCalls`.
-/

set_option autoImplicit false

namespace Litentry
namespace Staking

variable {A C : Type} [LinearOrder A]

/-! ## 1. The copy -/

namespace CandidateMetadata

/-- The pool entry metadata `m` calls for. -/
def poolAmount (m : CandidateMetadata) : Option Nat :=
  if m.isActive then some m.totalCounted else none

theorem poolAmount_eq_of {m m' : CandidateMetadata} (ha : m'.isActive = m.isActive)
    (ht : m'.isActive = true → m'.totalCounted = m.totalCounted) :
    m'.poolAmount = m.poolAmount := by
  unfold poolAmount
  rw [ha]
  split_ifs with h
  · rw [ht (ha.trans h)]
  · rfl

theorem poolAmount_of_isActive {m : CandidateMetadata} (h : m.isActive = true) :
    m.poolAmount = some m.totalCounted := by
  simp [poolAmount, h]

end CandidateMetadata

open CandidateMetadata

/-- The entry the stored metadata of each candidate calls for. -/
def State.poolAmounts (s : State A C) (c : A) : Option Nat :=
  (s.candidateInfo c).bind poolAmount

/-- `pool` is strictly sorted by owner and holds `⟨c, n⟩` exactly when `f c = some n`. -/
structure PoolMatches (f : A → Option Nat) (pool : List (Bond A)) : Prop where
  sorted : SortedVec.StrictKey Bond.owner pool
  mem_iff : ∀ b, b ∈ pool ↔ f b.owner = some b.amount

namespace PoolMatches

variable {f : A → Option Nat} {pool : List (Bond A)}

/-- `update_active`: the entry of `c` becomes `t`. -/
theorem updateActive {s : State A C} (h : PoolMatches f s.candidatePool) (c : A) (t : Nat) :
    PoolMatches (Function.update f c (some t)) (s.updateActive c t).candidatePool := by
  obtain ⟨hs, hmem⟩ := h.sorted.insertKey_removeKey (⟨c, t⟩ : Bond A)
  refine ⟨hs, fun b => (hmem b).trans ?_⟩
  obtain ⟨o, n⟩ := b
  by_cases ho : o = c
  · subst ho
    simp [eq_comm]
  · simp [ho, h.mem_iff]

/-- `remove`: `c` has no entry. -/
theorem removeKey (h : PoolMatches f pool) (c : A) :
    PoolMatches (Function.update f c none) (SortedVec.removeKey Bond.owner c pool).2 := by
  refine ⟨h.sorted.removeKey c, fun b => ?_⟩
  rw [h.sorted.mem_removeKey, h.mem_iff]
  by_cases hb : b.owner = c
  · simp [hb]
  · simp [hb]

/-- An `insert` that succeeds: `c` had no entry, and has `t`. -/
theorem insertKey (h : PoolMatches f pool) {c : A} {t : Nat}
    (hi : (SortedVec.insertKey Bond.owner ⟨c, t⟩ pool).1 = true) :
    PoolMatches (Function.update f c (some t)) (SortedVec.insertKey Bond.owner ⟨c, t⟩ pool).2 := by
  obtain ⟨hnot, hs, hmem⟩ := h.sorted.insertKey_fst_eq_true hi
  refine ⟨hs, fun b => (hmem b).trans ?_⟩
  obtain ⟨o, n⟩ := b
  by_cases ho : o = c
  · subst ho
    -- the insert found no bond of `o` in the pool
    have hno : (⟨o, n⟩ : Bond A) ∉ pool := fun hb => hnot _ hb rfl
    simp [hno, eq_comm]
  · simp [ho, h.mem_iff]

end PoolMatches

/-- The pool is the copy of the stored metadata. -/
def PoolInv (s : State A C) : Prop := PoolMatches s.poolAmounts s.candidatePool

/-! ## 2. Runs of a method -/

/-- A run of a method on candidate `c`, from `s` with metadata `m` to `s'` with `m'`,
    that the pool survives: the stored metadata stay, and a pool holding `m`'s entry
    for `c` comes to hold `m'`'s, every other entry unchanged. -/
structure Follows (c : A) (s : State A C) (m : CandidateMetadata) (s' : State A C)
    (m' : CandidateMetadata) : Prop where
  candidateInfo : s'.candidateInfo = s.candidateInfo
  pool : ∀ f, PoolMatches (Function.update f c m.poolAmount) s.candidatePool →
    PoolMatches (Function.update f c m'.poolAmount) s'.candidatePool

namespace Follows

variable {c : A} {s s₁ s₂ : State A C} {m m₁ m₂ : CandidateMetadata}

theorem refl : Follows c s m s m := ⟨rfl, fun _ h => h⟩

theorem trans (h₁ : Follows c s m s₁ m₁) (h₂ : Follows c s₁ m₁ s₂ m₂) : Follows c s m s₂ m₂ :=
  ⟨h₂.candidateInfo.trans h₁.candidateInfo, fun f h => h₂.pool f (h₁.pool f h)⟩

/-- A step that writes neither the pool nor the stored metadata, and keeps the entry
    the metadata calls for. -/
theorem of_eq (hi : s₁.candidateInfo = s.candidateInfo)
    (hp : s₁.candidatePool = s.candidatePool) (hm : m₁.poolAmount = m.poolAmount) :
    Follows c s m s₁ m₁ :=
  ⟨hi, fun f h => by rw [hp, hm]; exact h⟩

/-- `update_active` of `c` with the entry the new metadata calls for, after writes
    the pool does not read. -/
theorem updateActive (hi : s₁.candidateInfo = s.candidateInfo)
    (hp : s₁.candidatePool = s.candidatePool) {t : Nat} (ht : m₁.poolAmount = some t) :
    Follows c s m (s₁.updateActive c t) m₁ :=
  ⟨hi, fun f hf => by
    rw [← hp] at hf
    have := hf.updateActive c t
    rwa [Function.update_idem, ← ht] at this⟩

end Follows

/-! ## 3. Every method is such a run -/

section Methods

variable (cfg : Config) (cur : Currency A C) {s s' : State A C} {m m' : CandidateMetadata}
  {c : A}

theorem resetTopData_follows (s : State A C) (m : CandidateMetadata) (c : A)
    (top : Delegations A) :
    Follows c s m (resetTopData cfg s m c top).2 (resetTopData cfg s m c top).1 := by
  unfold resetTopData
  dsimp only
  split_ifs with h
  · exact Follows.updateActive rfl rfl (poolAmount_of_isActive h.2)
  · -- no refresh: the total is unchanged, or the candidate is not active
    refine Follows.of_eq rfl rfl (poolAmount_eq_of rfl fun ha => ?_)
    by_contra hne
    exact h ⟨Ne.symm hne, ha⟩

/-- A run that goes on through `reset_top_data`, and then writes only what the pool
    does not read. -/
theorem Follows.resetTopData {s₁ s₂ : State A C} {m₁ m₂ : CandidateMetadata}
    (h : Follows c s m s₁ m₁) (top : Delegations A)
    (hi : s₂.candidateInfo = (resetTopData cfg s₁ m₁ c top).2.candidateInfo)
    (hp : s₂.candidatePool = (resetTopData cfg s₁ m₁ c top).2.candidatePool)
    (hm : m₂.poolAmount = (resetTopData cfg s₁ m₁ c top).1.poolAmount) : Follows c s m s₂ m₂ :=
  (h.trans (resetTopData_follows cfg s₁ m₁ c top)).trans (Follows.of_eq hi hp hm)

/-- Writing `BottomDelegations` and `reset_bottom_data` touch nothing the pool reads. -/
theorem Follows.writeBottom (b : A → Option (Delegations A)) (bottom : Delegations A) :
    Follows c s m { s with bottomDelegations := b } (resetBottomData cfg m bottom) :=
  Follows.of_eq rfl rfl rfl

variable {cfg cur}

theorem kickBottom_frame {k : Bond A} (h : kickBottom cur s c k = .ok s') :
    s'.candidatePool = s.candidatePool ∧ s'.candidateInfo = s.candidateInfo := by
  unfold kickBottom at h
  simp only [throw, throwThe, MonadExceptOf.throw, pure, Except.pure] at h
  split at h
  · split_ifs at h <;> (cases h; simp)
  · cases h

theorem addBottomDelegation_follows {bumped : Bool} {d : Bond A}
    (h : addBottomDelegation cfg cur s m bumped c d = .ok (m', s')) : Follows c s m s' m' := by
  unfold addBottomDelegation at h
  dsimp only at h
  split at h
  · split at h
    · -- full: the lowest bottom bond is kicked first
      split at h
      · obtain ⟨s₂, h₂, h⟩ := Reach.bind_eq_ok.1 h
        rw [pure_bind, Reach.pure_eq_ok] at h
        obtain ⟨rfl, rfl⟩ := Prod.mk.inj h
        exact Follows.of_eq (kickBottom_frame h₂).2 (kickBottom_frame h₂).1 rfl
      · exact absurd h Reach.throw_bind_ne_ok
    · rw [pure_bind, Reach.pure_eq_ok] at h
      obtain ⟨rfl, rfl⟩ := Prod.mk.inj h
      exact Follows.of_eq rfl rfl (by split <;> rfl)
  · cases h

theorem addTopDelegation_follows {d : Bond A} {less : Option Nat}
    (h : addTopDelegation cfg cur s m c d = .ok (less, m', s')) : Follows c s m s' m' := by
  unfold addTopDelegation at h
  dsimp only at h
  split at h
  · split at h
    · split at h
      · obtain ⟨⟨m₁, s₁⟩, h₁, h⟩ := Reach.bind_eq_ok.1 h
        rw [pure_bind, Reach.pure_eq_ok] at h
        simp only [Prod.mk.injEq] at h
        obtain ⟨-, rfl, rfl⟩ := h
        exact (addBottomDelegation_follows h₁).resetTopData cfg _ rfl rfl (by split <;> rfl)
      · exact absurd h Reach.throw_bind_ne_ok
    · rw [pure_bind, Reach.pure_eq_ok] at h
      simp only [Prod.mk.injEq] at h
      obtain ⟨-, rfl, rfl⟩ := h
      exact Follows.refl.resetTopData cfg _ rfl rfl (by split <;> rfl)
  · cases h

theorem addDelegation_follows {d : Bond A} {r : DelegatorAdded × Option Nat}
    (h : addDelegation cfg cur s m c d = .ok (r, m', s')) : Follows c s m s' m' := by
  unfold addDelegation at h
  split at h
  · split at h
    · obtain ⟨⟨less, m₁, s₁⟩, h₁, h⟩ := Reach.bind_eq_ok.1 h
      rw [Reach.pure_eq_ok] at h
      simp only [Prod.mk.injEq] at h
      obtain ⟨-, rfl, rfl⟩ := h
      exact addTopDelegation_follows h₁
    · -- into the bottom, after the guard on a full bottom
      dsimp only at h
      split_ifs at h
      · rw [pure_bind] at h
        obtain ⟨⟨m₁, s₁⟩, h₁, h⟩ := Reach.bind_eq_ok.1 h
        rw [Reach.pure_eq_ok] at h
        simp only [Prod.mk.injEq] at h
        obtain ⟨-, rfl, rfl⟩ := h
        exact addBottomDelegation_follows h₁
      · exact absurd h Reach.throw_bind_ne_ok
      · rw [pure_bind] at h
        obtain ⟨⟨m₁, s₁⟩, h₁, h⟩ := Reach.bind_eq_ok.1 h
        rw [Reach.pure_eq_ok] at h
        simp only [Prod.mk.injEq] at h
        obtain ⟨-, rfl, rfl⟩ := h
        exact addBottomDelegation_follows h₁
  · obtain ⟨⟨less, m₁, s₁⟩, h₁, h⟩ := Reach.bind_eq_ok.1 h
    rw [Reach.pure_eq_ok] at h
    simp only [Prod.mk.injEq] at h
    obtain ⟨-, rfl, rfl⟩ := h
    exact addTopDelegation_follows h₁

theorem rmTopDelegation_follows {d : A} {same : Bool}
    (h : rmTopDelegation cfg s m c d = .ok (same, m', s')) : Follows c s m s' m' := by
  unfold rmTopDelegation at h
  dsimp only at h
  split at h
  · split at h
    · split at h
      · -- the highest bottom bond moves up
        split at h
        · split at h
          · rw [pure_bind, Reach.pure_eq_ok] at h
            simp only [Prod.mk.injEq] at h
            obtain ⟨-, rfl, rfl⟩ := h
            exact (Follows.writeBottom cfg _ _).resetTopData cfg _ rfl rfl rfl
          · exact absurd h Reach.throw_bind_ne_ok
        · exact absurd h Reach.throw_bind_ne_ok
      · rw [pure_bind, Reach.pure_eq_ok] at h
        simp only [Prod.mk.injEq] at h
        obtain ⟨-, rfl, rfl⟩ := h
        exact Follows.refl.resetTopData cfg _ rfl rfl rfl
    · cases h
  · cases h

theorem rmBottomDelegation_follows {d : A} {same : Bool}
    (h : rmBottomDelegation cfg s m c d = .ok (same, m', s')) : Follows c s m s' m' := by
  unfold rmBottomDelegation at h
  dsimp only at h
  split at h
  · split at h
    · rw [Reach.pure_eq_ok] at h
      simp only [Prod.mk.injEq] at h
      obtain ⟨-, rfl, rfl⟩ := h
      exact Follows.of_eq rfl rfl rfl
    · cases h
  · cases h

theorem rmDelegationIfExists_follows {d : A} {amount : Nat} {same : Bool}
    (h : rmDelegationIfExists cfg s m c d amount = .ok (same, m', s')) : Follows c s m s' m' := by
  unfold rmDelegationIfExists at h
  dsimp only at h
  split_ifs at h
  · exact rmTopDelegation_follows h
  · -- where the lowest top equals the highest bottom, a miss in the top falls back
    split at h
    · exact rmBottomDelegation_follows h
    · exact rmTopDelegation_follows h
  · exact rmBottomDelegation_follows h

theorem increaseTopDelegation_follows {d : A} {more : Nat} {inTop : Bool}
    (h : increaseTopDelegation cfg s m c d more = .ok (inTop, m', s')) : Follows c s m s' m' := by
  unfold increaseTopDelegation at h
  dsimp only at h
  split at h
  · split_ifs at h
    · rw [Reach.pure_eq_ok] at h
      simp only [Prod.mk.injEq] at h
      obtain ⟨-, rfl, rfl⟩ := h
      exact Follows.refl.resetTopData cfg _ rfl rfl rfl
    · cases h
  · cases h

theorem increaseBottomDelegation_follows {d : A} {bond more : Nat} {inTop : Bool}
    (h : increaseBottomDelegation cfg s m c d bond more = .ok (inTop, m', s')) :
    Follows c s m s' m' := by
  unfold increaseBottomDelegation at h
  dsimp only at h
  split at h
  · split_ifs at h
    · -- the bond moves up, a full top handing its lowest bond down
      split at h
      · split at h
        · split_ifs at h
          · split at h
            · simp only [pure_bind, Reach.pure_eq_ok, Prod.mk.injEq] at h
              obtain ⟨-, rfl, rfl⟩ := h
              exact Follows.refl.resetTopData cfg _ rfl rfl rfl
            · exact absurd h Reach.throw_bind_ne_ok
          · simp only [pure_bind, Reach.pure_eq_ok, Prod.mk.injEq] at h
            obtain ⟨-, rfl, rfl⟩ := h
            exact Follows.refl.resetTopData cfg _ rfl rfl rfl
        · exact absurd h Reach.throw_bind_ne_ok
      · exact absurd h Reach.throw_bind_ne_ok
    · -- the bond grows in place
      simp only [pure_bind, Reach.pure_eq_ok, Prod.mk.injEq] at h
      obtain ⟨-, rfl, rfl⟩ := h
      exact Follows.of_eq rfl rfl rfl
    · exact absurd h Reach.throw_bind_ne_ok
  · cases h

theorem increaseDelegation_follows {d : A} {bond more : Nat} {inTop : Bool}
    (h : CandidateMetadata.increaseDelegation cfg s m c d bond more = .ok (inTop, m', s')) :
    Follows c s m s' m' := by
  unfold CandidateMetadata.increaseDelegation at h
  dsimp only at h
  split_ifs at h
  · exact increaseTopDelegation_follows h
  · split at h
    · exact increaseBottomDelegation_follows h
    · exact increaseTopDelegation_follows h
  · exact increaseBottomDelegation_follows h

theorem decreaseTopDelegation_follows {d : A} {bond less : Nat} {inTop : Bool}
    (h : decreaseTopDelegation cfg s m c d bond less = .ok (inTop, m', s')) :
    Follows c s m s' m' := by
  unfold decreaseTopDelegation at h
  dsimp only at h
  split at h
  · split_ifs at h
    · -- the bond swaps places with the highest bottom one
      split at h
      · split at h
        · split at h
          · simp only [pure_bind, Reach.pure_eq_ok, Prod.mk.injEq] at h
            obtain ⟨-, rfl, rfl⟩ := h
            exact (Follows.writeBottom cfg _ _).resetTopData cfg _ rfl rfl rfl
          · exact absurd h Reach.throw_bind_ne_ok
        · exact absurd h Reach.throw_bind_ne_ok
      · exact absurd h Reach.throw_bind_ne_ok
    · -- the bond shrinks in place
      simp only [pure_bind, Reach.pure_eq_ok, Prod.mk.injEq] at h
      obtain ⟨-, rfl, rfl⟩ := h
      exact Follows.refl.resetTopData cfg _ rfl rfl rfl
    · exact absurd h Reach.throw_bind_ne_ok
  · cases h

theorem decreaseBottomDelegation_follows {d : A} {less : Nat} {inTop : Bool}
    (h : decreaseBottomDelegation cfg s m c d less = .ok (inTop, m', s')) :
    Follows c s m s' m' := by
  unfold decreaseBottomDelegation at h
  dsimp only at h
  split at h
  · split_ifs at h
    · rw [Reach.pure_eq_ok] at h
      simp only [Prod.mk.injEq] at h
      obtain ⟨-, rfl, rfl⟩ := h
      exact Follows.of_eq rfl rfl rfl
    · cases h
  · cases h

theorem decreaseDelegation_follows {d : A} {bond less : Nat} {inTop : Bool}
    (h : decreaseDelegation cfg s m c d bond less = .ok (inTop, m', s')) :
    Follows c s m s' m' := by
  unfold decreaseDelegation at h
  dsimp only at h
  split_ifs at h
  · exact decreaseTopDelegation_follows h
  · split at h
    · exact decreaseBottomDelegation_follows h
    · exact decreaseTopDelegation_follows h
  · exact decreaseBottomDelegation_follows h

theorem executeBondLess_follows
    (h : CandidateMetadata.executeBondLess cur s m c = .ok (m', s')) : Follows c s m s' m' := by
  unfold CandidateMetadata.executeBondLess at h
  dsimp only at h
  split at h
  · split at h
    · cases h
    · rw [Reach.pure_eq_ok] at h
      obtain ⟨rfl, rfl⟩ := Prod.mk.inj h
      split_ifs with ha
      · refine Follows.updateActive ?_ ?_ (poolAmount_of_isActive ha) <;> rfl
      · refine Follows.of_eq ?_ ?_ (poolAmount_eq_of rfl fun h => absurd h ha) <;> rfl
  · cases h

end Methods

end Staking
end Litentry
