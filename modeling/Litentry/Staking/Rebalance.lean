import Litentry.Staking.MethodShape
import Litentry.Staking.Pool

/-!
# The candidate methods that move bonds between the two lists

`add_delegation`, `increase_delegation` and `decrease_delegation` of `CandidateMetadata`
keep a candidate's `TopDelegations` and `BottomDelegations` apart at one amount by moving
bonds across: a new bond above the lowest top one pushes that one down (and, under a full
bottom list, the lowest bottom bond out of the candidate); a bottom bond that grows past
the lowest top one swaps places with it; a top bond that shrinks below the highest bottom
one swaps places with that. Each of them, and `rm_delegation_if_exists`, first picks the
list to work on from the amounts the metadata caches, before it has looked at the lists.

Over `CandidateShape` and the `rm_*` lemmas of `Staking.MethodShape`, consumed unchanged,
this module adds the bounds on the lists' lengths and the cached lowest bottom amount
(`Fits`), and proves for the four dispatching methods that on lists with the shape

* they find the delegator's bond wherever the cached amounts send them, so that a bond in
  the lists is never missed (`rmDelegationIfExists_keeps_shape` and its siblings);
* they write back lists with the shape and within the bounds, holding the bonds they held
  with the one bond added, changed or taken out, and the lowest bottom bond kicked where
  `add_delegation` found the bottom list full.
-/

set_option autoImplicit false

namespace Litentry
namespace Staking

variable {A C : Type} [LinearOrder A]

open SortedVec CandidateMetadata

/-! ## 1. Moves of bonds that keep the shape of the lists -/

section Lists

variable {cfg : Config}

omit [LinearOrder A] in
theorem owners_nodup_of_perm_cons {l l' : List (Bond A)} {x : Bond A} (h : (owners l).Nodup)
    (hx : x.owner ∉ owners l) (hp : l'.Perm (x :: l)) : (owners l').Nodup :=
  owners_nodup_of_perm (l := x :: l) (List.nodup_cons.2 ⟨hx, h⟩) hp

omit [LinearOrder A] in
/-- A bond of a new delegator, no heavier than any top bond, inserted into what is left of
    the bottom list under a full top list. -/
theorem ListsShape.insertBottom {top bottom bottom₀ : List (Bond A)}
    (h : ListsShape cfg top bottom) (hsub : bottom₀.Sublist bottom)
    (hfull : cfg.maxTopDelegationsPerCandidate ≤ top.length) {x : Bond A}
    (hx : ∀ t ∈ top, x.amount ≤ t.amount) (hfresh : x.owner ∉ owners (top ++ bottom₀))
    (total : Nat) :
    ListsShape cfg top
      ((⟨bottom₀, total⟩ : Delegations A).insertSortedGreatestToLeast x).delegations := by
  obtain ⟨hdesc, hperm⟩ := insertSortedGreatestToLeast_spec
    (d := ⟨bottom₀, total⟩) (h.bottomDesc.sublist hsub) x
  refine ⟨h.topDesc, hdesc, ?_, fun _ => hfull, ?_⟩
  · intro t ht b hb
    rcases List.mem_cons.1 (hperm.mem_iff.1 hb) with rfl | hb
    · exact hx t ht
    · exact h.topAboveBottom t ht b (hsub.subset hb)
  · have hnd : (owners (top ++ bottom₀)).Nodup :=
      h.ownersNodup.sublist ((hsub.append_left top).map _)
    exact owners_nodup_of_perm_cons hnd hfresh ((hperm.append_left top).trans List.perm_middle)

omit [LinearOrder A] in
/-- A bond of a new delegator, at least as heavy as every bottom bond, inserted into the top
    list. -/
theorem ListsShape.insertTop {top bottom : List (Bond A)} (h : ListsShape cfg top bottom)
    {x : Bond A} (hx : ∀ b ∈ bottom, b.amount ≤ x.amount)
    (hfresh : x.owner ∉ owners (top ++ bottom)) (total : Nat) :
    ListsShape cfg ((⟨top, total⟩ : Delegations A).insertSortedGreatestToLeast x).delegations
      bottom := by
  obtain ⟨hdesc, hperm⟩ := insertSortedGreatestToLeast_spec (d := ⟨top, total⟩) h.topDesc x
  refine ⟨hdesc, h.bottomDesc, ?_, fun hne => ?_, ?_⟩
  · intro t ht b hb
    rcases List.mem_cons.1 (hperm.mem_iff.1 ht) with rfl | ht
    · exact hx b hb
    · exact h.topAboveBottom t ht b hb
  · rw [hperm.length_eq, List.length_cons]
    exact (h.topFull hne).trans (Nat.le_succ _)
  · exact owners_nodup_of_perm_cons h.ownersNodup hfresh (hperm.append_right bottom)

omit [LinearOrder A] in
/-- The lowest top bond `z` goes down to make room for a bond `x` at least as heavy: `x`
    into the full top list without `z`, `z` into what is left of the bottom list. -/
theorem ListsShape.bump {top bottom bottom₀ : List (Bond A)} (h : ListsShape cfg top bottom)
    (hsub : bottom₀.Sublist bottom) (hfull : cfg.maxTopDelegationsPerCandidate ≤ top.length)
    {z x : Bond A} (hz : top.getLast? = some z) (hzx : z.amount ≤ x.amount)
    (hfresh : x.owner ∉ owners (top ++ bottom₀)) (ttop tbottom : Nat) :
    ListsShape cfg ((⟨top.dropLast, ttop⟩ : Delegations A).insertSortedGreatestToLeast x).delegations
      ((⟨bottom₀, tbottom⟩ : Delegations A).insertSortedGreatestToLeast z).delegations := by
  have hdrop : top.dropLast.Sublist top := List.dropLast_sublist _
  obtain ⟨hdescT, hpermT⟩ := insertSortedGreatestToLeast_spec
    (d := ⟨top.dropLast, ttop⟩) (h.topDesc.sublist hdrop) x
  obtain ⟨hdescB, hpermB⟩ := insertSortedGreatestToLeast_spec
    (d := ⟨bottom₀, tbottom⟩) (h.bottomDesc.sublist hsub) z
  have hzmem : z ∈ top := List.mem_of_getLast? hz
  have htop : top.Perm (z :: top.dropLast) := perm_cons_dropLast hz
  refine ⟨hdescT, hdescB, ?_, fun _ => ?_, ?_⟩
  · intro t ht b hb
    have hb' : b = z ∨ b ∈ bottom₀ := List.mem_cons.1 (hpermB.mem_iff.1 hb)
    rcases List.mem_cons.1 (hpermT.mem_iff.1 ht) with rfl | ht
    · -- `x` is above `z`, and `z` above the bottom list
      rcases hb' with rfl | hb
      · exact hzx
      · exact (h.topAboveBottom z hzmem b (hsub.subset hb)).trans hzx
    · -- the top bonds left are above `z`, the lowest of them
      rcases hb' with rfl | hb
      · exact h.topDesc.getLast_le hz t (hdrop.subset ht)
      · exact h.topAboveBottom t (hdrop.subset ht) b (hsub.subset hb)
  · have h₁ := hpermT.length_eq
    have h₂ := htop.length_eq
    simp only [List.length_cons] at h₁ h₂
    omega
  · have hnd : (owners (top ++ bottom₀)).Nodup :=
      h.ownersNodup.sublist ((hsub.append_left top).map _)
    refine owners_nodup_of_perm_cons hnd hfresh ((hpermT.append hpermB).trans (.cons x ?_))
    exact List.perm_middle.trans (htop.symm.append_right bottom₀)

/-- `d`'s top bond `⟨d, a⟩` changed to `⟨d, a'⟩` and the list sorted again, `a'` at least
    every bottom bond. -/
theorem ListsShape.replaceTop {top bottom top' : List (Bond A)} (h : ListsShape cfg top bottom)
    {d : A} {a a' : Nat} (hm : ⟨d, a⟩ ∈ top) (hdesc : DescBonds top')
    (hp : top'.Perm (⟨d, a'⟩ :: top.filter (·.owner ≠ d))) (hb : ∀ b ∈ bottom, b.amount ≤ a') :
    ListsShape cfg top' bottom := by
  have htop : top.Perm (⟨d, a⟩ :: top.filter (·.owner ≠ d)) :=
    perm_cons_filter (h.ownersNodup.sublist (by simp)) hm
  refine ⟨hdesc, h.bottomDesc, ?_, fun hne => ?_, ?_⟩
  · intro t ht b hb'
    rcases List.mem_cons.1 (hp.mem_iff.1 ht) with rfl | ht
    · exact hb b hb'
    · exact h.topAboveBottom t (List.mem_of_mem_filter ht) b hb'
  · have h₁ := hp.length_eq
    have h₂ := htop.length_eq
    have := h.topFull hne
    simp only [List.length_cons] at h₁ h₂
    omega
  · -- the owners are those of before
    have hown : (owners (top' ++ bottom)).Perm (owners (top ++ bottom)) := by
      have h₁ := (hp.append_right bottom).map (·.owner)
      have h₂ := (htop.append_right bottom).map (·.owner)
      simp only [List.map_append, List.map_cons, List.cons_append] at h₁ h₂
      simpa only [owners, List.map_append] using h₁.trans h₂.symm
    exact hown.nodup_iff.2 h.ownersNodup

/-- `d`'s bottom bond `⟨d, a⟩` changed to `⟨d, a'⟩` and the list sorted again, `a'` at most
    every top bond. -/
theorem ListsShape.replaceBottom {top bottom bottom' : List (Bond A)}
    (h : ListsShape cfg top bottom) {d : A} {a a' : Nat} (hm : ⟨d, a⟩ ∈ bottom)
    (hdesc : DescBonds bottom') (hp : bottom'.Perm (⟨d, a'⟩ :: bottom.filter (·.owner ≠ d)))
    (ht : ∀ t ∈ top, a' ≤ t.amount) : ListsShape cfg top bottom' := by
  have hbot : bottom.Perm (⟨d, a⟩ :: bottom.filter (·.owner ≠ d)) :=
    perm_cons_filter (h.ownersNodup.sublist (by simp)) hm
  refine ⟨h.topDesc, hdesc, ?_, fun _ => h.topFull (List.ne_nil_of_mem hm), ?_⟩
  · intro t ht' b hb
    rcases List.mem_cons.1 (hp.mem_iff.1 hb) with rfl | hb
    · exact ht t ht'
    · exact h.topAboveBottom t ht' b (List.mem_of_mem_filter hb)
  · have hown : (owners (top ++ bottom')).Perm (owners (top ++ bottom)) := by
      have h₁ := (hp.append_left top).map (·.owner)
      have h₂ := (hbot.append_left top).map (·.owner)
      simp only [List.map_append, List.map_cons] at h₁ h₂
      simpa only [owners, List.map_append] using h₁.trans h₂.symm
    exact hown.nodup_iff.2 h.ownersNodup

omit [LinearOrder A] in
theorem length_insertSortedGreatestToLeast {d : Delegations A} (hd : DescBonds d.delegations)
    (x : Bond A) :
    (d.insertSortedGreatestToLeast x).delegations.length = d.delegations.length + 1 := by
  rw [(insertSortedGreatestToLeast_spec hd x).2.length_eq, List.length_cons]

omit [LinearOrder A] in
/-- The insertion keeps a list's `total` its sum. -/
theorem total_insertSortedGreatestToLeast {d : Delegations A} (hd : DescBonds d.delegations)
    (ht : d.total = (amounts d.delegations).sum) (x : Bond A) :
    (d.insertSortedGreatestToLeast x).total =
      (amounts (d.insertSortedGreatestToLeast x).delegations).sum := by
  rw [insertSortedGreatestToLeast_total, amounts,
    ((insertSortedGreatestToLeast_spec hd x).2.map _).sum_eq, ht]
  simp only [amounts, List.map_cons, List.sum_cons]
  omega

omit [LinearOrder A] in
theorem sum_amounts_dropLast {l : List (Bond A)} {z : Bond A} (hz : l.getLast? = some z) :
    (amounts l).sum = z.amount + (amounts l.dropLast).sum := by
  rw [amounts, ((perm_cons_dropLast hz).map _).sum_eq]
  simp [amounts]

omit [LinearOrder A] in
theorem lowestDelegationAmount_of_getLast {d : Delegations A} {z : Bond A}
    (hz : d.delegations.getLast? = some z) : d.lowestDelegationAmount = z.amount := by
  simp [Delegations.lowestDelegationAmount, hz]

omit [LinearOrder A] in
/-- Within its bound, a list is full exactly at the bound. -/
theorem topCapacity_eq_full_iff {d : Delegations A}
    (h : d.delegations.length ≤ cfg.maxTopDelegationsPerCandidate) :
    d.topCapacity cfg = .full ↔ d.delegations.length = cfg.maxTopDelegationsPerCandidate := by
  unfold Delegations.topCapacity
  constructor
  · intro hc
    split_ifs at hc with h₁
    exact le_antisymm h h₁
  · intro hl
    rw [if_pos hl.ge]

omit [LinearOrder A] in
theorem bottomCapacity_eq_full_iff {d : Delegations A}
    (h : d.delegations.length ≤ cfg.maxBottomDelegationsPerCandidate) :
    d.bottomCapacity cfg = .full ↔ d.delegations.length = cfg.maxBottomDelegationsPerCandidate := by
  unfold Delegations.bottomCapacity
  constructor
  · intro hc
    split_ifs at hc with h₁
    exact le_antisymm h h₁
  · intro hl
    rw [if_pos hl.ge]

omit [LinearOrder A] in
/-- With room in it, a bottom list is `Empty` exactly when it has no bond. -/
theorem bottomCapacity_ne_empty_iff {d : Delegations A}
    (hpos : 0 < cfg.maxBottomDelegationsPerCandidate) :
    d.bottomCapacity cfg ≠ .empty ↔ d.delegations ≠ [] := by
  constructor
  · exact fun hc he => hc (by simp [Delegations.bottomCapacity, he, Nat.not_le.2 hpos])
  · exact fun hne hc => hne (bottomCapacity_eq_empty hc)

/-- A list with `d`'s bond `⟨d, a⟩` changed to `⟨d, a'⟩`, up to order: its sum moves from
    `a` to `a'`. -/
theorem sum_amounts_replace {l l' : List (Bond A)} (hnd : (owners l).Nodup) {d : A} {a a' : Nat}
    (hm : ⟨d, a⟩ ∈ l) (hp : l'.Perm (⟨d, a'⟩ :: l.filter (·.owner ≠ d))) :
    (amounts l').sum + a = (amounts l).sum + a' := by
  rw [sum_amounts_filter hnd hm, amounts, (hp.map _).sum_eq]
  simp only [amounts, List.map_cons, List.sum_cons]
  omega

end Lists

/-! ## 2. What the methods write -/

section Frames

variable (s : State A C) (c d : A) (st : Delegator A)

@[simp] theorem removeAutoCompound_topDelegations :
    (AutoCompoundDelegations.removeAutoCompound s c d).topDelegations = s.topDelegations := by
  unfold AutoCompoundDelegations.removeAutoCompound
  split <;> rfl

@[simp] theorem removeAutoCompound_bottomDelegations :
    (AutoCompoundDelegations.removeAutoCompound s c d).bottomDelegations = s.bottomDelegations := by
  unfold AutoCompoundDelegations.removeAutoCompound
  split <;> rfl

@[simp] theorem delegationRemoveRequestWithState_topDelegations :
    (delegationRemoveRequestWithState s c d st).2.topDelegations = s.topDelegations := by
  unfold delegationRemoveRequestWithState
  split <;> rfl

@[simp] theorem delegationRemoveRequestWithState_bottomDelegations :
    (delegationRemoveRequestWithState s c d st).2.bottomDelegations = s.bottomDelegations := by
  unfold delegationRemoveRequestWithState
  split <;> rfl

end Frames

section Methods

variable {cfg : Config} {cur : Currency A C} {s s' : State A C} {m m' : CandidateMetadata} {c : A}
  {top bottom : Delegations A}

omit [LinearOrder A] in
/-- A count moved on or not. -/
theorem exists_withCount (m : CandidateMetadata) (p : Prop) [Decidable p] :
    ∃ n, (if p then { m with delegationCount := m.delegationCount + 1 } else m) =
      { m with delegationCount := n } := by
  split
  · exact ⟨_, rfl⟩
  · exact ⟨m.delegationCount, rfl⟩

/-- The kick leaves both lists of every candidate alone. -/
theorem kickBottom_lists {k : Bond A} (h : kickBottom cur s c k = .ok s') :
    s'.topDelegations = s.topDelegations ∧ s'.bottomDelegations = s.bottomDelegations := by
  unfold kickBottom at h
  simp only [throw, throwThe, MonadExceptOf.throw, pure, Except.pure] at h
  split at h
  · split_ifs at h <;> (cases h; simp)
  · cases h

/-- `add_bottom_delegation` inserts the bond into the bottom list, or, where the list is at
    its bound, into the list without its last bond, which is kicked first. -/
theorem addBottomDelegation_eq {bumped : Bool} {x : Bond A}
    (hbot : s.bottomDelegations c = some bottom)
    (h : addBottomDelegation cfg cur s m bumped c x = .ok (m', s')) :
    ∃ (bottom₀ : Delegations A) (s₁ : State A C) (n : Nat),
      ((bottom.delegations.length ≠ cfg.maxBottomDelegationsPerCandidate ∧ bottom₀ = bottom ∧
          s₁ = s) ∨
        ∃ kicked, bottom.delegations.getLast? = some kicked ∧
          bottom.delegations.length = cfg.maxBottomDelegationsPerCandidate ∧
          bottom₀ = ⟨bottom.delegations.dropLast, bottom.total - kicked.amount⟩ ∧
          kickBottom cur s c kicked = .ok s₁) ∧
      m' = resetBottomData cfg { m with delegationCount := n }
        (bottom₀.insertSortedGreatestToLeast x) ∧
      s' = { s₁ with
        bottomDelegations := Function.update s₁.bottomDelegations c
          (some (bottom₀.insertSortedGreatestToLeast x)) } := by
  unfold addBottomDelegation at h
  dsimp only at h
  split at h
  · rename_i bottom₁ hbot₁
    rw [hbot] at hbot₁
    cases hbot₁
    split at h
    · -- at the bound: the last bond is kicked
      rename_i hlen
      split at h
      · rename_i kicked hk
        obtain ⟨s₁, h₁, h⟩ := Reach.bind_eq_ok.1 h
        rw [pure_bind, Reach.pure_eq_ok] at h
        obtain ⟨rfl, rfl⟩ := Prod.mk.inj h
        exact ⟨_, s₁, m.delegationCount, .inr ⟨kicked, hk, hlen, rfl, h₁⟩, rfl, rfl⟩
      · exact absurd h Reach.throw_bind_ne_ok
    · rename_i hlen
      rw [pure_bind, Reach.pure_eq_ok] at h
      obtain ⟨rfl, rfl⟩ := Prod.mk.inj h
      -- the count moves on unless the bond came down from the top list
      refine ⟨bottom, s, if (!bumped) = true then m.delegationCount + 1 else m.delegationCount,
        .inl ⟨hlen, rfl, rfl⟩, ?_, rfl⟩
      dsimp only
      split <;> rfl
  · cases h

/-- `add_top_delegation` inserts the bond into the top list, or, where the list is at its
    bound, into the list without its last bond, which goes to the bottom list first. -/
theorem addTopDelegation_eq {x : Bond A} {less : Option Nat}
    (htop : s.topDelegations c = some top)
    (h : addTopDelegation cfg cur s m c x = .ok (less, m', s')) :
    ∃ (top₀ : Delegations A) (m₁ : CandidateMetadata) (s₁ : State A C),
      ((top.delegations.length ≠ cfg.maxTopDelegationsPerCandidate ∧ top₀ = top ∧ m₁ = m ∧
          s₁ = s ∧ less = none) ∨
        ∃ z, top.delegations.getLast? = some z ∧
          top.delegations.length = cfg.maxTopDelegationsPerCandidate ∧
          top₀ = ⟨top.delegations.dropLast, top.total - z.amount⟩ ∧
          less = (if m.bottomCapacity = .full then some m.lowestBottomDelegationAmount else none) ∧
          addBottomDelegation cfg cur s m true c z = .ok (m₁, s₁)) ∧
      (∃ n, m' = { (resetTopData cfg s₁ m₁ c (top₀.insertSortedGreatestToLeast x)).1 with
        delegationCount := n }) ∧
      s' = { (resetTopData cfg s₁ m₁ c (top₀.insertSortedGreatestToLeast x)).2 with
        topDelegations := Function.update s₁.topDelegations c
          (some (top₀.insertSortedGreatestToLeast x)) } := by
  unfold addTopDelegation at h
  dsimp only at h
  split at h
  · rename_i top₁ htop₁
    rw [htop] at htop₁
    cases htop₁
    split at h
    · -- at the bound: the last bond goes down first
      rename_i hlen
      split at h
      · rename_i z hz
        obtain ⟨⟨m₁, s₁⟩, h₁, h⟩ := Reach.bind_eq_ok.1 h
        rw [pure_bind, Reach.pure_eq_ok] at h
        simp only [Prod.mk.injEq] at h
        obtain ⟨rfl, rfl, rfl⟩ := h
        exact ⟨_, m₁, s₁, .inr ⟨z, hz, hlen, rfl, rfl, h₁⟩, exists_withCount _ _, by simp⟩
      · exact absurd h Reach.throw_bind_ne_ok
    · rename_i hlen
      rw [pure_bind, Reach.pure_eq_ok] at h
      simp only [Prod.mk.injEq] at h
      obtain ⟨rfl, rfl, rfl⟩ := h
      exact ⟨top, m, s, .inl ⟨hlen, rfl, rfl, rfl, rfl⟩, exists_withCount _ _, by simp⟩
  · cases h

/-- What is left of the bottom list when `add_bottom_delegation` inserts: the list, below its
    bound, or the list without its last bond, which the kick took out; the kick wrote neither
    list nor any metadata. -/
theorem addBottomDelegation_rest {bottom₀ : Delegations A} {s₁ : State A C}
    (hf : Fits cfg m top bottom)
    (hcase : (bottom.delegations.length ≠ cfg.maxBottomDelegationsPerCandidate ∧ bottom₀ = bottom ∧
          s₁ = s) ∨
        ∃ kicked, bottom.delegations.getLast? = some kicked ∧
          bottom.delegations.length = cfg.maxBottomDelegationsPerCandidate ∧
          bottom₀ = ⟨bottom.delegations.dropLast, bottom.total - kicked.amount⟩ ∧
          kickBottom cur s c kicked = .ok s₁) :
    bottom₀.delegations.Sublist bottom.delegations ∧
      bottom₀.delegations.length + 1 ≤ cfg.maxBottomDelegationsPerCandidate ∧
      s₁.topDelegations = s.topDelegations ∧ s₁.bottomDelegations = s.bottomDelegations ∧
      s₁.candidateInfo = s.candidateInfo := by
  rcases hcase with ⟨hlen, rfl, rfl⟩ | ⟨kicked, hk, hlen, rfl, hkick⟩
  · exact ⟨List.Sublist.refl _, by have := hf.bottomLength; omega, rfl, rfl, rfl⟩
  · have hne : bottom.delegations ≠ [] := fun he => by simp [he] at hk
    have hdrop : bottom.delegations.dropLast.length = bottom.delegations.length - 1 :=
      List.length_dropLast
    have hpos := List.length_pos_iff.2 hne
    refine ⟨List.dropLast_sublist _, ?_, (kickBottom_lists hkick).1, (kickBottom_lists hkick).2,
      (kickBottom_frame hkick).2⟩
    dsimp only
    omega

/-- `add_bottom_delegation` of a bond of a new delegator, no heavier than any top bond, under a
    full top list: the bond joins the bottom list, after its last bond is kicked where the list
    is at its bound. -/
theorem addBottomDelegation_wrote (hs : CandidateShape cfg m top bottom)
    (hf : Fits cfg m top bottom) (htop : s.topDelegations c = some top)
    (hbot : s.bottomDelegations c = some bottom)
    (hfull : cfg.maxTopDelegationsPerCandidate ≤ top.delegations.length) {x : Bond A}
    (hx : ∀ t ∈ top.delegations, x.amount ≤ t.amount)
    (hfresh : x.owner ∉ owners (top.delegations ++ bottom.delegations)) {bumped : Bool}
    (h : addBottomDelegation cfg cur s m bumped c x = .ok (m', s')) :
    ∃ bottom', Wrote cfg c s s' m' top bottom' ∧ Fits cfg m' top bottom' ∧
      ((bottom.delegations.length < cfg.maxBottomDelegationsPerCandidate ∧
          bottom'.delegations.Perm (x :: bottom.delegations) ∧
          s'.delegatorState = s.delegatorState) ∨
        ∃ kicked, bottom.delegations.getLast? = some kicked ∧
          bottom.delegations.length = cfg.maxBottomDelegationsPerCandidate ∧
          bottom'.delegations.Perm (x :: bottom.delegations.dropLast) ∧
          ∃ s₁, kickBottom cur s c kicked = .ok s₁ ∧ s'.delegatorState = s₁.delegatorState) := by
  obtain ⟨bottom₀, s₁, n, hcase, rfl, rfl⟩ := addBottomDelegation_eq hbot h
  obtain ⟨hsub, hlen, ht₁, hb₁, hi₁⟩ := addBottomDelegation_rest hf hcase
  have hdesc : DescBonds bottom₀.delegations := hs.lists.bottomDesc.sublist hsub
  have hperm := (insertSortedGreatestToLeast_spec hdesc x).2
  have hcaches : TopCaches cfg (resetBottomData cfg { m with delegationCount := n }
      (bottom₀.insertSortedGreatestToLeast x)) top ∧
      BottomCaches cfg (resetBottomData cfg { m with delegationCount := n }
        (bottom₀.insertSortedGreatestToLeast x)) (bottom₀.insertSortedGreatestToLeast x) :=
    caches_resetBottomData cfg (hs.topCaches.withCount cfg n)
  refine ⟨bottom₀.insertSortedGreatestToLeast x, ⟨?_, by simp [hb₁], hi₁, ?_⟩, ⟨hf.topLength, ?_, rfl⟩, ?_⟩
  · rw [ht₁, ← htop, Function.update_eq_self]
  · refine ⟨hs.lists.insertBottom hsub hfull hx ?_ _, hs.topTotal, hcaches.1, hcaches.2⟩
    exact fun hx' => hfresh (((hsub.append_left _).map _).subset hx')
  · rw [length_insertSortedGreatestToLeast hdesc]
    exact hlen
  · rcases hcase with ⟨hne, rfl, rfl⟩ | ⟨kicked, hk, hmax, rfl, hkick⟩
    · exact .inl ⟨lt_of_le_of_ne hf.bottomLength hne, hperm, rfl⟩
    · exact .inr ⟨kicked, hk, hmax, hperm, _, hkick, rfl⟩

/-- `add_top_delegation` of a bond of a new delegator. Below its bound the top list takes it,
    and then the bottom list is empty. At its bound the lowest top bond goes down to the
    bottom list, kicking the lowest bottom bond where that list is at its bound, and the new
    bond, at least as heavy, takes its place; the amount answered is the kicked one's. -/
theorem addTopDelegation_wrote (hs : CandidateShape cfg m top bottom)
    (hf : Fits cfg m top bottom) (htop : s.topDelegations c = some top)
    (hbot : s.bottomDelegations c = some bottom) {x : Bond A}
    (hfresh : x.owner ∉ owners (top.delegations ++ bottom.delegations))
    (hlow : cfg.maxTopDelegationsPerCandidate ≤ top.delegations.length →
      top.lowestDelegationAmount ≤ x.amount)
    {less : Option Nat} (h : addTopDelegation cfg cur s m c x = .ok (less, m', s')) :
    ∃ top' bottom', Wrote cfg c s s' m' top' bottom' ∧ Fits cfg m' top' bottom' ∧
      ((less = none ∧
          (top'.delegations ++ bottom'.delegations).Perm (x :: (top.delegations ++ bottom.delegations)) ∧
          s'.delegatorState = s.delegatorState) ∨
        top.delegations.length = cfg.maxTopDelegationsPerCandidate ∧
          ∃ kicked, bottom.delegations.getLast? = some kicked ∧ less = some kicked.amount ∧
            (top'.delegations ++ bottom'.delegations).Perm
              (x :: (top.delegations ++ bottom.delegations.dropLast)) ∧
            ∃ s₁, kickBottom cur s c kicked = .ok s₁ ∧ s'.delegatorState = s₁.delegatorState) := by
  obtain ⟨top₀, m₁, s₁, hcase, ⟨n, rfl⟩, rfl⟩ := addTopDelegation_eq htop h
  rcases hcase with ⟨hlen, h₁, h₂, h₃, rfl⟩ | ⟨z, hz, hlen, rfl, hless, hadd⟩
  · -- below the bound: the top list takes the bond, over an empty bottom list
    subst top₀ m₁ s₁
    have hempty : bottom.delegations = [] := by
      by_contra hne
      exact hlen (le_antisymm hf.topLength (hs.lists.topFull hne))
    have hperm := (insertSortedGreatestToLeast_spec hs.lists.topDesc x).2
    refine ⟨top.insertSortedGreatestToLeast x, bottom, ⟨by simp, ?_, by simp, ?_⟩, ⟨?_, hf.bottomLength, ?_⟩,
      .inl ⟨rfl, hperm.append_right _, by simp⟩⟩
    · rw [resetTopData_bottomDelegations, ← hbot, Function.update_eq_self]
    · refine ⟨hs.lists.insertTop (by simp [hempty]) hfresh _,
        total_insertSortedGreatestToLeast hs.lists.topDesc hs.topTotal x,
        (caches_resetTopData cfg hs.bottomCaches).1.withCount cfg n,
        (caches_resetTopData cfg hs.bottomCaches).2.withCount cfg n⟩
    · rw [length_insertSortedGreatestToLeast hs.lists.topDesc]
      exact lt_of_le_of_ne hf.topLength hlen
    · simp [resetTopData_fst, hf.lowestBottom]
  · -- at the bound: the lowest top bond `z` goes down first
    obtain ⟨bottom₀, s₂, n₂, hcase, rfl, rfl⟩ := addBottomDelegation_eq hbot hadd
    obtain ⟨hsub, hlenB, ht₂, hb₂, hi₂⟩ := addBottomDelegation_rest hf hcase
    have hdescT : DescBonds top.delegations.dropLast :=
      hs.lists.topDesc.sublist (List.dropLast_sublist _)
    have hdescB : DescBonds bottom₀.delegations := hs.lists.bottomDesc.sublist hsub
    have hzx : z.amount ≤ x.amount := by
      rw [← lowestDelegationAmount_of_getLast hz]
      exact hlow hlen.ge
    have hsum := sum_amounts_dropLast hz
    have htotal := hs.topTotal
    have hcachesB : BottomCaches cfg (resetBottomData cfg { m with delegationCount := n₂ }
        (bottom₀.insertSortedGreatestToLeast z)) (bottom₀.insertSortedGreatestToLeast z) :=
      (caches_resetBottomData cfg (hs.topCaches.withCount cfg n₂)).2
    refine ⟨(⟨top.delegations.dropLast, top.total - z.amount⟩ : Delegations A).insertSortedGreatestToLeast
      x, bottom₀.insertSortedGreatestToLeast z, ⟨by simp [ht₂], by simp [hb₂], by simp [hi₂], ?_⟩,
      ⟨?_, ?_, ?_⟩, ?_⟩
    · refine ⟨hs.lists.bump hsub hlen.ge hz hzx ?_ _ _, ?_,
        (caches_resetTopData cfg hcachesB).1.withCount cfg n,
        (caches_resetTopData cfg hcachesB).2.withCount cfg n⟩
      · exact fun hx' => hfresh (((hsub.append_left _).map _).subset hx')
      · refine total_insertSortedGreatestToLeast hdescT ?_ x
        simp only [amounts] at hsum htotal ⊢
        omega
    · rw [length_insertSortedGreatestToLeast hdescT, List.length_dropLast]
      have := List.length_pos_iff.2 (List.ne_nil_of_mem (List.mem_of_getLast? hz))
      omega
    · rw [length_insertSortedGreatestToLeast hdescB]
      exact hlenB
    · simp [resetTopData_fst, resetBottomData]
    · -- the bonds: `x` for `z` above, `z` below, and the lowest bottom one gone on a kick
      have hpermT := (insertSortedGreatestToLeast_spec (d := ⟨top.delegations.dropLast,
        top.total - z.amount⟩) hdescT x).2
      have hpermB := (insertSortedGreatestToLeast_spec hdescB z).2
      have hP : ((⟨top.delegations.dropLast, top.total - z.amount⟩ : Delegations A).insertSortedGreatestToLeast
          x).delegations ++ (bottom₀.insertSortedGreatestToLeast z).delegations |>.Perm
          (x :: (top.delegations ++ bottom₀.delegations)) :=
        (hpermT.append hpermB).trans (.cons x (List.perm_middle.trans
          ((perm_cons_dropLast hz).symm.append_right _)))
      have hcapB := bottomCapacity_eq_full_iff hf.bottomLength
      rw [hs.bottomCaches.bottomCapacity.symm] at hcapB
      rcases hcase with ⟨hne, rfl, rfl⟩ | ⟨kicked, hk, hmax, rfl, hkick⟩
      · refine .inl ⟨?_, hP, by simp⟩
        rw [hless, if_neg (fun hc => hne (hcapB.1 hc))]
      · refine .inr ⟨hlen, kicked, hk, ?_, hP, _, hkick, by simp⟩
        rw [hless, if_pos (hcapB.2 hmax), hf.lowestBottom, lowestDelegationAmount_of_getLast hk]

/-- What a successful `add_delegation` of a bond of a new delegator did: wherever the cached
    amounts sent it, the lists keep the shape and hold it besides the bonds they held, except
    the lowest bottom bond where the bottom list was at its bound, which is kicked; the kick is
    all that is written of the delegators. -/
theorem addDelegation_wrote (hs : CandidateShape cfg m top bottom)
    (hf : Fits cfg m top bottom) (htop : s.topDelegations c = some top)
    (hbot : s.bottomDelegations c = some bottom) {x : Bond A}
    (hfresh : x.owner ∉ owners (top.delegations ++ bottom.delegations))
    {r : DelegatorAdded × Option Nat} (h : addDelegation cfg cur s m c x = .ok (r, m', s')) :
    ∃ top' bottom', Wrote cfg c s s' m' top' bottom' ∧ Fits cfg m' top' bottom' ∧
      ((r.2 = none ∧
          (top'.delegations ++ bottom'.delegations).Perm (x :: (top.delegations ++ bottom.delegations)) ∧
          s'.delegatorState = s.delegatorState) ∨
        ∃ kicked, bottom.delegations.getLast? = some kicked ∧ r.2 = some kicked.amount ∧
          (top'.delegations ++ bottom'.delegations).Perm
            (x :: (top.delegations ++ bottom.delegations.dropLast)) ∧
          ∃ s₁, kickBottom cur s c kicked = .ok s₁ ∧ s'.delegatorState = s₁.delegatorState) := by
  have hcapT := topCapacity_eq_full_iff hf.topLength
  rw [hs.topCaches.topCapacity.symm] at hcapT
  have hcapB := bottomCapacity_eq_full_iff hf.bottomLength
  rw [hs.bottomCaches.bottomCapacity.symm] at hcapB
  unfold addDelegation at h
  split at h
  · rename_i hfull
    split at h
    · -- above the lowest top bond: into the top list
      rename_i hlt
      obtain ⟨⟨less, m₁, s₁⟩, h₁, h⟩ := Reach.bind_eq_ok.1 h
      rw [Reach.pure_eq_ok] at h
      simp only [Prod.mk.injEq] at h
      obtain ⟨rfl, rfl, rfl⟩ := h
      have hlow : top.lowestDelegationAmount ≤ x.amount := hs.topCaches.lowestTop ▸ hlt.le
      obtain ⟨top', bottom', hw, hfit, hbonds⟩ :=
        addTopDelegation_wrote hs hf htop hbot hfresh (fun _ => hlow) h₁
      refine ⟨top', bottom', hw, hfit, ?_⟩
      rcases hbonds with hb | ⟨-, hb⟩
      · exact .inl hb
      · exact .inr hb
    · -- at most the lowest top bond: into the bottom list, over the guard of a full one
      rename_i hge
      have hx : ∀ t ∈ top.delegations, x.amount ≤ t.amount := fun t ht =>
        (not_lt.1 hge).trans (hs.topCaches.lowestTop ▸ lowestDelegationAmount_le hs.lists.topDesc t ht)
      dsimp only at h
      split_ifs at h with hb hgt
      · rw [pure_bind] at h
        obtain ⟨⟨m₁, s₁⟩, h₁, h⟩ := Reach.bind_eq_ok.1 h
        rw [Reach.pure_eq_ok] at h
        simp only [Prod.mk.injEq] at h
        obtain ⟨rfl, rfl, rfl⟩ := h
        obtain ⟨bottom', hw, hfit, hbonds⟩ :=
          addBottomDelegation_wrote hs hf htop hbot (hcapT.1 hfull).ge hx hfresh h₁
        refine ⟨top, bottom', hw, hfit, ?_⟩
        rcases hbonds with ⟨hlt, -⟩ | ⟨kicked, hk, -, hp, hkick⟩
        · exact absurd (hcapB.1 hb) hlt.ne
        · refine .inr ⟨kicked, hk, ?_, (hp.append_left _).trans List.perm_middle, hkick⟩
          rw [hf.lowestBottom, lowestDelegationAmount_of_getLast hk]
      · exact absurd h Reach.throw_bind_ne_ok
      · rw [pure_bind] at h
        obtain ⟨⟨m₁, s₁⟩, h₁, h⟩ := Reach.bind_eq_ok.1 h
        rw [Reach.pure_eq_ok] at h
        simp only [Prod.mk.injEq] at h
        obtain ⟨rfl, rfl, rfl⟩ := h
        obtain ⟨bottom', hw, hfit, hbonds⟩ :=
          addBottomDelegation_wrote hs hf htop hbot (hcapT.1 hfull).ge hx hfresh h₁
        refine ⟨top, bottom', hw, hfit, ?_⟩
        rcases hbonds with ⟨-, hp, hq⟩ | ⟨kicked, -, hmax, -⟩
        · exact .inl ⟨rfl, (hp.append_left _).trans List.perm_middle, hq⟩
        · exact absurd (hcapB.2 hmax) hb
  · -- a top list below its bound takes the bond
    rename_i hnot
    obtain ⟨⟨less, m₁, s₁⟩, h₁, h⟩ := Reach.bind_eq_ok.1 h
    rw [Reach.pure_eq_ok] at h
    simp only [Prod.mk.injEq] at h
    obtain ⟨rfl, rfl, rfl⟩ := h
    have hbelow : ¬ cfg.maxTopDelegationsPerCandidate ≤ top.delegations.length := fun hle =>
      hnot (hcapT.2 (le_antisymm hf.topLength hle))
    obtain ⟨top', bottom', hw, hfit, hbonds⟩ :=
      addTopDelegation_wrote hs hf htop hbot hfresh (fun hle => absurd hle hbelow) h₁
    rcases hbonds with ⟨-, hb, hq⟩ | ⟨hlen, -⟩
    · exact ⟨top', bottom', hw, hfit, .inl ⟨rfl, hb, hq⟩⟩
    · exact absurd hlen.ge hbelow

/-- A candidate `1` under `mockConfig`: a full top list, whose lowest bond `⟨5, 4⟩` an
    entrant above it bumps, and one bottom bond. -/
def fullTop : Delegations Nat := ⟨[⟨2, 8⟩, ⟨3, 6⟩, ⟨4, 5⟩, ⟨5, 4⟩], 23⟩

def oneBottom : Delegations Nat := ⟨[⟨6, 3⟩], 3⟩

def fullTopMetadata : CandidateMetadata :=
  ⟨20, 5, 43, 4, 3, 3, .full, .partiallyFull, none, .active⟩

def fullTopState : State Nat (Nat → Nat × Nat) :=
  { genesis [1] (fun _ => (100, 0)) with
    candidateInfo := fun a => if a = 1 then some fullTopMetadata else none
    topDelegations := fun a => if a = 1 then some fullTop else none
    bottomDelegations := fun a => if a = 1 then some oneBottom else none }

theorem fullTop_shape : CandidateShape mockConfig fullTopMetadata fullTop oneBottom :=
  ⟨⟨by unfold DescBonds Desc; decide, by unfold DescBonds Desc; decide, by decide, by decide,
    by decide⟩, rfl, ⟨rfl, rfl, rfl⟩, ⟨rfl, rfl⟩⟩

theorem fullTop_fits : Fits mockConfig fullTopMetadata fullTop oneBottom :=
  ⟨by decide, by decide, rfl⟩

/-- **`add_delegation` keeps the shape.** A bond of a new delegator, on lists with the shape:
    wherever the cached amounts send it, the lists keep the shape and their bounds and hold the
    new bond besides the bonds they held, except the lowest bottom bond where the bottom list
    was at its bound. That one is kicked, and its amount is what the call answers as less
    total staked; where nothing is kicked the call answers none. -/
theorem addDelegation_keeps_shape (hs : CandidateShape cfg m top bottom)
    (hf : Fits cfg m top bottom) (htop : s.topDelegations c = some top)
    (hbot : s.bottomDelegations c = some bottom) {x : Bond A}
    (hfresh : x.owner ∉ owners (top.delegations ++ bottom.delegations))
    {r : DelegatorAdded × Option Nat} (h : addDelegation cfg cur s m c x = .ok (r, m', s')) :
    ∃ top' bottom', Wrote cfg c s s' m' top' bottom' ∧ Fits cfg m' top' bottom' ∧
      ((r.2 = none ∧
          (top'.delegations ++ bottom'.delegations).Perm (x :: (top.delegations ++ bottom.delegations))) ∨
        ∃ kicked, bottom.delegations.getLast? = some kicked ∧ r.2 = some kicked.amount ∧
          (top'.delegations ++ bottom'.delegations).Perm
            (x :: (top.delegations ++ bottom.delegations.dropLast))) := by
  obtain ⟨top', bottom', hw, hfit, hbonds⟩ := addDelegation_wrote hs hf htop hbot hfresh h
  refine ⟨top', bottom', hw, hfit, ?_⟩
  rcases hbonds with ⟨hr, hp, -⟩ | ⟨kicked, hk, hr, hp, -⟩
  · exact .inl ⟨hr, hp⟩
  · exact .inr ⟨kicked, hk, hr, hp⟩

/-- `⟨7, 7⟩` joins `fullTop` and bumps its lowest bond into the bottom list. -/
theorem addDelegation_keeps_shape_at_fullTop : ∃ r m' s',
    addDelegation mockConfig mockBalances fullTopState fullTopMetadata 1 ⟨7, 7⟩ = .ok (r, m', s') ∧
      ∃ top' bottom', Wrote mockConfig 1 fullTopState s' m' top' bottom' ∧
        Fits mockConfig m' top' bottom' ∧
        ((r.2 = none ∧ (top'.delegations ++ bottom'.delegations).Perm
            (⟨7, 7⟩ :: (fullTop.delegations ++ oneBottom.delegations))) ∨
          ∃ kicked, oneBottom.delegations.getLast? = some kicked ∧ r.2 = some kicked.amount ∧
            (top'.delegations ++ bottom'.delegations).Perm
              (⟨7, 7⟩ :: (fullTop.delegations ++ oneBottom.delegations.dropLast))) := by
  obtain ⟨⟨r, m', s'⟩, h⟩ : ∃ p,
      addDelegation mockConfig mockBalances fullTopState fullTopMetadata 1 ⟨7, 7⟩ = .ok p :=
    ⟨_, rfl⟩
  exact ⟨r, m', s', h, addDelegation_keeps_shape fullTop_shape fullTop_fits
    (show fullTopState.topDelegations 1 = some fullTop from rfl) rfl (by decide) h⟩

/-! ## 3. Taking out, increasing and decreasing a bond -/

omit [LinearOrder A] in
/-- Where the cached amounts send a dispatch: a top bond is at least the lowest top amount. -/
theorem CandidateShape.lowestTop_le (hs : CandidateShape cfg m top bottom) {d : A} {a : Nat}
    (hm : ⟨d, a⟩ ∈ top.delegations) : m.lowestTopDelegationAmount ≤ a :=
  hs.topCaches.lowestTop ▸ lowestDelegationAmount_le hs.lists.topDesc _ hm

omit [LinearOrder A] in
/-- A bottom bond is at least the lowest top amount only where the lowest top and the
    highest bottom amounts are equal. -/
theorem CandidateShape.lowestTop_eq_of_le (hs : CandidateShape cfg m top bottom)
    (hpos : 0 < cfg.maxTopDelegationsPerCandidate) {d : A} {a : Nat}
    (hm : ⟨d, a⟩ ∈ bottom.delegations) (hge : m.lowestTopDelegationAmount ≤ a) :
    m.lowestTopDelegationAmount = m.highestBottomDelegationAmount := by
  have hfull := hs.lists.topFull (List.ne_nil_of_mem hm)
  have hne : top.delegations ≠ [] := List.ne_nil_of_length_pos (lt_of_lt_of_le hpos hfull)
  have hle := hs.lists.highest_le_lowest hne
  have hb : a ≤ bottom.highestDelegationAmount := le_highestDelegationAmount hs.lists.bottomDesc _ hm
  rw [hs.topCaches.lowestTop] at hge ⊢
  rw [hs.bottomCaches.highestBottom]
  omega

theorem mapOwner_snd_of_not_mem {l : List (Bond A)} {d : A} (hd : d ∉ owners l) (f : Nat → Nat) :
    (mapOwner l d f).2 = false := by
  simp only [mapOwner, List.any_eq_false, decide_eq_true_eq]
  exact fun b hb hbd => hd (hbd ▸ List.mem_map_of_mem hb)

/-- `increase_top_delegation` of a bond of the top list succeeds, and the bond grows in
    place. -/
theorem increaseTopDelegation_ok (hs : CandidateShape cfg m top bottom)
    (hf : Fits cfg m top bottom) (htop : s.topDelegations c = some top)
    (hbot : s.bottomDelegations c = some bottom) {d : A} {a : Nat}
    (hm : ⟨d, a⟩ ∈ top.delegations) (more : Nat) :
    ∃ m' s', increaseTopDelegation cfg s m c d more = .ok (true, m', s') ∧
      ∃ top', Wrote cfg c s s' m' top' bottom ∧ Fits cfg m' top' bottom ∧
        top'.delegations.Perm (⟨d, a + more⟩ :: top.delegations.filter (·.owner ≠ d)) ∧
        Quiet s s' := by
  have hnd : (owners top.delegations).Nodup := hs.lists.ownersNodup.sublist (by simp)
  obtain ⟨hperm, hin⟩ := mapOwner_perm hnd hm (· + more)
  set top₁ : Delegations A := ⟨(mapOwner top.delegations d (· + more)).1, top.total + more⟩
  obtain ⟨hdesc, hsort⟩ := sortGreatestToLeast_spec top₁
  have hp : top₁.sortGreatestToLeast.delegations.Perm (⟨d, a + more⟩ :: top.delegations.filter (·.owner ≠ d)) :=
    hsort.trans hperm
  have hmo : mapOwner top.delegations d (· + more) = (top₁.delegations, true) := Prod.ext rfl hin
  have heq : increaseTopDelegation cfg s m c d more = .ok (true,
      (resetTopData cfg s m c top₁.sortGreatestToLeast).1,
      { (resetTopData cfg s m c top₁.sortGreatestToLeast).2 with
        topDelegations := Function.update (resetTopData cfg s m c top₁.sortGreatestToLeast).2.topDelegations
          c (some top₁.sortGreatestToLeast) }) := by
    unfold increaseTopDelegation
    simp only [htop, hmo]
    rfl
  refine ⟨_, _, heq, top₁.sortGreatestToLeast, ⟨by simp, ?_, by simp, ?_⟩, ⟨?_, hf.bottomLength, ?_⟩,
    hp, by simp [Quiet]⟩
  · rw [resetTopData_bottomDelegations, ← hbot, Function.update_eq_self]
  · refine ⟨hs.lists.replaceTop hm hdesc hp fun b hb => ?_, ?_,
      (caches_resetTopData cfg hs.bottomCaches).1, (caches_resetTopData cfg hs.bottomCaches).2⟩
    · exact (hs.lists.topAboveBottom _ hm b hb).trans (Nat.le_add_right _ _)
    · have hsum := sum_amounts_replace hnd hm hp
      have htotal := hs.topTotal
      show top.total + more = _
      omega
  · have h₁ := hp.length_eq
    have h₂ := (perm_cons_filter hnd hm).length_eq
    have := hf.topLength
    simp only [List.length_cons] at h₁ h₂
    omega
  · simp [resetTopData_fst, hf.lowestBottom]

/-- Where `increase_top_delegation` finds no bond of the delegator it answers `DelegationDNE`. -/
theorem increaseTopDelegation_of_not_mem (htop : s.topDelegations c = some top) {d : A}
    (hd : d ∉ owners top.delegations) (more : Nat) :
    increaseTopDelegation cfg s m c d more = .error .delegationDNE := by
  unfold increaseTopDelegation
  simp only [htop, mapOwner_snd_of_not_mem hd]
  rfl

/-- `increase_bottom_delegation` of a bond `⟨d, bond⟩` of the bottom list succeeds. Past the
    lowest top bond it moves up, and the lowest top bond comes down in its place; otherwise it
    grows in place. The answer says which. -/
theorem increaseBottomDelegation_ok (hs : CandidateShape cfg m top bottom)
    (hf : Fits cfg m top bottom) (htop : s.topDelegations c = some top)
    (hbot : s.bottomDelegations c = some bottom) (hpos : 0 < cfg.maxTopDelegationsPerCandidate)
    {d : A} {bond : Nat} (hm : ⟨d, bond⟩ ∈ bottom.delegations) (more : Nat) :
    ∃ inTop m' s', increaseBottomDelegation cfg s m c d bond more = .ok (inTop, m', s') ∧
      ∃ top' bottom', Wrote cfg c s s' m' top' bottom' ∧ Fits cfg m' top' bottom' ∧
        (top'.delegations ++ bottom'.delegations).Perm
          (⟨d, bond + more⟩ :: (top.delegations ++ bottom.delegations).filter (·.owner ≠ d)) ∧
        (inTop = true ↔ d ∈ owners top'.delegations) ∧ Quiet s s' := by
  have hnd := hs.lists.ownersNodup
  have hndB : (owners bottom.delegations).Nodup := hnd.sublist (by simp)
  have hdB : d ∈ owners bottom.delegations := mem_owners.2 ⟨bond, hm⟩
  have hdT : d ∉ owners top.delegations := not_mem_owners_left hnd hdB
  have hfilterT : top.delegations.filter (·.owner ≠ d) = top.delegations :=
    filter_owner_ne_of_not_mem hdT
  have hfull : cfg.maxTopDelegationsPerCandidate ≤ top.delegations.length :=
    hs.lists.topFull (List.ne_nil_of_mem hm)
  by_cases hgt : bond + more > m.lowestTopDelegationAmount
  · -- past the lowest top bond: `⟨d, bond + more⟩` up, the lowest top bond `z` down
    obtain ⟨z, hz⟩ := Option.ne_none_iff_exists'.1 (mt List.getLast?_eq_none_iff.1
      (List.ne_nil_of_length_pos (lt_of_lt_of_le hpos hfull)))
    have hcap : top.topCapacity cfg = .full := by simp [Delegations.topCapacity, hfull]
    have hzx : z.amount ≤ bond + more := by
      rw [← lowestDelegationAmount_of_getLast hz, ← hs.topCaches.lowestTop]
      exact hgt.le
    set top' := (⟨top.delegations.dropLast, top.total - z.amount⟩ : Delegations A).insertSortedGreatestToLeast
      ⟨d, bond + more⟩
    set bottom' := (⟨bottom.delegations.filter (·.owner ≠ d), bottom.total - bond⟩ :
      Delegations A).insertSortedGreatestToLeast z
    have heq : increaseBottomDelegation cfg s m c d bond more = .ok (true,
        resetBottomData cfg (resetTopData cfg s m c top').1 bottom',
        { (resetTopData cfg s m c top').2 with
          topDelegations := Function.update (resetTopData cfg s m c top').2.topDelegations c (some top'),
          bottomDelegations := Function.update (resetTopData cfg s m c top').2.bottomDelegations c
            (some bottom') }) := by
      unfold increaseBottomDelegation
      simp only [hbot, takeOut_eq hndB hm, htop, hcap, hz, gt_iff_lt, hgt]
      rfl
    have hdescT : DescBonds top.delegations.dropLast :=
      hs.lists.topDesc.sublist (List.dropLast_sublist _)
    have hdescB : DescBonds (bottom.delegations.filter (·.owner ≠ d)) :=
      hs.lists.bottomDesc.sublist List.filter_sublist
    have hpermT := (insertSortedGreatestToLeast_spec (d := ⟨top.delegations.dropLast,
      top.total - z.amount⟩) hdescT ⟨d, bond + more⟩).2
    have hpermB := (insertSortedGreatestToLeast_spec (d := ⟨bottom.delegations.filter (·.owner ≠ d),
      bottom.total - bond⟩) hdescB z).2
    have hcachesT : TopCaches cfg (resetTopData cfg s m c top').1 top' :=
      (caches_resetTopData cfg hs.bottomCaches).1
    have hlenT : top.delegations.dropLast.length + 1 = top.delegations.length := by
      rw [List.length_dropLast]
      have := List.length_pos_iff.2 (List.ne_nil_of_mem (List.mem_of_getLast? hz))
      omega
    refine ⟨true, _, _, heq, top', bottom', ⟨by simp, by simp, by simp, ?_⟩, ⟨?_, ?_, rfl⟩, ?_, ?_,
      by simp [Quiet]⟩
    · refine ⟨hs.lists.bump List.filter_sublist hfull hz hzx ?_ _ _, ?_,
        (caches_resetBottomData cfg hcachesT).1, (caches_resetBottomData cfg hcachesT).2⟩
      · -- `d` is in no list once its bond is out of the bottom one
        rw [owners_append, List.mem_append, not_or]
        refine ⟨hdT, fun hd => ?_⟩
        obtain ⟨a, ha⟩ := mem_owners.1 hd
        exact absurd (List.mem_filter.1 ha).2 (by simp)
      · refine total_insertSortedGreatestToLeast hdescT ?_ _
        have hsum := sum_amounts_dropLast hz
        have htotal := hs.topTotal
        show top.total - z.amount = (amounts top.delegations.dropLast).sum
        omega
    · rw [length_insertSortedGreatestToLeast hdescT, hlenT]
      exact hf.topLength
    · rw [length_insertSortedGreatestToLeast hdescB]
      have := (perm_cons_filter hndB hm).length_eq
      have := hf.bottomLength
      simp only [List.length_cons] at *
      omega
    · rw [List.filter_append, hfilterT]
      exact (hpermT.append hpermB).trans (.cons _ (List.perm_middle.trans
        ((perm_cons_dropLast hz).symm.append_right _)))
    · simp only [true_iff]
      exact mem_owners.2 ⟨bond + more, hpermT.mem_iff.2 List.mem_cons_self⟩
  · -- below: the bond grows in place
    have hle : bond + more ≤ m.lowestTopDelegationAmount := not_lt.1 hgt
    obtain ⟨hperm, hin⟩ := mapOwner_perm hndB hm (· + more)
    set bottom₁ : Delegations A := ⟨(mapOwner bottom.delegations d (· + more)).1, bottom.total + more⟩
    obtain ⟨hdesc, hsort⟩ := sortGreatestToLeast_spec bottom₁
    have hp : bottom₁.sortGreatestToLeast.delegations.Perm
        (⟨d, bond + more⟩ :: bottom.delegations.filter (·.owner ≠ d)) := hsort.trans hperm
    have hmo : mapOwner bottom.delegations d (· + more) = (bottom₁.delegations, true) :=
      Prod.ext rfl hin
    have heq : increaseBottomDelegation cfg s m c d bond more = .ok (false,
        resetBottomData cfg m bottom₁.sortGreatestToLeast,
        { s with
          bottomDelegations := Function.update s.bottomDelegations c (some bottom₁.sortGreatestToLeast) }) := by
      unfold increaseBottomDelegation
      simp only [hbot, gt_iff_lt, hgt, hmo]
      rfl
    refine ⟨false, _, _, heq, top, bottom₁.sortGreatestToLeast,
      ⟨by rw [← htop, Function.update_eq_self], rfl, rfl, ?_⟩, ⟨hf.topLength, ?_, rfl⟩, ?_, ?_,
      ⟨rfl, rfl⟩⟩
    · refine ⟨hs.lists.replaceBottom hm hdesc hp fun t ht => ?_, hs.topTotal,
        (caches_resetBottomData cfg hs.topCaches).1, (caches_resetBottomData cfg hs.topCaches).2⟩
      exact hle.trans (hs.topCaches.lowestTop ▸ lowestDelegationAmount_le hs.lists.topDesc t ht)
    · have h₁ := hp.length_eq
      have h₂ := (perm_cons_filter hndB hm).length_eq
      have := hf.bottomLength
      simp only [List.length_cons] at h₁ h₂
      omega
    · rw [List.filter_append, hfilterT]
      exact (hp.append_left _).trans List.perm_middle
    · simp only [Bool.false_eq_true, false_iff]
      exact hdT

/-- Where `decrease_top_delegation` finds no bond of the delegator it answers `DelegationDNE`,
    on either arm. -/
theorem decreaseTopDelegation_of_not_mem (htop : s.topDelegations c = some top) {d : A}
    (hd : d ∉ owners top.delegations) (bond less : Nat) :
    decreaseTopDelegation cfg s m c d bond less = .error .delegationDNE := by
  have hnil : top.delegations.filter (fun b => b.owner = d) = [] :=
    List.filter_eq_nil_iff.2 fun b hb hbd => by
      simp only [decide_eq_true_eq] at hbd
      exact hd (hbd ▸ List.mem_map_of_mem hb)
  unfold decreaseTopDelegation
  simp only [htop, hnil, mapOwner_snd_of_not_mem hd]
  split_ifs <;> first | rfl | contradiction

/-- `decrease_top_delegation` of a bond `⟨d, bond⟩` of the top list by at most its amount
    succeeds. Below the highest bottom bond, under a full top list, it swaps places with that
    one; otherwise it shrinks in place. The answer says which. -/
theorem decreaseTopDelegation_ok (hs : CandidateShape cfg m top bottom)
    (hf : Fits cfg m top bottom) (htop : s.topDelegations c = some top)
    (hbot : s.bottomDelegations c = some bottom) (hpos : 0 < cfg.maxBottomDelegationsPerCandidate)
    {d : A} {bond : Nat} (hm : ⟨d, bond⟩ ∈ top.delegations) {less : Nat} (hless : less ≤ bond) :
    ∃ inTop m' s', decreaseTopDelegation cfg s m c d bond less = .ok (inTop, m', s') ∧
      ∃ top' bottom', Wrote cfg c s s' m' top' bottom' ∧ Fits cfg m' top' bottom' ∧
        (top'.delegations ++ bottom'.delegations).Perm
          (⟨d, bond - less⟩ :: (top.delegations ++ bottom.delegations).filter (·.owner ≠ d)) ∧
        (inTop = true ↔ d ∈ owners top'.delegations) ∧ Quiet s s' := by
  have hnd := hs.lists.ownersNodup
  have hndT : (owners top.delegations).Nodup := hnd.sublist (by simp)
  have hdT : d ∈ owners top.delegations := mem_owners.2 ⟨bond, hm⟩
  have hdB : d ∉ owners bottom.delegations := not_mem_owners_right hnd hdT
  have hfilterB : bottom.delegations.filter (·.owner ≠ d) = bottom.delegations :=
    filter_owner_ne_of_not_mem hdB
  have hcapB := bottomCapacity_ne_empty_iff (d := bottom) hpos
  rw [← hs.bottomCaches.bottomCapacity] at hcapB
  by_cases hswap : bond - less < m.highestBottomDelegationAmount ∧
      (m.topCapacity = .full ∧ m.bottomCapacity ≠ .empty)
  · -- the bond goes down, and the highest bottom bond up
    obtain ⟨hlt, hfullC, hne⟩ := hswap
    obtain ⟨highest, others, hho⟩ := List.exists_cons_of_ne_nil (hcapB.1 hne)
    set top' := (⟨top.delegations.filter (·.owner ≠ d), top.total - bond⟩ :
      Delegations A).insertSortedGreatestToLeast highest
    set bottom' := (⟨others, bottom.total - highest.amount⟩ : Delegations A).insertSortedGreatestToLeast
      ⟨d, bond - less⟩
    have heq : decreaseTopDelegation cfg s m c d bond less = .ok (false,
        (resetTopData cfg { s with
          bottomDelegations := Function.update s.bottomDelegations c (some bottom') }
          (resetBottomData cfg m bottom') c top').1,
        { (resetTopData cfg { s with
            bottomDelegations := Function.update s.bottomDelegations c (some bottom') }
            (resetBottomData cfg m bottom') c top').2 with
          topDelegations := Function.update (resetTopData cfg { s with
            bottomDelegations := Function.update s.bottomDelegations c (some bottom') }
            (resetBottomData cfg m bottom') c top').2.topDelegations c (some top') }) := by
      unfold decreaseTopDelegation
      simp only [htop, hbot, hho, filter_owner_eq hndT hm, hlt, hfullC, true_and,
        List.getLast?_singleton, Option.map_some, List.foldl_cons, List.foldl_nil]
      rw [if_pos hne]
      rfl
    have hshape : ListsShape cfg top.delegations (highest :: others) := hho ▸ hs.lists
    have hdescF : DescBonds (top.delegations.filter (·.owner ≠ d)) :=
      hs.lists.topDesc.sublist List.filter_sublist
    have hdescO : DescBonds others := (List.pairwise_cons.1 hshape.bottomDesc).2
    have hpermT : top'.delegations.Perm (highest :: top.delegations.filter (·.owner ≠ d)) :=
      (insertSortedGreatestToLeast_spec hdescF highest).2
    have hpermB : bottom'.delegations.Perm (⟨d, bond - less⟩ :: others) :=
      (insertSortedGreatestToLeast_spec hdescO _).2
    have hlenF := (perm_cons_filter hndT hm).length_eq
    have hlenT := hpermT.length_eq
    simp only [List.length_cons] at hlenF hlenT
    have hhighest : m.highestBottomDelegationAmount = highest.amount := by
      rw [hs.bottomCaches.highestBottom, Delegations.highestDelegationAmount, hho]
      rfl
    have hmemB : highest ∈ bottom.delegations := hho ▸ List.mem_cons_self
    -- the shrunk bond is below every top bond left, the promoted one included
    have hx : ∀ t ∈ top'.delegations, bond - less ≤ t.amount := by
      intro t ht
      rcases List.mem_cons.1 (hpermT.mem_iff.1 ht) with rfl | ht
      · rw [← hhighest]
        exact hlt.le
      · exact (hhighest ▸ hlt).le.trans
          (hs.lists.topAboveBottom t (List.mem_of_mem_filter ht) highest hmemB)
    have hfresh : d ∉ owners (top'.delegations ++ others) := by
      intro hd
      obtain ⟨a, ha⟩ := mem_owners.1 hd
      rcases List.mem_append.1 ha with ha | ha
      · rcases List.mem_cons.1 (hpermT.mem_iff.1 ha) with ha | ha
        · exact hdB (mem_owners.2 ⟨a, ha ▸ hmemB⟩)
        · exact absurd (List.mem_filter.1 ha).2 (by simp)
      · exact hdB (mem_owners.2 ⟨a, hho ▸ List.mem_cons_of_mem _ ha⟩)
    have hcachesB : BottomCaches cfg (resetBottomData cfg m bottom') bottom' :=
      (caches_resetBottomData cfg hs.topCaches).2
    refine ⟨false, _, _, heq, top', bottom', ⟨by simp, by simp, by simp, ?_⟩, ⟨?_, ?_, ?_⟩, ?_, ?_,
      by simp [Quiet]⟩
    · refine ⟨(hshape.promote hm _).insertBottom (List.Sublist.refl _) ?_ hx hfresh _, ?_,
        (caches_resetTopData cfg hcachesB).1, (caches_resetTopData cfg hcachesB).2⟩
      · show cfg.maxTopDelegationsPerCandidate ≤ top'.delegations.length
        have := hs.lists.topFull (List.ne_nil_of_mem hmemB)
        omega
      · refine total_insertSortedGreatestToLeast hdescF ?_ _
        have hsum := sum_amounts_filter hndT hm
        have htotal := hs.topTotal
        show top.total - bond = (amounts (top.delegations.filter (·.owner ≠ d))).sum
        omega
    · have := hf.topLength
      omega
    · rw [length_insertSortedGreatestToLeast hdescO]
      have := hf.bottomLength
      rw [hho, List.length_cons] at this
      exact this
    · simp [resetTopData_fst, resetBottomData]
    · rw [List.filter_append, hfilterB, hho]
      exact (hpermT.append hpermB).trans (List.perm_middle.trans
        (.cons _ (List.perm_middle.symm)))
    · simp only [Bool.false_eq_true, false_iff]
      intro hd
      exact hfresh (by rw [owners_append]; exact List.mem_append_left _ hd)
  · -- the bond shrinks in place, and stays at least the highest bottom bond
    obtain ⟨hperm, hin⟩ := mapOwner_perm hndT hm (· - less)
    set top₁ : Delegations A := ⟨(mapOwner top.delegations d (· - less)).1, top.total - less⟩
    obtain ⟨hdesc, hsort⟩ := sortGreatestToLeast_spec top₁
    have hp : top₁.sortGreatestToLeast.delegations.Perm
        (⟨d, bond - less⟩ :: top.delegations.filter (·.owner ≠ d)) := hsort.trans hperm
    have hmo : mapOwner top.delegations d (· - less) = (top₁.delegations, true) := Prod.ext rfl hin
    have heq : decreaseTopDelegation cfg s m c d bond less = .ok (true,
        (resetTopData cfg s m c top₁.sortGreatestToLeast).1,
        { (resetTopData cfg s m c top₁.sortGreatestToLeast).2 with
          topDelegations := Function.update (resetTopData cfg s m c top₁.sortGreatestToLeast).2.topDelegations
            c (some top₁.sortGreatestToLeast) }) := by
      unfold decreaseTopDelegation
      simp only [htop, hmo]
      rw [if_neg hswap]
      rfl
    have hb : ∀ b ∈ bottom.delegations, b.amount ≤ bond - less := by
      intro b hb
      have hfullT := hs.lists.topFull (List.ne_nil_of_mem hb)
      have hcapT : m.topCapacity = .full := by
        rw [hs.topCaches.topCapacity]
        simp [Delegations.topCapacity, hfullT]
      have hge : m.highestBottomDelegationAmount ≤ bond - less :=
        not_lt.1 fun hlt => hswap ⟨hlt, hcapT, hcapB.2 (List.ne_nil_of_mem hb)⟩
      rw [hs.bottomCaches.highestBottom] at hge
      exact (le_highestDelegationAmount hs.lists.bottomDesc b hb).trans hge
    refine ⟨true, _, _, heq, top₁.sortGreatestToLeast, bottom, ⟨by simp, ?_, by simp, ?_⟩,
      ⟨?_, hf.bottomLength, ?_⟩, ?_, ?_, by simp [Quiet]⟩
    · rw [resetTopData_bottomDelegations, ← hbot, Function.update_eq_self]
    · refine ⟨hs.lists.replaceTop hm hdesc hp hb, ?_,
        (caches_resetTopData cfg hs.bottomCaches).1, (caches_resetTopData cfg hs.bottomCaches).2⟩
      have hsum := sum_amounts_replace hndT hm hp
      have htotal := hs.topTotal
      show top.total - less = _
      omega
    · have h₁ := hp.length_eq
      have h₂ := (perm_cons_filter hndT hm).length_eq
      have := hf.topLength
      simp only [List.length_cons] at h₁ h₂
      omega
    · simp [resetTopData_fst, hf.lowestBottom]
    · rw [List.filter_append, hfilterB]
      exact hp.append_right _
    · simp only [true_iff]
      exact mem_owners.2 ⟨_, hp.mem_iff.2 List.mem_cons_self⟩

/-- `decrease_bottom_delegation` of a bond `⟨d, bond⟩` of the bottom list succeeds, and the
    bond shrinks in place. -/
theorem decreaseBottomDelegation_ok (hs : CandidateShape cfg m top bottom)
    (hf : Fits cfg m top bottom) (htop : s.topDelegations c = some top)
    (hbot : s.bottomDelegations c = some bottom) {d : A} {bond : Nat}
    (hm : ⟨d, bond⟩ ∈ bottom.delegations) (less : Nat) :
    ∃ m' s', decreaseBottomDelegation cfg s m c d less = .ok (false, m', s') ∧
      ∃ bottom', Wrote cfg c s s' m' top bottom' ∧ Fits cfg m' top bottom' ∧
        bottom'.delegations.Perm (⟨d, bond - less⟩ :: bottom.delegations.filter (·.owner ≠ d)) ∧
        Quiet s s' := by
  have hndB : (owners bottom.delegations).Nodup := hs.lists.ownersNodup.sublist (by simp)
  obtain ⟨hperm, hin⟩ := mapOwner_perm hndB hm (· - less)
  set bottom₁ : Delegations A := ⟨(mapOwner bottom.delegations d (· - less)).1, bottom.total⟩
  obtain ⟨hdesc, hsort⟩ := sortGreatestToLeast_spec bottom₁
  have hp : bottom₁.sortGreatestToLeast.delegations.Perm
      (⟨d, bond - less⟩ :: bottom.delegations.filter (·.owner ≠ d)) := hsort.trans hperm
  have hmo : mapOwner bottom.delegations d (· - less) = (bottom₁.delegations, true) :=
    Prod.ext rfl hin
  have heq : decreaseBottomDelegation cfg s m c d less = .ok (false,
      resetBottomData cfg m bottom₁.sortGreatestToLeast,
      { s with
        bottomDelegations := Function.update s.bottomDelegations c (some bottom₁.sortGreatestToLeast) }) := by
    unfold decreaseBottomDelegation
    simp only [hbot, hmo]
    rfl
  refine ⟨_, _, heq, bottom₁.sortGreatestToLeast, ⟨by rw [← htop, Function.update_eq_self], rfl, rfl, ?_⟩,
    ⟨hf.topLength, ?_, rfl⟩, hp, ⟨rfl, rfl⟩⟩
  · -- the bond only got lighter, so it is still below every top bond
    refine ⟨hs.lists.replaceBottom hm hdesc hp fun t ht => ?_, hs.topTotal,
      (caches_resetBottomData cfg hs.topCaches).1, (caches_resetBottomData cfg hs.topCaches).2⟩
    exact (Nat.sub_le _ _).trans (hs.lists.topAboveBottom t ht _ hm)
  · have h₁ := hp.length_eq
    have h₂ := (perm_cons_filter hndB hm).length_eq
    have := hf.bottomLength
    simp only [List.length_cons] at h₁ h₂
    omega

/-- `decrease_delegation` of a bond `⟨d, bond⟩` of either list by at most `bond`: the dispatch
    on the cached amounts finds it, and the method writes the lists with the bond shrunk and no
    delegator state or request. -/
theorem decreaseDelegation_spec (hs : CandidateShape cfg m top bottom)
    (hf : Fits cfg m top bottom) (htop : s.topDelegations c = some top)
    (hbot : s.bottomDelegations c = some bottom) (hposT : 0 < cfg.maxTopDelegationsPerCandidate)
    (hposB : 0 < cfg.maxBottomDelegationsPerCandidate) {d : A} {bond : Nat}
    (hm : ⟨d, bond⟩ ∈ top.delegations ++ bottom.delegations) {less : Nat} (hless : less ≤ bond) :
    ∃ inTop m' s', decreaseDelegation cfg s m c d bond less = .ok (inTop, m', s') ∧
      ∃ top' bottom', Wrote cfg c s s' m' top' bottom' ∧ Fits cfg m' top' bottom' ∧
        (top'.delegations ++ bottom'.delegations).Perm
          (⟨d, bond - less⟩ :: (top.delegations ++ bottom.delegations).filter (·.owner ≠ d)) ∧
        (inTop = true ↔ d ∈ owners top'.delegations) ∧ Quiet s s' := by
  have hnd := hs.lists.ownersNodup
  rcases List.mem_append.1 hm with hmT | hmB
  · -- a top bond: every arm that reaches it runs `decrease_top_delegation` first
    have hge := hs.lowestTop_le hmT
    obtain ⟨inTop, m', s', heq, rest⟩ := decreaseTopDelegation_ok hs hf htop hbot hposB hmT hless
    refine ⟨inTop, m', s', ?_, rest⟩
    unfold decreaseDelegation
    dsimp only
    by_cases hsame : m.lowestTopDelegationAmount = m.highestBottomDelegationAmount
    · rw [if_neg (fun h => h.2 hsame), if_pos ⟨hge, hsame⟩, heq]
    · rw [if_pos ⟨hge, hsame⟩, heq]
  · -- a bottom bond: the top arm is taken only on a tie of the cached amounts, and misses
    have hdB : d ∈ owners bottom.delegations := mem_owners.2 ⟨bond, hmB⟩
    have hdT : d ∉ owners top.delegations := not_mem_owners_left hnd hdB
    have hfilterT : top.delegations.filter (·.owner ≠ d) = top.delegations :=
      filter_owner_ne_of_not_mem hdT
    obtain ⟨m', s', heq, bottom', hw, hfit, hp, hq⟩ := decreaseBottomDelegation_ok hs hf htop hbot hmB less
    have hres : decreaseDelegation cfg s m c d bond less = .ok (false, m', s') := by
      unfold decreaseDelegation
      dsimp only
      by_cases hge : m.lowestTopDelegationAmount ≤ bond
      · have hsame := hs.lowestTop_eq_of_le hposT hmB hge
        rw [if_neg (fun h => h.2 hsame), if_pos ⟨hge, hsame⟩,
          decreaseTopDelegation_of_not_mem htop hdT]
        exact heq
      · rw [if_neg (fun h => hge h.1), if_neg (fun h => hge h.1)]
        exact heq
    refine ⟨false, m', s', hres, top, bottom', hw, hfit, ?_, ?_, hq⟩
    · rw [List.filter_append, hfilterT]
      exact (hp.append_left _).trans List.perm_middle
    · simp only [Bool.false_eq_true, false_iff]
      exact hdT

/-- **`decrease_delegation` keeps the shape.** On lists with the shape, for a bond
    `⟨d, bond⟩` of either list and a decrease of at most `bond`, the dispatch on the cached
    amounts finds the bond, and the lists written back keep the shape and their bounds and hold
    `⟨d, bond - less⟩` in its place. The answer says whether it ended in the top list. -/
theorem decreaseDelegation_keeps_shape (hs : CandidateShape cfg m top bottom)
    (hf : Fits cfg m top bottom) (htop : s.topDelegations c = some top)
    (hbot : s.bottomDelegations c = some bottom) (hposT : 0 < cfg.maxTopDelegationsPerCandidate)
    (hposB : 0 < cfg.maxBottomDelegationsPerCandidate) {d : A} {bond : Nat}
    (hm : ⟨d, bond⟩ ∈ top.delegations ++ bottom.delegations) {less : Nat} (hless : less ≤ bond) :
    ∃ inTop m' s', decreaseDelegation cfg s m c d bond less = .ok (inTop, m', s') ∧
      ∃ top' bottom', Wrote cfg c s s' m' top' bottom' ∧ Fits cfg m' top' bottom' ∧
        (top'.delegations ++ bottom'.delegations).Perm
          (⟨d, bond - less⟩ :: (top.delegations ++ bottom.delegations).filter (·.owner ≠ d)) ∧
        (inTop = true ↔ d ∈ owners top'.delegations) := by
  obtain ⟨inTop, m', s', heq, top', bottom', hw, hfit, hp, hin, -⟩ :=
    decreaseDelegation_spec hs hf htop hbot hposT hposB hm hless
  exact ⟨inTop, m', s', heq, top', bottom', hw, hfit, hp, hin⟩

/-- `⟨2, 8⟩` falls to `2`, below the bottom list's `3`, and the two swap lists. -/
theorem decreaseDelegation_keeps_shape_at_fullTop : ∃ inTop m' s',
    decreaseDelegation mockConfig fullTopState fullTopMetadata 1 2 8 6 = .ok (inTop, m', s') ∧
      ∃ top' bottom', Wrote mockConfig 1 fullTopState s' m' top' bottom' ∧
        Fits mockConfig m' top' bottom' ∧
        (top'.delegations ++ bottom'.delegations).Perm
          (⟨2, 8 - 6⟩ :: (fullTop.delegations ++ oneBottom.delegations).filter (·.owner ≠ 2)) ∧
        (inTop = true ↔ 2 ∈ owners top'.delegations) :=
  decreaseDelegation_keeps_shape fullTop_shape fullTop_fits rfl rfl (by decide) (by decide)
    (show (⟨2, 8⟩ : Bond Nat) ∈ fullTop.delegations ++ oneBottom.delegations by decide)
    (show 6 ≤ 8 by decide)

/-- What a successful `rm_delegation_if_exists` did, whichever arm it took: it ended in
    `rm_top_delegation` or `rm_bottom_delegation`, so the delegator had a bond on the lists and
    it is gone. -/
theorem rmDelegationIfExists_wrote (hs : CandidateShape cfg m top bottom)
    (hf : Fits cfg m top bottom) (htop : s.topDelegations c = some top)
    (hbot : s.bottomDelegations c = some bottom) {d : A} {amount : Nat} {same : Bool}
    (h : rmDelegationIfExists cfg s m c d amount = .ok (same, m', s')) :
    ∃ top' bottom', Wrote cfg c s s' m' top' bottom' ∧ Fits cfg m' top' bottom' ∧
      (top'.delegations ++ bottom'.delegations).Perm
        ((top.delegations ++ bottom.delegations).filter (·.owner ≠ d)) ∧
      d ∈ owners (top.delegations ++ bottom.delegations) ∧ Quiet s s' := by
  suffices harm : rmTopDelegation cfg s m c d = .ok (same, m', s') ∨
      rmBottomDelegation cfg s m c d = .ok (same, m', s') by
    rcases harm with h' | h'
    · obtain ⟨top', bottom', hw, hfit, hp, hd, hq⟩ := rmTopDelegation_wrote hs hf htop hbot h'
      exact ⟨top', bottom', hw, hfit, hp, by simp [hd], hq⟩
    · obtain ⟨top', bottom', hw, hfit, hp, hd, hq⟩ := rmBottomDelegation_wrote hs hf hbot htop h'
      exact ⟨top', bottom', hw, hfit, hp, by simp [hd], hq⟩
  unfold rmDelegationIfExists at h
  dsimp only at h
  split_ifs at h
  · exact .inl h
  · -- on a tie a miss in the top list falls back to the bottom list
    split at h
    · exact .inr h
    · exact .inl h
  · exact .inr h

/-- `rm_delegation_if_exists` of a bond on the lists succeeds: whichever arm the cached amounts
    pick reaches the list that holds it. -/
theorem rmDelegationIfExists_isOk (hs : CandidateShape cfg m top bottom)
    (htop : s.topDelegations c = some top) (hbot : s.bottomDelegations c = some bottom)
    (hposT : 0 < cfg.maxTopDelegationsPerCandidate)
    (hposB : 0 < cfg.maxBottomDelegationsPerCandidate) {d : A} {amount : Nat}
    (hm : ⟨d, amount⟩ ∈ top.delegations ++ bottom.delegations) :
    ∃ r, rmDelegationIfExists cfg s m c d amount = .ok r := by
  have hnd := hs.lists.ownersNodup
  rcases List.mem_append.1 hm with hmT | hmB
  · -- a top bond: every arm that reaches it runs `rm_top_delegation` first
    have hge := hs.lowestTop_le hmT
    obtain ⟨r, heq⟩ := rmTopDelegation_isOk hs htop hbot hposB hmT
    refine ⟨r, ?_⟩
    unfold rmDelegationIfExists
    dsimp only
    by_cases hsame : m.lowestTopDelegationAmount = m.highestBottomDelegationAmount
    · by_cases hfull : m.topCapacity ≠ .full
      · rw [if_pos (.inl hfull), heq]
      · rw [if_neg (fun h => h.elim hfull fun h => h.2 hsame), if_pos ⟨hge, hsame⟩, heq]
    · rw [if_pos (.inr ⟨hge, hsame⟩), heq]
  · -- a bottom bond: the top list is full, and the top arm is taken only on a tie, and misses
    have hdT : d ∉ owners top.delegations := not_mem_owners_left hnd (mem_owners.2 ⟨amount, hmB⟩)
    have hfull : m.topCapacity = .full := by
      rw [hs.topCaches.topCapacity]
      simp [Delegations.topCapacity, hs.lists.topFull (List.ne_nil_of_mem hmB)]
    obtain ⟨r, heq⟩ := rmBottomDelegation_isOk hs hbot hmB
    refine ⟨r, ?_⟩
    unfold rmDelegationIfExists
    dsimp only
    by_cases hge : m.lowestTopDelegationAmount ≤ amount
    · have hsame := hs.lowestTop_eq_of_le hposT hmB hge
      rw [if_neg (fun h => h.elim (· hfull) fun h => h.2 hsame), if_pos ⟨hge, hsame⟩,
        rmTopDelegation_of_not_mem htop hdT]
      exact heq
    · rw [if_neg (fun h => h.elim (· hfull) fun h => hge h.1), if_neg (fun h => hge h.1)]
      exact heq

/-- **`rm_delegation_if_exists` keeps the shape.** On lists with the shape, for a bond
    `⟨d, amount⟩` of either list, the dispatch on the cached amounts finds the bond, and the
    lists written back keep the shape and their bounds and hold every bond but `d`'s; no
    delegator state or request is written. -/
theorem rmDelegationIfExists_keeps_shape (hs : CandidateShape cfg m top bottom)
    (hf : Fits cfg m top bottom) (htop : s.topDelegations c = some top)
    (hbot : s.bottomDelegations c = some bottom) (hposT : 0 < cfg.maxTopDelegationsPerCandidate)
    (hposB : 0 < cfg.maxBottomDelegationsPerCandidate) {d : A} {amount : Nat}
    (hm : ⟨d, amount⟩ ∈ top.delegations ++ bottom.delegations) :
    ∃ same m' s', rmDelegationIfExists cfg s m c d amount = .ok (same, m', s') ∧
      ∃ top' bottom', Wrote cfg c s s' m' top' bottom' ∧ Fits cfg m' top' bottom' ∧
        (top'.delegations ++ bottom'.delegations).Perm
          ((top.delegations ++ bottom.delegations).filter (·.owner ≠ d)) ∧ Quiet s s' := by
  obtain ⟨⟨same, m', s'⟩, heq⟩ := rmDelegationIfExists_isOk hs htop hbot hposT hposB hm
  obtain ⟨top', bottom', hw, hfit, hp, -, hq⟩ := rmDelegationIfExists_wrote hs hf htop hbot heq
  exact ⟨same, m', s', heq, top', bottom', hw, hfit, hp, hq⟩

/-- `3` leaves `fullTop`, and the bottom list's one bond moves up into its place. -/
theorem rmDelegationIfExists_keeps_shape_at_fullTop : ∃ same m' s',
    rmDelegationIfExists mockConfig fullTopState fullTopMetadata 1 3 6 = .ok (same, m', s') ∧
      ∃ top' bottom', Wrote mockConfig 1 fullTopState s' m' top' bottom' ∧
        Fits mockConfig m' top' bottom' ∧
        (top'.delegations ++ bottom'.delegations).Perm
          ((fullTop.delegations ++ oneBottom.delegations).filter (·.owner ≠ 3)) ∧
        Quiet fullTopState s' :=
  rmDelegationIfExists_keeps_shape fullTop_shape fullTop_fits rfl rfl (by decide) (by decide)
    (show (⟨3, 6⟩ : Bond Nat) ∈ fullTop.delegations ++ oneBottom.delegations by decide)

/-- `increase_delegation` of a bond `⟨d, bond⟩` of either list: the dispatch on the cached
    amounts finds it, and the method writes the lists with the bond grown and no delegator
    state or request. -/
theorem increaseDelegation_spec (hs : CandidateShape cfg m top bottom)
    (hf : Fits cfg m top bottom) (htop : s.topDelegations c = some top)
    (hbot : s.bottomDelegations c = some bottom) (hpos : 0 < cfg.maxTopDelegationsPerCandidate)
    {d : A} {bond : Nat} (hm : ⟨d, bond⟩ ∈ top.delegations ++ bottom.delegations) (more : Nat) :
    ∃ inTop m' s', increaseDelegation cfg s m c d bond more = .ok (inTop, m', s') ∧
      ∃ top' bottom', Wrote cfg c s s' m' top' bottom' ∧ Fits cfg m' top' bottom' ∧
        (top'.delegations ++ bottom'.delegations).Perm
          (⟨d, bond + more⟩ :: (top.delegations ++ bottom.delegations).filter (·.owner ≠ d)) ∧
        (inTop = true ↔ d ∈ owners top'.delegations) ∧ Quiet s s' := by
  have hnd := hs.lists.ownersNodup
  rcases List.mem_append.1 hm with hmT | hmB
  · -- a top bond: every arm that reaches it runs `increase_top_delegation` first
    have hge := hs.lowestTop_le hmT
    have hdT : d ∈ owners top.delegations := mem_owners.2 ⟨bond, hmT⟩
    have hfilterB : bottom.delegations.filter (·.owner ≠ d) = bottom.delegations :=
      filter_owner_ne_of_not_mem (not_mem_owners_right hnd hdT)
    obtain ⟨m', s', heq, top', hw, hfit, hp, hq⟩ := increaseTopDelegation_ok hs hf htop hbot hmT more
    have hres : increaseDelegation cfg s m c d bond more = .ok (true, m', s') := by
      unfold increaseDelegation
      dsimp only
      by_cases hsame : m.lowestTopDelegationAmount = m.highestBottomDelegationAmount
      · rw [if_neg (fun h => h.2 hsame), if_pos ⟨hge, hsame⟩, heq]
      · rw [if_pos ⟨hge, hsame⟩, heq]
    refine ⟨true, m', s', hres, top', bottom, hw, hfit, ?_, ?_, hq⟩
    · rw [List.filter_append, hfilterB]
      exact hp.append_right _
    · simp only [true_iff]
      exact mem_owners.2 ⟨_, hp.mem_iff.2 List.mem_cons_self⟩
  · -- a bottom bond: the top arm is taken only on a tie of the cached amounts, and misses
    have hdT : d ∉ owners top.delegations := not_mem_owners_left hnd (mem_owners.2 ⟨bond, hmB⟩)
    obtain ⟨inTop, m', s', heq, rest⟩ := increaseBottomDelegation_ok hs hf htop hbot hpos hmB more
    refine ⟨inTop, m', s', ?_, rest⟩
    unfold increaseDelegation
    dsimp only
    by_cases hge : m.lowestTopDelegationAmount ≤ bond
    · have hsame := hs.lowestTop_eq_of_le hpos hmB hge
      rw [if_neg (fun h => h.2 hsame), if_pos ⟨hge, hsame⟩,
        increaseTopDelegation_of_not_mem htop hdT]
      exact heq
    · rw [if_neg (fun h => hge h.1), if_neg (fun h => hge h.1)]
      exact heq

/-- **`increase_delegation` keeps the shape.** On lists with the shape, for a bond
    `⟨d, bond⟩` of either list, the dispatch on the cached amounts finds the bond, and the
    lists written back keep the shape and their bounds and hold `⟨d, bond + more⟩` in its
    place. The answer says whether it ended in the top list. -/
theorem increaseDelegation_keeps_shape (hs : CandidateShape cfg m top bottom)
    (hf : Fits cfg m top bottom) (htop : s.topDelegations c = some top)
    (hbot : s.bottomDelegations c = some bottom) (hpos : 0 < cfg.maxTopDelegationsPerCandidate)
    {d : A} {bond : Nat} (hm : ⟨d, bond⟩ ∈ top.delegations ++ bottom.delegations) (more : Nat) :
    ∃ inTop m' s', increaseDelegation cfg s m c d bond more = .ok (inTop, m', s') ∧
      ∃ top' bottom', Wrote cfg c s s' m' top' bottom' ∧ Fits cfg m' top' bottom' ∧
        (top'.delegations ++ bottom'.delegations).Perm
          (⟨d, bond + more⟩ :: (top.delegations ++ bottom.delegations).filter (·.owner ≠ d)) ∧
        (inTop = true ↔ d ∈ owners top'.delegations) := by
  obtain ⟨inTop, m', s', heq, top', bottom', hw, hfit, hp, hin, -⟩ :=
    increaseDelegation_spec hs hf htop hbot hpos hm more
  exact ⟨inTop, m', s', heq, top', bottom', hw, hfit, hp, hin⟩

/-- The bottom bond `⟨6, 3⟩` grows to `8` and moves up into the full top list, whose lowest bond it bumps. -/
theorem increaseDelegation_keeps_shape_at_fullTop : ∃ inTop m' s',
    increaseDelegation mockConfig fullTopState fullTopMetadata 1 6 3 5 = .ok (inTop, m', s') ∧
      ∃ top' bottom', Wrote mockConfig 1 fullTopState s' m' top' bottom' ∧
        Fits mockConfig m' top' bottom' ∧
        (top'.delegations ++ bottom'.delegations).Perm
          (⟨6, 3 + 5⟩ :: (fullTop.delegations ++ oneBottom.delegations).filter (·.owner ≠ 6)) ∧
        (inTop = true ↔ 6 ∈ owners top'.delegations) :=
  increaseDelegation_keeps_shape fullTop_shape fullTop_fits rfl rfl (by decide)
    (show (⟨6, 3⟩ : Bond Nat) ∈ fullTop.delegations ++ oneBottom.delegations by decide) 5

end Methods

end Staking
end Litentry
