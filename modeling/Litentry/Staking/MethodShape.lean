import Litentry.Staking.Shape

/-!
# The candidate methods keep the shape

Each method of `CandidateMetadata` that edits a candidate's lists, run from a state
whose lists of `c` have the `CandidateShape` with the metadata `m` it was given, writes
back lists that have it with the metadata it answers (`Wrote`), and moves the bonds of
the two lists as its name says: `rm_*_delegation` drops the delegator's bond, the
increase and decrease methods change its amount, `add_*_delegation` adds one and may kick
the lowest bottom bond. The statements are about the two lists together,
`top ++ bottom`, up to order, since which list a bond sits in is the shape's business.
-/

set_option autoImplicit false

namespace Litentry
namespace Staking

variable {A C : Type} [LinearOrder A]

open SortedVec CandidateMetadata

/-- A method on candidate `c` ran from `s` to `s'`: it wrote the lists `top'` and
    `bottom'` of `c` with the shape and the metadata `m'` read off them, and wrote no
    other list and no stored metadata. -/
structure Wrote (cfg : Config) (c : A) (s s' : State A C) (m' : CandidateMetadata)
    (top' bottom' : Delegations A) : Prop where
  top : s'.topDelegations = Function.update s.topDelegations c (some top')
  bottom : s'.bottomDelegations = Function.update s.bottomDelegations c (some bottom')
  candidateInfo : s'.candidateInfo = s.candidateInfo
  shape : CandidateShape cfg m' top' bottom'

/-- The rest of what the methods keep of a candidate: each list within its bound, and the
    lowest bottom amount `add_delegation` compares with read off the bottom list. -/
structure Fits (cfg : Config) (m : CandidateMetadata) (top bottom : Delegations A) : Prop where
  topLength : top.delegations.length ≤ cfg.maxTopDelegationsPerCandidate
  bottomLength : bottom.delegations.length ≤ cfg.maxBottomDelegationsPerCandidate
  lowestBottom : m.lowestBottomDelegationAmount = bottom.lowestDelegationAmount

/-- The method wrote neither delegator states nor requests. -/
def Quiet (s s' : State A C) : Prop :=
  s'.delegatorState = s.delegatorState ∧
    s'.delegationScheduledRequests = s.delegationScheduledRequests

omit [LinearOrder A] in
theorem owners_nodup_of_perm {l l' : List (Bond A)} (h : (owners l).Nodup) (hp : l'.Perm l) :
    (owners l').Nodup :=
  ((hp.map _).nodup_iff).2 h

omit [LinearOrder A] in
/-- A bottom list losing bonds keeps the shape. -/
theorem ListsShape.filterBottom {cfg : Config} {top bottom : List (Bond A)}
    (h : ListsShape cfg top bottom) (p : Bond A → Bool) : ListsShape cfg top (bottom.filter p) :=
  ⟨h.topDesc, h.bottomDesc.sublist List.filter_sublist,
    fun x hx y hy => h.topAboveBottom x hx y (List.mem_of_mem_filter hy),
    fun hne => h.topFull fun he => hne (by simp [he]),
    h.ownersNodup.sublist ((List.filter_sublist.append_left _).map _)⟩

/-- The top list losing `d`'s bond and taking the highest bottom bond in its place keeps the
    shape: the promoted bond is at least every bond left below, the top list is as long as
    before, and no owner appears twice. -/
theorem ListsShape.promote {cfg : Config} {top others : List (Bond A)} {highest : Bond A}
    (h : ListsShape cfg top (highest :: others)) {d : A} {a : Nat} (hmem : ⟨d, a⟩ ∈ top)
    (total : Nat) :
    ListsShape cfg ((⟨top.filter (·.owner ≠ d), total⟩ : Delegations A).insertSortedGreatestToLeast
      highest).delegations others := by
  have hndtop : (owners top).Nodup := h.ownersNodup.sublist (by simp)
  have hperm := perm_cons_filter hndtop hmem
  obtain ⟨hdesc, hperm'⟩ := insertSortedGreatestToLeast_spec
    (d := ⟨top.filter (·.owner ≠ d), total⟩) (h.topDesc.sublist List.filter_sublist) highest
  refine ⟨hdesc, (List.pairwise_cons.1 h.bottomDesc).2, ?_, ?_, ?_⟩
  · -- the promoted bond heads the old bottom list; the others were above it already
    intro x hx y hy
    rcases List.mem_cons.1 (hperm'.mem_iff.1 hx) with rfl | hx
    · exact DescBonds.le_head h.bottomDesc y (List.mem_cons_of_mem _ hy)
    · exact h.topAboveBottom x (List.mem_of_mem_filter hx) y (List.mem_cons_of_mem _ hy)
  · intro _
    have hfull : cfg.maxTopDelegationsPerCandidate ≤ top.length := h.topFull (by simp)
    have hlen := hperm.length_eq
    rw [hperm'.length_eq]
    simp only [List.length_cons] at hlen ⊢
    omega
  · have hP : (((⟨top.filter (·.owner ≠ d), total⟩ : Delegations A).insertSortedGreatestToLeast
        highest).delegations ++ others).Perm (top.filter (·.owner ≠ d) ++ highest :: others) :=
      (hperm'.append_right others).trans List.perm_middle.symm
    exact owners_nodup_of_perm (h.ownersNodup.sublist ((List.filter_sublist.append_right _).map _)) hP

section Methods

variable {cfg : Config} {s s' : State A C} {m m' : CandidateMetadata} {c d : A}
  {top bottom : Delegations A}

/-- `rm_top_delegation` drops the delegator's bond from the top list, and the highest
    bottom bond, if there is one, takes its place. -/
theorem rmTopDelegation_wrote (hs : CandidateShape cfg m top bottom) (hf : Fits cfg m top bottom)
    (htop : s.topDelegations c = some top) (hbot : s.bottomDelegations c = some bottom)
    {same : Bool} (h : rmTopDelegation cfg s m c d = .ok (same, m', s')) :
    ∃ top' bottom', Wrote cfg c s s' m' top' bottom' ∧ Fits cfg m' top' bottom' ∧
      (top'.delegations ++ bottom'.delegations).Perm
        ((top.delegations ++ bottom.delegations).filter (·.owner ≠ d)) ∧
      d ∈ owners top.delegations ∧ Quiet s s' := by
  unfold rmTopDelegation at h
  dsimp only at h
  split at h
  · rename_i top₀ htop₀
    rw [htop] at htop₀
    cases htop₀
    split at h
    · rename_i a ha
      have hnd := hs.lists.ownersNodup
      have hmem : ⟨d, a⟩ ∈ top.delegations := mem_of_takeOut ha
      have hndtop : (owners top.delegations).Nodup := hnd.sublist (by simp)
      have hdtop : d ∈ owners top.delegations := mem_owners.2 ⟨a, hmem⟩
      have hbot' : bottom.delegations.filter (·.owner ≠ d) = bottom.delegations :=
        filter_owner_ne_of_not_mem (not_mem_owners_right hnd hdtop)
      have hperm := perm_cons_filter hndtop hmem
      have hdesc : DescBonds (top.delegations.filter (·.owner ≠ d)) :=
        hs.lists.topDesc.sublist List.filter_sublist
      rw [takeOut_eq hndtop hmem] at h
      split at h
      · -- the highest bottom bond moves up
        split at h
        · rename_i bottom₀ hbot₀
          rw [hbot] at hbot₀
          cases hbot₀
          split at h
          · rename_i highest others hho
            simp only [pure_bind, Reach.pure_eq_ok, Prod.mk.injEq] at h
            obtain ⟨-, rfl, rfl⟩ := h
            have hshape : ListsShape cfg top.delegations (highest :: others) := hho ▸ hs.lists
            obtain ⟨-, hperm'⟩ := insertSortedGreatestToLeast_spec
              (d := ⟨top.delegations.filter (·.owner ≠ d), top.total - a⟩) hdesc highest
            set rest := top.delegations.filter (·.owner ≠ d)
            -- the new top list and the bottom one hold what the old ones did, but `d`
            have hP : (((⟨rest, top.total - a⟩ : Delegations A).insertSortedGreatestToLeast
                highest).delegations ++ others).Perm (rest ++ bottom.delegations) := by
              rw [hho]
              exact (hperm'.append_right others).trans List.perm_middle.symm
            refine ⟨(⟨rest, top.total - a⟩ : Delegations A).insertSortedGreatestToLeast highest,
              ⟨others, bottom.total - highest.amount⟩, ⟨by simp, by simp, by simp, ?_⟩,
              ⟨?_, ?_, ?_⟩, ?_, hdtop, by simp [Quiet]⟩
            · refine ⟨hshape.promote hmem _, ?_, ?_, ?_⟩
              · have hsum : (amounts top.delegations).sum = a + (amounts rest).sum :=
                  sum_amounts_filter hndtop hmem
                have hsum' : (amounts ((⟨rest, top.total - a⟩ : Delegations A).insertSortedGreatestToLeast
                    highest).delegations).sum = highest.amount + (amounts rest).sum := by
                  rw [amounts, (hperm'.map _).sum_eq]
                  simp [amounts]
                have htotal := hs.topTotal
                rw [insertSortedGreatestToLeast_total, hsum']
                dsimp only
                omega
              · exact ((caches_resetTopData cfg
                  (caches_resetBottomData cfg hs.topCaches).2).1.withCount cfg _)
              · exact ((caches_resetTopData cfg
                  (caches_resetBottomData cfg hs.topCaches).2).2.withCount cfg _)
            · -- the promoted bond takes the place of `d`'s, and the bottom list is one shorter
              have h₁ := hperm'.length_eq
              have h₂ := hperm.length_eq
              have := hf.topLength
              simp only [List.length_cons] at h₁ h₂
              omega
            · have := hf.bottomLength
              rw [hho, List.length_cons] at this
              exact (Nat.le_succ _).trans this
            · simp [resetTopData_fst, resetBottomData]
            · rw [List.filter_append, hbot']
              exact hP
          · exact absurd h Reach.throw_bind_ne_ok
        · exact absurd h Reach.throw_bind_ne_ok
      · -- an empty bottom list: the top list only loses the bond
        rename_i hcap
        have hempty : bottom.delegations = [] := bottomCapacity_eq_empty
          (hs.bottomCaches.bottomCapacity ▸ not_not.1 hcap)
        simp only [pure_bind, Reach.pure_eq_ok, Prod.mk.injEq] at h
        obtain ⟨-, rfl, rfl⟩ := h
        refine ⟨⟨top.delegations.filter (·.owner ≠ d), top.total - a⟩, bottom,
          ⟨by simp, ?_, by simp, ?_⟩, ⟨?_, hf.bottomLength, ?_⟩, ?_, hdtop, by simp [Quiet]⟩
        · rw [← hbot]
          simp
        · refine ⟨⟨hdesc, by simp [hempty, DescBonds, Desc], by simp [hempty], by simp [hempty],
            hnd.sublist ((List.filter_sublist.append_right _).map _)⟩, ?_, ?_, ?_⟩
          · have hsum := sum_amounts_filter hndtop hmem
            have := hs.topTotal
            simp only [amounts] at hsum this ⊢
            omega
          · exact (caches_resetTopData cfg hs.bottomCaches).1.withCount cfg _
          · exact (caches_resetTopData cfg hs.bottomCaches).2.withCount cfg _
        · exact (List.length_filter_le _ _).trans hf.topLength
        · simp [resetTopData_fst, hf.lowestBottom]
        · rw [List.filter_append, hbot']
    · cases h
  · cases h

/-- `rm_bottom_delegation` drops the delegator's bond from the bottom list. -/
theorem rmBottomDelegation_wrote (hs : CandidateShape cfg m top bottom)
    (hf : Fits cfg m top bottom) (hbot : s.bottomDelegations c = some bottom)
    (htop : s.topDelegations c = some top)
    {same : Bool} (h : rmBottomDelegation cfg s m c d = .ok (same, m', s')) :
    ∃ top' bottom', Wrote cfg c s s' m' top' bottom' ∧ Fits cfg m' top' bottom' ∧
      (top'.delegations ++ bottom'.delegations).Perm
        ((top.delegations ++ bottom.delegations).filter (·.owner ≠ d)) ∧
      d ∈ owners bottom.delegations ∧ Quiet s s' := by
  unfold rmBottomDelegation at h
  dsimp only at h
  split at h
  · rename_i bottom₀ hbot₀
    rw [hbot] at hbot₀
    cases hbot₀
    split at h
    · rename_i a ha
      have hnd := hs.lists.ownersNodup
      have hmem : ⟨d, a⟩ ∈ bottom.delegations := mem_of_takeOut ha
      have hndbot : (owners bottom.delegations).Nodup := hnd.sublist (by simp)
      have hdbot : d ∈ owners bottom.delegations := mem_owners.2 ⟨a, hmem⟩
      rw [takeOut_eq hndbot hmem] at h
      simp only [Reach.pure_eq_ok, Prod.mk.injEq] at h
      obtain ⟨-, rfl, rfl⟩ := h
      refine ⟨top, ⟨bottom.delegations.filter (·.owner ≠ d), bottom.total - a⟩,
        ⟨?_, by simp, by simp, ?_⟩, ⟨hf.topLength, (List.length_filter_le _ _).trans hf.bottomLength, rfl⟩,
        ?_, hdbot, by simp [Quiet]⟩
      · rw [← htop]
        simp
      · exact ⟨hs.lists.filterBottom _, hs.topTotal,
          ((caches_resetBottomData cfg hs.topCaches).1.withCount cfg _),
          ((caches_resetBottomData cfg hs.topCaches).2.withCount cfg _)⟩
      · rw [List.filter_append, filter_owner_ne_of_not_mem (not_mem_owners_left hnd hdbot)]
    · cases h
  · cases h

/-- Where `rm_top_delegation` finds no bond of the delegator it answers `DelegationDNE`. -/
theorem rmTopDelegation_of_not_mem (htop : s.topDelegations c = some top)
    (hd : d ∉ owners top.delegations) : rmTopDelegation cfg s m c d = .error .delegationDNE := by
  have hnone : (takeOut top.delegations d).2 = none := by
    simp only [takeOut, Option.map_eq_none_iff, List.getLast?_eq_none_iff,
      List.filter_eq_nil_iff, decide_eq_true_eq]
    exact fun x hx hxd => hd (hxd ▸ List.mem_map_of_mem hx)
  unfold rmTopDelegation
  simp only [htop, hnone]
  rfl

/-- `rm_top_delegation` of a bond of the top list succeeds: a bottom list it has to
    promote from is not empty, as no bottom list is empty while its capacity says
    otherwise. -/
theorem rmTopDelegation_isOk (hs : CandidateShape cfg m top bottom)
    (htop : s.topDelegations c = some top) (hbot : s.bottomDelegations c = some bottom)
    (hpos : 0 < cfg.maxBottomDelegationsPerCandidate) {a : Nat} (hmem : ⟨d, a⟩ ∈ top.delegations) :
    ∃ r, rmTopDelegation cfg s m c d = .ok r := by
  have hnd : (owners top.delegations).Nodup := hs.lists.ownersNodup.sublist (by simp)
  unfold rmTopDelegation
  simp only [htop, takeOut_eq hnd hmem]
  split_ifs with hcap
  · -- a capacity other than `Empty` means a bottom bond to promote
    cases hb : bottom.delegations with
    | nil =>
      have : bottom.bottomCapacity cfg = .empty := by
        simp [Delegations.bottomCapacity, hb, Nat.not_le.2 hpos]
      exact absurd (hs.bottomCaches.bottomCapacity.trans this) hcap
    | cons highest others =>
      simp only [hbot, hb]
      exact ⟨_, rfl⟩
  · exact ⟨_, rfl⟩

theorem rmBottomDelegation_isOk (hs : CandidateShape cfg m top bottom)
    (hbot : s.bottomDelegations c = some bottom) {a : Nat} (hmem : ⟨d, a⟩ ∈ bottom.delegations) :
    ∃ r, rmBottomDelegation cfg s m c d = .ok r := by
  have hnd : (owners bottom.delegations).Nodup := hs.lists.ownersNodup.sublist (by simp)
  unfold rmBottomDelegation
  simp only [hbot, takeOut_eq hnd hmem]
  exact ⟨_, rfl⟩

end Methods

end Staking
end Litentry
