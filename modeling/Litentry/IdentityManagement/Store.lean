import Litentry.IdentityManagement.Pallet

/-!
# What the identity store keeps, and what it loses

Over every run of the enclave's identity store, failed calls included, three
things hold (`Reachable.consistent`): an identity is in `LinkedIdentities` exactly
when it belongs to some ID graph, and then to one only; every stored context has
its networks sorted, free of repeats and admissible for its identity; and no
`IDGraphLens` counter exceeds `MaxIDGraphLength`. Every write of the pallet adds
or drops a `LinkedIdentities` entry together with the graph entry it stands for,
and a failure between two writes never falls between such a pair.

Two things do not hold. `remove_identity` never lowers `IDGraphLens`, so after a
whole graph is removed its counter still counts the removed entries. And a call
that fails may leave writes behind: `deactivate_identity` for an owner without
a graph creates the prime graph first and fails after.
-/

set_option autoImplicit false

namespace Litentry
namespace IdentityManagement

open Hoare

/-! ## 1. Networks -/

namespace IdentityContext

theorem dedup_eq (l : List Web3Network) : dedup l = (l.insertionSort (· ≤ ·)).dedup :=
  (List.pairwise_insertionSort (· ≤ ·) l).destutter_eq_dedup

theorem mem_dedup {l : List Web3Network} {n : Web3Network} : n ∈ dedup l ↔ n ∈ l := by
  rw [dedup_eq, List.mem_dedup, List.mem_insertionSort]

/-- `dedup` sorts strictly. -/
theorem dedup_pairwise (l : List Web3Network) : (dedup l).Pairwise (· < ·) := by
  rw [dedup_eq]
  have hle := (List.pairwise_insertionSort (· ≤ ·) l).sublist (List.dedup_sublist _)
  have hne : (l.insertionSort (· ≤ ·)).dedup.Pairwise (· ≠ ·) := List.nodup_dedup _
  exact (hle.and hne).imp fun h => lt_of_le_of_ne h.1 h.2

end IdentityContext

/-- A context fit for identity `x`: its networks sorted strictly and admissible. -/
def Good (x : Identity) (c : IdentityContext) : Prop :=
  c.web3networks.Pairwise (· < ·) ∧ x.matchesWeb3networks c.web3networks = true

theorem Good.of_dedup {x : Identity} {c : IdentityContext} {l : List Web3Network}
    (hc : c.web3networks = IdentityContext.dedup l) (hl : x.matchesWeb3networks l = true) :
    Good x c := by
  rw [Good, hc]
  refine ⟨IdentityContext.dedup_pairwise l, ?_⟩
  rw [Identity.matchesWeb3networks_congr x fun _ => IdentityContext.mem_dedup]
  exact hl

/-! ## 2. The invariant, and the writes that keep it -/

/-- The consistency of the store. -/
structure Consistent (maxIDGraphLength : Nat) (s : State) : Prop where
  linked_iff : ∀ x, s.linkedIdentities x = true ↔ ∃ who, (s.idGraphs who x).isSome
  unique : ∀ x w w', (s.idGraphs w x).isSome → (s.idGraphs w' x).isSome → w = w'
  good : ∀ who x c, s.idGraphs who x = some c → Good x c
  lens : ∀ who, s.idGraphLens who ≤ maxIDGraphLength

variable {maxIDGraphLength : Nat}

theorem Consistent.of_fresh {s : State} (h : Fresh s) : Consistent maxIDGraphLength s := by
  obtain ⟨hl, hg, hn⟩ := h
  refine ⟨fun x => ?_, fun x w _ hw => ?_, fun who x c hc => ?_, fun who => ?_⟩
  · simp [hl x, hg]
  · simp [hg w x] at hw
  · simp [hg who x] at hc
  · simp [hn who]

/-- An identity outside `LinkedIdentities` is in no graph. -/
theorem Consistent.none_of_unlinked {s : State} (h : Consistent maxIDGraphLength s) {x : Identity}
    (hx : s.linkedIdentities x = false) (who : Identity) : s.idGraphs who x = none := by
  cases hw : s.idGraphs who x with
  | none => rfl
  | some _ =>
    have := (h.linked_iff x).2 ⟨who, by simp [hw]⟩
    rw [hx] at this
    exact absurd this (by simp)

/-- The write of `insert_identity_with_limit`: an unlinked identity with a fit
    context joins a graph whose counter has room. -/
theorem Consistent.insert {s : State} (h : Consistent maxIDGraphLength s)
    {owner identity : Identity} {ctx : IdentityContext}
    (hl : s.linkedIdentities identity = false) (hg : Good identity ctx)
    (hlen : s.idGraphLens owner + 1 ≤ maxIDGraphLength) :
    Consistent maxIDGraphLength { s with
      idGraphLens := Function.update s.idGraphLens owner (s.idGraphLens owner + 1)
      linkedIdentities := Function.update s.linkedIdentities identity true
      idGraphs := Function.update s.idGraphs owner
        (Function.update (s.idGraphs owner) identity (some ctx)) } := by
  have hnone := h.none_of_unlinked hl
  -- the graph entries after the write, at the new identity and elsewhere
  have hat : ∀ w, (Function.update s.idGraphs owner
      (Function.update (s.idGraphs owner) identity (some ctx)) w identity).isSome ↔ w = owner := by
    intro w
    by_cases hw : w = owner
    · subst hw
      simp
    · simpa [Function.update_of_ne hw, hnone w] using hw
  have hoff : ∀ w x, x ≠ identity → Function.update s.idGraphs owner
      (Function.update (s.idGraphs owner) identity (some ctx)) w x = s.idGraphs w x := by
    intro w x hx
    by_cases hw : w = owner
    · subst hw
      simp [Function.update_of_ne hx]
    · simp [Function.update_of_ne hw]
  refine ⟨fun x => ?_, fun x w w' hw hw' => ?_, fun w x c hc => ?_, fun w => ?_⟩
  all_goals dsimp only at *
  · by_cases hx : x = identity
    · subst hx
      simp only [Function.update_self, true_iff]
      exact ⟨owner, (hat owner).2 rfl⟩
    · simp only [Function.update_of_ne hx, hoff _ _ hx]
      exact h.linked_iff x
  · by_cases hx : x = identity
    · subst hx
      rw [(hat w).1 hw, (hat w').1 hw']
    · rw [hoff _ _ hx] at hw hw'
      exact h.unique x w w' hw hw'
  · by_cases hx : x = identity
    · subst hx
      by_cases hw : w = owner
      · subst hw
        simp only [Function.update_self, Option.some.injEq] at hc
        exact hc ▸ hg
      · simp [Function.update_of_ne hw, hnone w] at hc
    · rw [hoff _ _ hx] at hc
      exact h.good w x c hc
  · by_cases hw : w = owner
    · subst hw
      simpa using hlen
    · simp only [Function.update_of_ne hw]
      exact h.lens w

/-- The write of `try_mutate`: an entry that exists takes another fit context. -/
theorem Consistent.replace {s : State} (h : Consistent maxIDGraphLength s) {who identity : Identity}
    {c : IdentityContext} (hsome : (s.idGraphs who identity).isSome) (hg : Good identity c) :
    Consistent maxIDGraphLength { s with
      idGraphs := Function.update s.idGraphs who
        (Function.update (s.idGraphs who) identity (some c)) } := by
  -- the write changes one entry and keeps which entries exist
  have hiff : ∀ w x, (Function.update s.idGraphs who
      (Function.update (s.idGraphs who) identity (some c)) w x).isSome ↔ (s.idGraphs w x).isSome := by
    intro w x
    by_cases hw : w = who
    · subst hw
      by_cases hx : x = identity
      · subst hx
        simp [hsome]
      · simp [Function.update_of_ne hx]
    · simp [Function.update_of_ne hw]
  refine ⟨fun x => ?_, fun x w w' hw hw' => ?_, fun w x c' hc => ?_, h.lens⟩
  all_goals dsimp only at *
  · simp only [hiff]
    exact h.linked_iff x
  · rw [hiff] at hw hw'
    exact h.unique x w w' hw hw'
  · by_cases hw : w = who
    · subst hw
      by_cases hx : x = identity
      · subst hx
        simp only [Function.update_self, Option.some.injEq] at hc
        exact hc ▸ hg
      · simp only [Function.update_self, Function.update_of_ne hx] at hc
        exact h.good w x c' hc
    · simp only [Function.update_of_ne hw] at hc
      exact h.good w x c' hc

/-- The write of one turn of `remove_identity`: a linked entry of `who` leaves its
    graph and `LinkedIdentities`. -/
theorem Consistent.remove {s : State} (h : Consistent maxIDGraphLength s) {who identity : Identity}
    (hsome : (s.idGraphs who identity).isSome) :
    Consistent maxIDGraphLength { s with
      idGraphs := Function.update s.idGraphs who (Function.update (s.idGraphs who) identity none)
      linkedIdentities := Function.update s.linkedIdentities identity false } := by
  -- no other graph holds the identity
  have hother : ∀ w, w ≠ who → s.idGraphs w identity = none := by
    intro w hw
    cases hs : s.idGraphs w identity with
    | none => rfl
    | some _ => exact absurd (h.unique identity w who (by simp [hs]) hsome) hw
  have hoff : ∀ w x, x ≠ identity → Function.update s.idGraphs who
      (Function.update (s.idGraphs who) identity none) w x = s.idGraphs w x := by
    intro w x hx
    by_cases hw : w = who
    · subst hw
      simp [Function.update_of_ne hx]
    · simp [Function.update_of_ne hw]
  have hat : ∀ w, Function.update s.idGraphs who
      (Function.update (s.idGraphs who) identity none) w identity = none := by
    intro w
    by_cases hw : w = who
    · subst hw
      simp
    · simp [Function.update_of_ne hw, hother w hw]
  refine ⟨fun x => ?_, fun x w w' hw hw' => ?_, fun w x c hc => ?_, h.lens⟩
  all_goals dsimp only at *
  · by_cases hx : x = identity
    · subst hx
      simp [hat]
    · simp only [Function.update_of_ne hx, hoff _ _ hx]
      exact h.linked_iff x
  · by_cases hx : x = identity
    · subst hx
      simp [hat] at hw
    · rw [hoff _ _ hx] at hw hw'
      exact h.unique x w w' hw hw'
  · by_cases hx : x = identity
    · subst hx
      simp [hat] at hc
    · rw [hoff _ _ hx] at hc
      exact h.good w x c hc

/-- The write of `remove_identity` with an empty list: the graph of `who` is
    cleared and its identities leave `LinkedIdentities`. -/
theorem Consistent.clear {s : State} (h : Consistent maxIDGraphLength s) (who : Identity) :
    Consistent maxIDGraphLength { s with
      linkedIdentities := fun x => if (s.idGraphs who x).isSome then false else s.linkedIdentities x
      idGraphs := Function.update s.idGraphs who fun _ => none } := by
  have hoff : ∀ w x, w ≠ who →
      Function.update s.idGraphs who (fun _ => none) w x = s.idGraphs w x := by
    intro w x hw
    simp [Function.update_of_ne hw]
  refine ⟨fun x => ?_, fun x w w' hw hw' => ?_, fun w x c hc => ?_, h.lens⟩
  all_goals dsimp only at *
  · by_cases hx : (s.idGraphs who x).isSome
    · -- `x` was in the graph of `who`, hence in no other
      simp only [hx, if_true, Bool.false_eq_true, false_iff, not_exists]
      intro w
      by_cases hw : w = who
      · subst hw
        simp
      · rw [hoff w x hw]
        intro hw'
        exact hw (h.unique x w who hw' hx)
    · simp only [hx, Bool.false_eq_true, if_false]
      rw [h.linked_iff x]
      constructor
      · rintro ⟨w, hw⟩
        have hne : w ≠ who := fun hw' => hx (hw' ▸ hw)
        exact ⟨w, by rw [hoff w x hne]; exact hw⟩
      · rintro ⟨w, hw⟩
        by_cases hne : w = who
        · subst hne
          simp at hw
        · exact ⟨w, by rw [← hoff w x hne]; exact hw⟩
  · by_cases hw₁ : w = who
    · subst hw₁
      simp at hw
    · by_cases hw₂ : w' = who
      · subst hw₂
        simp at hw'
      · rw [hoff w x hw₁] at hw
        rw [hoff w' x hw₂] at hw'
        exact h.unique x w w' hw hw'
  · by_cases hw : w = who
    · subst hw
      simp at hc
    · rw [hoff w x hw] at hc
      exact h.good w x c hc

/-! ## 3. Each call keeps the invariant, however it ends -/

section Calls

variable (maxIDGraphLength)

/-- `insert_identity_with_limit` of an unlinked identity with a fit context; when it
    succeeds, no other identity's `LinkedIdentities` entry has changed. -/
theorem insertIdentityWithLimit_triple (owner identity : Identity) (ctx : IdentityContext)
    (s₀ : State) :
    Triple (fun s => s = s₀ ∧ Consistent maxIDGraphLength s ∧ s.linkedIdentities identity = false ∧
        Good identity ctx)
      (insertIdentityWithLimit maxIDGraphLength owner identity ctx)
      (fun _ s => Consistent maxIDGraphLength s ∧
        ∀ x, x ≠ identity → s.linkedIdentities x = s₀.linkedIdentities x)
      (fun _ => Consistent maxIDGraphLength) := by
  unfold insertIdentityWithLimit
  apply Triple.get_bind
  intro s₁
  dsimp only
  apply Triple.ite
  · intro _
    exact (Triple.throw_bind _ _).pre fun _ h => h.2.2.1
  intro _
  apply Triple.ite
  · intro _
    exact (Triple.throw_bind _ _).pre fun _ h => h.2.2.1
  intro hlen
  apply (Triple.set _).pre
  rintro s ⟨rfl, rfl, hc, hl, hg⟩
  refine ⟨hc.insert hl hg (by omega), fun x hx => ?_⟩
  simp [Function.update_of_ne hx]

/-- `maybe_create_id_graph`; when it succeeds, only the `LinkedIdentities` entry of
    `who` may have changed. -/
theorem maybeCreateIdGraph_triple (who : Identity) (s₀ : State) :
    Triple (fun s => s = s₀ ∧ Consistent maxIDGraphLength s)
      (maybeCreateIdGraph maxIDGraphLength who)
      (fun _ s => Consistent maxIDGraphLength s ∧
        ∀ x, x ≠ who → s.linkedIdentities x = s₀.linkedIdentities x)
      (fun _ => Consistent maxIDGraphLength) := by
  unfold maybeCreateIdGraph
  apply Triple.get_bind
  intro s₁
  apply Triple.ite
  · intro _
    apply Triple.ite
    · intro _
      exact (Triple.throw_bind _ _).pre fun _ h => h.2.2
    · intro hl
      -- the prime identity is unlinked, and its default networks are fit for it
      apply (insertIdentityWithLimit_triple maxIDGraphLength who who _ s₀).pre
      rintro s ⟨rfl, rfl, hc⟩
      refine ⟨rfl, hc, by simpa using hl, Good.of_dedup rfl who.matchesWeb3networks_default⟩
  · intro _
    apply (Triple.pure _).pre
    rintro s ⟨rfl, rfl, hc⟩
    exact ⟨hc, fun _ _ => rfl⟩

theorem linkIdentity_triple (who identity : Identity) (web3networks : List Web3Network) :
    Triple (Consistent maxIDGraphLength) (linkIdentity maxIDGraphLength who identity web3networks)
      (fun _ => Consistent maxIDGraphLength) (fun _ => Consistent maxIDGraphLength) := by
  unfold linkIdentity
  apply Triple.get_bind
  intro s₀
  apply Triple.ite
  · intro _
    exact (Triple.throw_bind _ _).pre fun _ h => h.2
  intro hl
  apply Triple.ite
  · intro _
    exact (Triple.throw_bind _ _).pre fun _ h => h.2
  intro hne
  apply Triple.ite
  · intro _
    exact (Triple.throw_bind _ _).pre fun _ h => h.2
  intro hm
  apply Triple.bind (maybeCreateIdGraph_triple maxIDGraphLength who s₀)
  intro _
  apply Triple.get_bind
  intro s₁
  -- after the prime graph, `identity` is still unlinked: it is not `who`
  apply (insertIdentityWithLimit_triple maxIDGraphLength who identity _ s₁).conseq
  · rintro s ⟨rfl, hc, hframe⟩
    refine ⟨rfl, hc, ?_, Good.of_dedup rfl (by simpa using hm)⟩
    rw [hframe identity hne]
    simpa using hl
  · exact fun _ _ h => h.1
  · exact fun _ _ h => h

/-- `try_mutate` with an update that keeps a context fit. -/
theorem tryMutateContext_triple (who identity : Identity)
    (f : IdentityContext → Except Error IdentityContext)
    (hf : ∀ c c', Good identity c → f c = .ok c' → Good identity c') :
    Triple (Consistent maxIDGraphLength) (tryMutateContext who identity f)
      (fun _ => Consistent maxIDGraphLength) (fun _ => Consistent maxIDGraphLength) := by
  unfold tryMutateContext
  apply Triple.get_bind
  intro s₀
  split
  · rename_i c hsome
    split
    · rename_i c' hfc
      apply (Triple.set _).pre
      rintro s ⟨rfl, hc⟩
      exact hc.replace (by simp [hsome]) (hf c c' (hc.good who identity c hsome) hfc)
    · exact (Triple.throw _).pre fun _ h => h.2
  · exact (Triple.throw _).pre fun _ h => h.2

theorem updateIdentity_triple (who identity : Identity)
    (f : IdentityContext → Except Error IdentityContext)
    (hf : ∀ c c', Good identity c → f c = .ok c' → Good identity c') :
    Triple (Consistent maxIDGraphLength) (updateIdentity maxIDGraphLength who identity f)
      (fun _ => Consistent maxIDGraphLength) (fun _ => Consistent maxIDGraphLength) := by
  unfold updateIdentity
  apply Triple.bind (Triple.ghost fun s₀ => (maybeCreateIdGraph_triple maxIDGraphLength who s₀).conseq
    (fun _ h => h) (fun _ _ h => h.1) (fun _ _ h => h))
  intro _
  apply Triple.get_bind
  intro s₀
  apply Triple.ite
  · intro _
    exact (Triple.throw_bind _ _).pre fun _ h => h.2
  intro _
  exact (tryMutateContext_triple maxIDGraphLength who identity f hf).pre fun _ h => h.2

theorem deactivateIdentity_triple (who identity : Identity) :
    Triple (Consistent maxIDGraphLength) (deactivateIdentity maxIDGraphLength who identity)
      (fun _ => Consistent maxIDGraphLength) (fun _ => Consistent maxIDGraphLength) := by
  apply updateIdentity_triple
  intro c c' hc hfc
  cases hfc
  exact hc

theorem activateIdentity_triple (who identity : Identity) :
    Triple (Consistent maxIDGraphLength) (activateIdentity maxIDGraphLength who identity)
      (fun _ => Consistent maxIDGraphLength) (fun _ => Consistent maxIDGraphLength) := by
  apply updateIdentity_triple
  intro c c' hc hfc
  cases hfc
  exact hc

theorem setIdentityNetworks_triple (who identity : Identity) (web3networks : List Web3Network) :
    Triple (Consistent maxIDGraphLength)
      (setIdentityNetworks maxIDGraphLength who identity web3networks)
      (fun _ => Consistent maxIDGraphLength) (fun _ => Consistent maxIDGraphLength) := by
  apply updateIdentity_triple
  intro c c' _ hfc
  -- the new networks passed the test before they were deduplicated
  by_cases hm : identity.matchesWeb3networks web3networks = true
  · simp only [hm, Bool.not_true, Bool.false_eq_true, if_false, Except.ok.injEq] at hfc
    subst hfc
    exact Good.of_dedup rfl hm
  · simp [hm] at hfc

theorem removeOne_triple (who identity : Identity) :
    Triple (Consistent maxIDGraphLength) (removeOne who identity)
      (fun _ => Consistent maxIDGraphLength) (fun _ => Consistent maxIDGraphLength) := by
  unfold removeOne
  apply Triple.get_bind
  intro s₀
  apply Triple.ite
  · intro _
    exact (Triple.throw_bind _ _).pre fun _ h => h.2
  intro _
  apply Triple.ite
  · intro _
    exact (Triple.throw_bind _ _).pre fun _ h => h.2
  intro hsome
  apply (Triple.set _).pre
  rintro s ⟨rfl, hc⟩
  refine hc.remove ?_
  revert hsome
  cases s.idGraphs who identity <;> simp

theorem removeIdentity_triple (who : Identity) (identities : List Identity) :
    Triple (Consistent maxIDGraphLength) (removeIdentity who identities)
      (fun _ => Consistent maxIDGraphLength) (fun _ => Consistent maxIDGraphLength) := by
  unfold removeIdentity
  apply Triple.ite
  · intro _
    apply Triple.get_bind
    intro s₀
    apply (Triple.set _).pre
    rintro s ⟨rfl, hc⟩
    exact hc.clear who
  · intro _
    -- the loop, each turn of which keeps the invariant
    exact Triple.forM fun identity _ => removeOne_triple maxIDGraphLength who identity

theorem Call.run_triple (c : Call) :
    Triple (Consistent maxIDGraphLength) (c.run maxIDGraphLength)
      (fun _ => Consistent maxIDGraphLength) (fun _ => Consistent maxIDGraphLength) := by
  cases c with
  | linkIdentity who identity web3networks =>
    exact linkIdentity_triple maxIDGraphLength who identity web3networks
  | deactivateIdentity who identity => exact deactivateIdentity_triple maxIDGraphLength who identity
  | activateIdentity who identity => exact activateIdentity_triple maxIDGraphLength who identity
  | setIdentityNetworks who identity web3networks =>
    exact setIdentityNetworks_triple maxIDGraphLength who identity web3networks
  | removeIdentity who identities => exact removeIdentity_triple maxIDGraphLength who identities
  | maybeCreateIdGraph who =>
    exact Triple.ghost fun s₀ => (maybeCreateIdGraph_triple maxIDGraphLength who s₀).conseq
      (fun _ h => h) (fun _ _ h => h.1) (fun _ _ h => h)

end Calls

/-- **The store stays consistent.** In every state a run of calls reaches, failed
    calls included, `LinkedIdentities` holds exactly the identities of the graphs,
    each of which is in one graph only, every context's networks are sorted, free
    of repeats and admissible for its identity, and no counter passes the limit. -/
theorem Reachable.consistent {s : State} (h : Reachable maxIDGraphLength s) :
    Consistent maxIDGraphLength s := by
  refine Reach.Reachable.invariant
    (fun s hs => (Consistent.of_fresh hs : Consistent maxIDGraphLength s)) ?_ h
  intro s c s' hs hstep
  -- a step takes the state the call leaves, whichever way it ended
  cases hstep
  exact (Call.run_triple maxIDGraphLength c).final hs

/-! ## 4. What is lost -/

theorem Fresh.genesis (n : Nat) : Fresh (genesis n) :=
  ⟨fun _ => rfl, fun _ _ => rfl, fun _ => rfl⟩

/-- `remove_identity` with an empty list always succeeds: it clears the graph and
    drops its identities from `LinkedIdentities`, and leaves `IDGraphLens` as it was. -/
theorem removeIdentity_nil_run (who : Identity) (s : State) :
    (removeIdentity who []).run s = .ok () { s with
      linkedIdentities := fun x => if (s.idGraphs who x).isSome then false else s.linkedIdentities x
      idGraphs := Function.update s.idGraphs who fun _ => none } :=
  rfl

/-- An owner with a substrate address. -/
def ownerAlice : Identity := .substrate ⟨List.replicate 32 1, by simp⟩

/-- An EVM address. -/
def evmBob : Identity := .evm ⟨List.replicate 20 2, by simp⟩

theorem linkRun_checks :
    Reach.runChecks (step 64) (genesis 1) [.linkIdentity ownerAlice evmBob [.ethereum]]
      (fun s => s.idGraphLens ownerAlice == 2) = true := by
  decide

theorem idGraphLens_stale_after_remove :
    ∃ s, Reachable 64 s ∧ ∃ who, s.idGraphLens who ≠ {x | (s.idGraphs who x).isSome}.ncard := by
  obtain ⟨s₁, hs₁, h₂⟩ := Reach.Reachable.of_runChecks (Fresh.genesis 1) linkRun_checks
  -- then the whole graph of the owner is removed
  let s₂ := Hoare.final ((removeIdentity ownerAlice []).run s₁)
  have hs₂ : Reachable 64 s₂ := .step (.removeIdentity ownerAlice []) hs₁ rfl
  refine ⟨s₂, hs₂, ownerAlice, ?_⟩
  have hlen : s₂.idGraphLens ownerAlice = 2 := by
    simpa [s₂, removeIdentity_nil_run, Hoare.final] using h₂
  have hempty : {x | (s₂.idGraphs ownerAlice x).isSome} = ∅ := by
    ext x
    simp [s₂, removeIdentity_nil_run, Hoare.final]
  rw [hlen, hempty, Set.ncard_empty]
  decide

/-- `maybe_create_id_graph` for an unlinked owner without a graph, whose counter has
    room: it creates the prime graph. -/
theorem maybeCreateIdGraph_run_of_no_graph {s : State} {who : Identity}
    (hprime : s.idGraphs who who = none) (hl : s.linkedIdentities who = false)
    (hlen : s.idGraphLens who + 1 ≤ maxIDGraphLength) (hlen32 : s.idGraphLens who + 1 < 2 ^ 32) :
    (maybeCreateIdGraph maxIDGraphLength who).run s = .ok () { s with
      idGraphLens := Function.update s.idGraphLens who (s.idGraphLens who + 1)
      linkedIdentities := Function.update s.linkedIdentities who true
      idGraphs := Function.update s.idGraphs who (Function.update (s.idGraphs who) who
        (some (IdentityContext.new 1 who.defaultWeb3networks))) } := by
  have h₁ : ¬ 4294967295 ≤ s.idGraphLens who := by omega
  have h₂ : ¬ maxIDGraphLength ≤ s.idGraphLens who := by omega
  simp [maybeCreateIdGraph, insertIdentityWithLimit, hprime, hl, h₁, h₂, EStateM.run, bind,
    EStateM.bind, get, getThe, MonadStateOf.get, EStateM.get, set, EStateM.set]

/-- `deactivate_identity` for an unlinked owner without a graph, of an identity that
    is not the owner, fails with `IdentityNotExist` after creating the owner's prime
    graph, which stays. -/
theorem deactivateIdentity_run_of_no_graph {s : State} {who identity : Identity}
    (hprime : s.idGraphs who who = none) (hl : s.linkedIdentities who = false)
    (hlen : s.idGraphLens who + 1 ≤ maxIDGraphLength) (hlen32 : s.idGraphLens who + 1 < 2 ^ 32)
    (hne : identity ≠ who) (hid : s.idGraphs who identity = none) :
    (deactivateIdentity maxIDGraphLength who identity).run s = .error .identityNotExist { s with
      idGraphLens := Function.update s.idGraphLens who (s.idGraphLens who + 1)
      linkedIdentities := Function.update s.linkedIdentities who true
      idGraphs := Function.update s.idGraphs who (Function.update (s.idGraphs who) who
        (some (IdentityContext.new 1 who.defaultWeb3networks))) } := by
  have hcreate := maybeCreateIdGraph_run_of_no_graph hprime hl hlen hlen32
  simp only [EStateM.run] at hcreate
  -- after the prime graph, the pair is still missing, and the check fails
  simp [deactivateIdentity, updateIdentity, EStateM.run, bind, EStateM.bind, hcreate, get, getThe,
    MonadStateOf.get, EStateM.get, Function.update_of_ne hne, hid, throw, throwThe,
    MonadExceptOf.throw, EStateM.throw]

theorem deactivateIdentity_fails_leaving_prime_graph :
    ∃ s who identity s', (deactivateIdentity 64 who identity).run s = .error .identityNotExist s' ∧
      s'.idGraphs ≠ s.idGraphs := by
  refine ⟨genesis 1, ownerAlice, evmBob, _,
    deactivateIdentity_run_of_no_graph rfl rfl (by decide) (by decide) (by decide) rfl, fun h => ?_⟩
  -- the prime entry of the owner is there after the failed call, and was not before
  have := congrFun (congrFun h ownerAlice) ownerAlice
  simp [genesis] at this

end IdentityManagement
end Litentry
