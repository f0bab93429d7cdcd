import Litentry.Primitives.Did
import Litentry.IdentityManagement.Pallet

/-!
# The order of an ID graph (`sort_id_graph`)

`Pallet::id_graph` collects the entries `IDGraphs::iter_prefix(who)` yields and
sorts them with `sort_id_graph`, so that `id_graph_hash` hashes one sequence. The
comparator orders by `link_block` and breaks a tie with `to_did().ok()`: an
`Option<String>`, so `None` below every DID, and DIDs byte by byte. `slice::sort_by`
is a stable sort, and so is `List.mergeSort`; for a comparator that is a total
preorder both return the one sorted permutation that keeps tied entries in input
order, which is why the model may take the one for the other.

The storage iteration order is a parameter: `keys`, the identities of the graph in
the order the trie yields them.

Where every identity has a DID, two distinct identities never tie and the sort is
canonical (`sortIdGraph_canonical`, `idGraph_eq_of_perm`). A web2 handle that is not
UTF-8 has no DID, so two such identities linked in one block tie, and the stable sort
returns them in whichever order it got them.
-/

set_option autoImplicit false

namespace Litentry
namespace IdentityManagement

open Std

/-- An entry of an ID graph. -/
abbrev Entry := Identity × IdentityContext

/-- The comparator `sort_id_graph` hands to `sort_by`. -/
def compareEntries (a b : Entry) : Ordering :=
  let order := compare a.2.linkBlock b.2.linkBlock
  if order = .eq then compare a.1.toDid.toOption b.1.toDid.toOption else order

/-- `sort_id_graph`. -/
def sortIdGraph (idGraph : List Entry) : List Entry :=
  idGraph.mergeSort fun a b => (compareEntries a b).isLE

/-- `Pallet::id_graph`, with the order `keys` in which `iter_prefix(who)` yields the
    graph's identities. -/
def idGraph (s : State) (who : Identity) (keys : List Identity) : List Entry :=
  sortIdGraph (keys.filterMap fun identity => (s.idGraphs who identity).map (identity, ·))

/-! ## The comparator is a total preorder -/

/-- The comparator is core's lexicographic product of the two keys. -/
theorem compareEntries_eq_compareLex :
    compareEntries = compareLex (compareOn (·.2.linkBlock)) (compareOn (·.1.toDid.toOption)) := by
  funext a b
  simp only [compareEntries, compareLex, compareOn]
  cases compare a.2.linkBlock b.2.linkBlock <;> rfl

instance : TransCmp compareEntries := by
  rw [compareEntries_eq_compareLex]
  infer_instance

theorem compareEntries_isLE_trans {a b c : Entry} (hab : (compareEntries a b).isLE)
    (hbc : (compareEntries b c).isLE) : (compareEntries a c).isLE :=
  TransCmp.isLE_trans hab hbc

theorem compareEntries_isLE_total (a b : Entry) :
    ((compareEntries a b).isLE || (compareEntries b a).isLE) = true := by
  have hswap : compareEntries b a = (compareEntries a b).swap := OrientedCmp.eq_swap
  rw [hswap]
  cases compareEntries a b <;> rfl

/-- Two entries tie exactly when they were linked in one block and have the same DID,
    or none. -/
theorem compareEntries_eq_eq {a b : Entry} :
    compareEntries a b = .eq ↔
      a.2.linkBlock = b.2.linkBlock ∧ a.1.toDid.toOption = b.1.toDid.toOption := by
  rw [compareEntries_eq_compareLex, compareLex, Ordering.then_eq_eq, compareOn, compareOn,
    LawfulEqOrd.compare_eq_iff_eq, LawfulEqOrd.compare_eq_iff_eq]

/-- An identity that has a DID ties only with itself. -/
theorem compareEntries_tie_of_toDid {a b : Entry} {d : List UInt8} (hd : a.1.toDid = .ok d)
    (h : compareEntries a b = .eq) : a.1 = b.1 := by
  have hb : b.1.toDid.toOption = some d := by
    rw [← (compareEntries_eq_eq.1 h).2, hd]
    rfl
  have hb' : b.1.toDid = .ok d := by
    cases hdid : b.1.toDid with
    | error e => rw [hdid] at hb; cases hb
    | ok d' => rw [hdid] at hb; cases hb; rfl
  exact Identity.toDid_injective hd hb'

/-! ## The sort -/

theorem sortIdGraph_perm (l : List Entry) : (sortIdGraph l).Perm l :=
  List.mergeSort_perm l _

theorem sortIdGraph_pairwise (l : List Entry) :
    (sortIdGraph l).Pairwise fun a b => (compareEntries a b).isLE :=
  List.pairwise_mergeSort (fun a b c => @compareEntries_isLE_trans a b c) compareEntries_isLE_total l

/-- A list already in order is left as it is; for two entries that tie, in either order. -/
theorem sortIdGraph_pair {a b : Entry} (h : (compareEntries a b).isLE) :
    sortIdGraph [a, b] = [a, b] :=
  List.mergeSort_of_pairwise (List.pairwise_pair.2 h)

/-- Sorting does not see the input order as long as only equal entries tie. -/
theorem sortIdGraph_eq_of_perm {l₁ l₂ : List Entry} (hp : l₁.Perm l₂)
    (htie : ∀ a ∈ l₁, ∀ b ∈ l₁, compareEntries a b = .eq → a = b) :
    sortIdGraph l₁ = sortIdGraph l₂ := by
  refine List.Perm.eq_of_pairwise ?_ (sortIdGraph_pairwise l₁) (sortIdGraph_pairwise l₂)
    ((sortIdGraph_perm l₁).trans (hp.trans (sortIdGraph_perm l₂).symm))
  intro a b ha hb hab hba
  have ha' : a ∈ l₁ := (sortIdGraph_perm l₁).subset ha
  have hb' : b ∈ l₁ := hp.symm.subset ((sortIdGraph_perm l₂).subset hb)
  exact htie a ha' b hb' (OrientedCmp.isLE_antisymm hab hba)

/-- Where every identity has a DID and no identity occurs twice, the sorted graph is
    the same for every order of its entries. -/
theorem sortIdGraph_canonical {l₁ l₂ : List Entry} (hp : l₁.Perm l₂)
    (hnodup : (l₁.map Prod.fst).Nodup) (hdid : ∀ e ∈ l₁, ∃ d, e.1.toDid = .ok d) :
    sortIdGraph l₁ = sortIdGraph l₂ := by
  apply sortIdGraph_eq_of_perm hp
  intro a ha b hb hab
  obtain ⟨d, hd⟩ := hdid a ha
  exact List.inj_on_of_nodup_map hnodup ha hb (compareEntries_tie_of_toDid hd hab)

/-- Two identities without a DID linked in one block tie, so the sort keeps them in
    the order it got them: the two orders of one graph sort differently. -/
theorem sortIdGraph_depends_on_order (x y : Entry) (hxy : x.1 ≠ y.1)
    (hblock : x.2.linkBlock = y.2.linkBlock) (hx : ∃ e, x.1.toDid = .error e)
    (hy : ∃ e, y.1.toDid = .error e) :
    sortIdGraph [x, y] = [x, y] ∧ sortIdGraph [y, x] = [y, x] ∧
      sortIdGraph [x, y] ≠ sortIdGraph [y, x] := by
  obtain ⟨ex, hex⟩ := hx
  obtain ⟨ey, hey⟩ := hy
  have htie : compareEntries x y = .eq := by
    rw [compareEntries_eq_eq, hex, hey]
    exact ⟨hblock, rfl⟩
  have htie' : compareEntries y x = .eq := OrientedCmp.eq_symm htie
  have hxy' : sortIdGraph [x, y] = [x, y] := sortIdGraph_pair (by rw [htie]; rfl)
  have hyx' : sortIdGraph [y, x] = [y, x] := sortIdGraph_pair (by rw [htie']; rfl)
  refine ⟨hxy', hyx', ?_⟩
  rw [hxy', hyx']
  intro h
  exact hxy (congrArg Prod.fst (List.cons.inj h).1)

/-- A twitter handle that is the single byte `b`. -/
def byteHandle (b : UInt8) : Identity := .twitter ⟨[b], by simp⟩

theorem sortIdGraph_depends_on_invalid_handles :
    sortIdGraph [(byteHandle 0xFF, ⟨7, [], .active⟩), (byteHandle 0xFE, ⟨7, [], .active⟩)] ≠
      sortIdGraph [(byteHandle 0xFE, ⟨7, [], .active⟩), (byteHandle 0xFF, ⟨7, [], .active⟩)] :=
  (sortIdGraph_depends_on_order (byteHandle 0xFF, ⟨7, [], .active⟩)
    (byteHandle 0xFE, ⟨7, [], .active⟩) (by decide) rfl ⟨_, rfl⟩ ⟨_, rfl⟩).2.2

/-! ## The graph of a state -/

/-- The identities the entries come from, in order: those of `keys` the graph holds. -/
theorem map_fst_entries_sublist (m : Identity → Option IdentityContext) (keys : List Identity) :
    ((keys.filterMap fun identity => (m identity).map (identity, ·)).map Prod.fst).Sublist keys := by
  induction keys with
  | nil => exact List.Sublist.slnil
  | cons k keys ih =>
    cases hk : m k with
    | none =>
      simp only [List.filterMap_cons, hk, Option.map_none]
      exact ih.cons k
    | some c =>
      simp only [List.filterMap_cons, hk, Option.map_some, List.map_cons]
      exact ih.cons_cons k

/-- `id_graph` does not depend on the storage iteration order as long as every
    identity of the graph has a DID. -/
theorem idGraph_eq_of_perm (s : State) (who : Identity) {keys₁ keys₂ : List Identity}
    (hp : keys₁.Perm keys₂) (hnodup : keys₁.Nodup)
    (hdid : ∀ identity c, s.idGraphs who identity = some c → ∃ d, identity.toDid = .ok d) :
    idGraph s who keys₁ = idGraph s who keys₂ := by
  apply sortIdGraph_canonical (hp.filterMap _)
  · exact (map_fst_entries_sublist _ keys₁).nodup hnodup
  · intro e he
    obtain ⟨identity, -, he'⟩ := List.mem_filterMap.1 he
    obtain ⟨c, hc, rfl⟩ := Option.map_eq_some_iff.1 he'
    exact hdid identity c hc


/-- `n` bytes of `b`. -/
def filledBytes (n : Nat) (b : UInt8) : Bytes n := ⟨List.replicate n b, List.length_replicate ..⟩

/-- A substrate account, and two EVM accounts. -/
def substrateOne : Identity := .substrate (filledBytes 32 1)

def evmTwo : Identity := .evm (filledBytes 20 2)

def evmThree : Identity := .evm (filledBytes 20 3)

/-- `evmTwo` and `evmThree` linked to `substrateOne` in one block, `7`: their order in the
    graph rests on their DIDs alone. -/
def twoLinks : State :=
  { genesis 7 with
    idGraphs := fun who identity =>
      if who = substrateOne ∧ (identity = evmTwo ∨ identity = evmThree) then
        some ⟨7, [], .active⟩
      else none }

theorem idGraph_eq_of_perm_at_twoLinks :
    idGraph twoLinks substrateOne [evmTwo, evmThree] =
      idGraph twoLinks substrateOne [evmThree, evmTwo] := by
  refine idGraph_eq_of_perm _ _ (List.Perm.swap _ _ []) (by decide) fun identity c h => ?_
  simp only [twoLinks] at h
  split_ifs at h with hi
  rcases hi.2 with rfl | rfl <;> exact ⟨_, rfl⟩

end IdentityManagement
end Litentry
