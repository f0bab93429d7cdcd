import Mathlib

/-!
# Vectors kept sorted, searched by bisection

The storage of a pallet keeps many `Vec`s sorted and edits them through
`slice::binary_search_by`, `Vec::insert` and `Vec::remove`. This file is the
list-level account of those three, for an arbitrary element type and an
arbitrary ordering, with nothing about any particular pallet in it.

`binarySearchBy` is stated by the contract the standard library documents for
`slice::binary_search_by`: on a slice whose elements compare `Less`, then
`Equal`, then `Greater` against the probe, it answers `Ok` with the index of a
matching element, or `Err` with the index at which the probe could be inserted
keeping that order. The definition below scans from the front, so on such a
slice it answers the first match, and its `Err` index is the insertion point;
every search this development makes is on a slice kept in that order, and the
lemmas are stated so that nothing depends on which match a bisection would hit
when several elements compare `Equal`.

Over that, `insertKey`/`removeKey` are the `insert`/`remove` of a set kept as a
vector strictly increasing in a key, and `insertDesc` is the first-come-first-served
insertion into a vector kept non-increasing in a weight.
-/

set_option autoImplicit false

namespace SortedVec

variable {α κ : Type*}

/-! ## 1. `binary_search_by` -/

/-- `slice::binary_search_by f`: `.ok i` when `f` answers `Equal` at `i`, `.error i`
    with the insertion point otherwise. -/
def binarySearchBy (f : α → Ordering) : List α → Except Nat Nat
  | [] => .error 0
  | x :: xs =>
    match f x with
    | .lt =>
      match binarySearchBy f xs with
      | .ok i => .ok (i + 1)
      | .error i => .error (i + 1)
    | .eq => .ok 0
    | .gt => .error 0

/-- An `Ok` answer splits the vector at a match, everything before it `Less`. -/
theorem binarySearchBy_ok {f : α → Ordering} :
    ∀ {l : List α} {i : Nat}, binarySearchBy f l = .ok i →
      ∃ pre x rest, l = pre ++ x :: rest ∧ i = pre.length ∧ f x = .eq ∧
        ∀ y ∈ pre, f y = .lt
  | [], _, h => by simp [binarySearchBy] at h
  | x :: xs, i, h => by
    unfold binarySearchBy at h
    cases hx : f x with
    | lt =>
      rw [hx] at h
      cases hr : binarySearchBy f xs with
      | ok j =>
        rw [hr] at h
        obtain ⟨pre, y, rest, rfl, rfl, hy, hpre⟩ := binarySearchBy_ok hr
        have hi : i = pre.length + 1 := by simpa [eq_comm] using h
        refine ⟨x :: pre, y, rest, rfl, by simp [hi], hy, ?_⟩
        rintro z (_ | ⟨_, hz⟩)
        · exact hx
        · exact hpre z hz
      | error j => rw [hr] at h; exact absurd h (by simp)
    | eq =>
      rw [hx] at h
      have hi : i = 0 := by simpa [eq_comm] using h
      exact ⟨[], x, xs, rfl, hi, hx, by simp⟩
    | gt => rw [hx] at h; exact absurd h (by simp)

/-- An `Err` answer splits the vector at the insertion point: everything before
    it `Less`, and the element after it, if any, `Greater`. -/
theorem binarySearchBy_error {f : α → Ordering} :
    ∀ {l : List α} {i : Nat}, binarySearchBy f l = .error i →
      ∃ pre rest, l = pre ++ rest ∧ i = pre.length ∧ (∀ y ∈ pre, f y = .lt) ∧
        ∀ y ∈ rest.head?, f y = .gt
  | [], i, h => by
    have hi : i = 0 := by simpa [binarySearchBy, eq_comm] using h
    exact ⟨[], [], rfl, hi, by simp, by simp⟩
  | x :: xs, i, h => by
    unfold binarySearchBy at h
    cases hx : f x with
    | lt =>
      rw [hx] at h
      cases hr : binarySearchBy f xs with
      | ok j => rw [hr] at h; exact absurd h (by simp)
      | error j =>
        rw [hr] at h
        obtain ⟨pre, rest, rfl, rfl, hpre, hrest⟩ := binarySearchBy_error hr
        have hi : i = pre.length + 1 := by simpa [eq_comm] using h
        refine ⟨x :: pre, rest, rfl, by simp [hi], ?_, hrest⟩
        rintro z (_ | ⟨_, hz⟩)
        · exact hx
        · exact hpre z hz
    | eq => rw [hx] at h; exact absurd h (by simp)
    | gt =>
      rw [hx] at h
      have hi : i = 0 := by simpa [eq_comm] using h
      exact ⟨[], x :: xs, rfl, hi, by simp, by simpa using hx⟩

/-- Only a vector with an `Equal` element answers `Ok`. -/
theorem exists_eq_of_binarySearchBy_ok {f : α → Ordering} {l : List α} {i : Nat}
    (h : binarySearchBy f l = .ok i) : ∃ x ∈ l, f x = .eq := by
  obtain ⟨pre, x, rest, rfl, -, hx, -⟩ := binarySearchBy_ok h
  exact ⟨x, by simp, hx⟩

theorem insertIdx_length_append (pre rest : List α) (v : α) :
    (pre ++ rest).insertIdx pre.length v = pre ++ v :: rest := by
  induction pre with
  | nil => simp [List.insertIdx_zero]
  | cons x xs ih => simp [List.insertIdx_succ_cons, ih]

theorem eraseIdx_length_append (pre rest : List α) (x : α) :
    (pre ++ x :: rest).eraseIdx pre.length = pre ++ rest := by
  induction pre with
  | nil => simp
  | cons y ys ih => simp [ih]

/-! ## 2. Vectors strictly increasing in a key

`StrictKey key l` is the shape of an `OrderedSet` whose `Ord` compares only
`key`: the keys increase strictly, so no two elements share one. -/

section Key

variable [LinearOrder κ] (key : α → κ)

/-- The keys of `l` increase strictly along it. -/
def StrictKey (l : List α) : Prop := l.Pairwise (fun a b => key a < key b)

/-- The comparison `binary_search` uses on such a vector, probing for key `k`. -/
def cmpKey (k : κ) (x : α) : Ordering := compare (key x) k

/-- `OrderedSet::insert`: `(true, inserted)` when the key was absent, `(false, l)`
    when an element of that key is already there. -/
def insertKey (v : α) (l : List α) : Bool × List α :=
  match binarySearchBy (cmpKey key (key v)) l with
  | .ok _ => (false, l)
  | .error i => (true, l.insertIdx i v)

/-- `OrderedSet::remove` by key: `(true, l without it)` when an element of key `k`
    is there, `(false, l)` otherwise. -/
def removeKey (k : κ) (l : List α) : Bool × List α :=
  match binarySearchBy (cmpKey key k) l with
  | .ok i => (true, l.eraseIdx i)
  | .error _ => (false, l)

variable {key}

theorem StrictKey.nodup_keys {l : List α} (h : StrictKey key l) : (l.map key).Nodup := by
  unfold StrictKey at h
  rw [List.Nodup, List.pairwise_map]
  exact h.imp ne_of_lt

theorem StrictKey.sublist {l₁ l₂ : List α} (h : StrictKey key l₂) (hs : l₁.Sublist l₂) :
    StrictKey key l₁ :=
  List.Pairwise.sublist hs h

theorem StrictKey.filter {l : List α} (h : StrictKey key l) (p : α → Bool) :
    StrictKey key (l.filter p) :=
  h.sublist List.filter_sublist

/-- In a strictly increasing vector, an element of key `k` is the only one. -/
theorem StrictKey.eq_of_key_eq {l : List α} (h : StrictKey key l) {x y : α} (hx : x ∈ l)
    (hy : y ∈ l) (hk : key x = key y) : x = y := by
  unfold StrictKey at h
  rcases List.Pairwise.forall_of_forall_of_flip (R := fun a b => a = b ∨ key a ≠ key b)
      (fun a _ => .inl rfl) (h.imp fun hab => .inr (ne_of_lt hab))
      (h.imp fun hab => .inr (ne_of_gt hab)) hx hy with hxy | hne
  · exact hxy
  · exact absurd hk hne

/-- Searching a strictly increasing vector: `Ok` exactly when the key is present. -/
theorem StrictKey.binarySearchBy_ok_iff {l : List α} (h : StrictKey key l) (k : κ) :
    (∃ i, binarySearchBy (cmpKey key k) l = .ok i) ↔ ∃ x ∈ l, key x = k := by
  constructor
  · rintro ⟨i, hi⟩
    obtain ⟨x, hx, hxk⟩ := exists_eq_of_binarySearchBy_ok hi
    exact ⟨x, hx, by simpa [cmpKey, compare_eq_iff_eq] using hxk⟩
  · rintro ⟨x, hx, rfl⟩
    cases hs : binarySearchBy (cmpKey key (key x)) l with
    | ok i => exact ⟨i, rfl⟩
    | error i =>
      exfalso
      obtain ⟨pre, rest, rfl, -, hpre, hrest⟩ := binarySearchBy_error hs
      rcases List.mem_append.mp hx with hxp | hxr
      · simpa [cmpKey] using hpre x hxp
      · -- every element of `rest` lies above its head, which lies above `key x`
        cases rest with
        | nil => simp at hxr
        | cons y ys =>
          have hy : key x < key y := by simpa [cmpKey, compare_gt_iff_gt] using hrest y rfl
          rcases List.mem_cons.mp hxr with rfl | hxs
          · exact lt_irrefl _ hy
          · have hyx : key y < key x :=
              (List.pairwise_cons.mp (List.pairwise_append.mp h).2.1).1 x hxs
            exact lt_asymm hy hyx

/-- A key already present: `insertKey` changes nothing and answers `false`. -/
theorem StrictKey.insertKey_of_mem {l : List α} (h : StrictKey key l) {v x : α} (hx : x ∈ l)
    (hk : key x = key v) : insertKey key v l = (false, l) := by
  obtain ⟨i, hi⟩ := (h.binarySearchBy_ok_iff (key v)).mpr ⟨x, hx, hk⟩
  simp [insertKey, hi]

/-- A new key: `insertKey` answers `true` with `v` placed among the others, the
    result still strictly increasing. -/
theorem StrictKey.insertKey_of_not_mem {l : List α} (h : StrictKey key l) {v : α}
    (hv : ∀ x ∈ l, key x ≠ key v) :
    ∃ l', insertKey key v l = (true, l') ∧ l'.Perm (v :: l) ∧ StrictKey key l' := by
  cases hs : binarySearchBy (cmpKey key (key v)) l with
  | ok i =>
    obtain ⟨x, hx, hxk⟩ := exists_eq_of_binarySearchBy_ok hs
    exact absurd (by simpa [cmpKey, compare_eq_iff_eq] using hxk) (hv x hx)
  | error i =>
    obtain ⟨pre, rest, rfl, rfl, hpre, hrest⟩ := binarySearchBy_error hs
    refine ⟨pre ++ v :: rest, by simp [insertKey, hs, insertIdx_length_append],
      List.perm_middle, ?_⟩
    have hlt : ∀ y ∈ pre, key y < key v := fun y hy => by
      simpa [cmpKey, compare_lt_iff_lt] using hpre y hy
    -- the head of `rest` lies above `key v`, and the rest of `rest` above its head
    have hgt : ∀ y ∈ rest, key v < key y := by
      cases rest with
      | nil => simp
      | cons z zs =>
        have hz : key v < key z := by simpa [cmpKey, compare_gt_iff_gt] using hrest z rfl
        have hzs := (List.pairwise_cons.mp (List.pairwise_append.mp h).2.1).1
        rintro y (_ | ⟨_, hy⟩)
        · exact hz
        · exact lt_trans hz (hzs y hy)
    unfold StrictKey at h ⊢
    rw [List.pairwise_append] at h ⊢
    refine ⟨h.1, List.pairwise_cons.mpr ⟨hgt, h.2.1⟩, ?_⟩
    rintro a ha b (_ | ⟨_, hb⟩)
    · exact hlt a ha
    · exact h.2.2 a ha b hb

/-- `removeKey` on a strictly increasing vector drops exactly the elements of key
    `k`, of which there is at most one. -/
theorem StrictKey.removeKey_snd {l : List α} (h : StrictKey key l) (k : κ) :
    (removeKey key k l).2 = l.filter (fun x => key x ≠ k) := by
  cases hs : binarySearchBy (cmpKey key k) l with
  | ok i =>
    obtain ⟨pre, x, rest, rfl, rfl, hx, hpre⟩ := binarySearchBy_ok hs
    have hxk : key x = k := by simpa [cmpKey, compare_eq_iff_eq] using hx
    have hpre' : ∀ y ∈ pre, key y ≠ k := fun y hy => by
      have := hpre y hy
      simp only [cmpKey, compare_lt_iff_lt] at this
      exact ne_of_lt this
    have hrest : ∀ y ∈ rest, key y ≠ k := by
      have hxr := (List.pairwise_cons.mp (List.pairwise_append.mp h).2.1).1
      intro y hy
      rw [← hxk]
      exact ne_of_gt (hxr y hy)
    simp only [removeKey, hs, eraseIdx_length_append, List.filter_append, List.filter_cons,
      hxk, ne_eq, not_true_eq_false, decide_false, Bool.false_eq_true, ↓reduceIte]
    rw [List.filter_eq_self.mpr (by simpa using hpre'),
      List.filter_eq_self.mpr (by simpa using hrest)]
  | error i =>
    have hnone : ∀ x ∈ l, key x ≠ k := by
      intro x hx hxk
      obtain ⟨j, hj⟩ := (h.binarySearchBy_ok_iff k).mpr ⟨x, hx, hxk⟩
      rw [hs] at hj
      exact absurd hj (by simp)
    simp only [removeKey, hs]
    exact (List.filter_eq_self.mpr (by simpa using hnone)).symm

theorem StrictKey.removeKey {l : List α} (h : StrictKey key l) (k : κ) :
    StrictKey key (removeKey key k l).2 := by
  rw [h.removeKey_snd k]
  exact h.filter _

theorem StrictKey.mem_removeKey {l : List α} (h : StrictKey key l) {k : κ} {x : α} :
    x ∈ (SortedVec.removeKey key k l).2 ↔ x ∈ l ∧ key x ≠ k := by
  rw [h.removeKey_snd k, List.mem_filter, decide_eq_true_iff]

/-- A `remove` that answers `false` left the vector as it was. -/
theorem removeKey_snd_of_fst_eq_false {l : List α} {k : κ} (h : (removeKey key k l).1 = false) :
    (removeKey key k l).2 = l := by
  unfold removeKey at h ⊢
  split at h
  · cases h
  · rfl

/-- An `insert` that answers `true` found no element of the key, and added `v`. -/
theorem StrictKey.insertKey_fst_eq_true {l : List α} (h : StrictKey key l) {v : α}
    (hi : (insertKey key v l).1 = true) :
    (∀ x ∈ l, key x ≠ key v) ∧ StrictKey key (insertKey key v l).2 ∧
      ∀ x, x ∈ (insertKey key v l).2 ↔ x = v ∨ x ∈ l := by
  have hv : ∀ x ∈ l, key x ≠ key v := by
    intro x hx hk
    rw [h.insertKey_of_mem hx hk] at hi
    cases hi
  obtain ⟨l', hl', hperm, hs⟩ := h.insertKey_of_not_mem hv
  rw [hl']
  exact ⟨hv, hs, fun x => by rw [hperm.mem_iff, List.mem_cons]⟩

/-- `remove` of `key v` then `insert` of `v`: the vector with `v` in place of whatever
    element of its key it had. -/
theorem StrictKey.insertKey_removeKey {l : List α} (h : StrictKey key l) (v : α) :
    StrictKey key (insertKey key v (SortedVec.removeKey key (key v) l).2).2 ∧
      ∀ x, x ∈ (insertKey key v (SortedVec.removeKey key (key v) l).2).2 ↔
        x = v ∨ (x ∈ l ∧ key x ≠ key v) := by
  obtain ⟨l', hl', hperm, hs⟩ := (h.removeKey (key v)).insertKey_of_not_mem (v := v)
    fun x hx => (StrictKey.mem_removeKey h |>.1 hx).2
  rw [hl']
  exact ⟨hs, fun x => by rw [hperm.mem_iff, List.mem_cons, StrictKey.mem_removeKey h]⟩

/-- The first element of key `k` in a strictly increasing vector is the one it holds. -/
theorem StrictKey.find?_key {l : List α} (h : StrictKey key l) {x : α} (hx : x ∈ l) {k : κ}
    (hk : key x = k) : l.find? (fun y => key y = k) = some x := by
  cases hf : l.find? (fun y => key y = k) with
  | none => exact absurd (List.find?_eq_none.1 hf x hx) (by simpa using hk)
  | some y =>
    have hy : key y = k := by simpa using List.find?_some hf
    rw [h.eq_of_key_eq (List.mem_of_find?_eq_some hf) hx (hy.trans hk.symm)]

/-- Rewriting the element at index `i` by a function that keeps its key: the vector stays
    strictly increasing, and holds the new element in place of the old one. -/
theorem StrictKey.modify {l : List α} (h : StrictKey key l) {i : Nat} {x : α} (hx : l[i]? = some x)
    {f : α → α} (hf : key (f x) = key x) :
    StrictKey key (l.modify i f) ∧ ∀ y, y ∈ l.modify i f ↔ y = f x ∨ (y ∈ l ∧ key y ≠ key x) := by
  obtain ⟨hi, -⟩ := List.getElem?_eq_some_iff.1 hx
  obtain ⟨l₁, a, l₂, rfl, hlen, hmod⟩ := List.exists_of_modify f hi
  have ha : a = x := by
    rw [List.getElem?_append_right (by omega), hlen, Nat.sub_self] at hx
    simpa using hx
  subst ha
  rw [hmod]
  unfold StrictKey at h ⊢
  rw [List.pairwise_append, List.pairwise_cons] at h ⊢
  obtain ⟨h₁, ⟨hx₂, h₂⟩, h₁₂⟩ := h
  refine ⟨⟨h₁, ⟨fun b hb => hf ▸ hx₂ b hb, h₂⟩, fun b hb y hy => ?_⟩, fun y => ?_⟩
  · rcases List.mem_cons.1 hy with rfl | hy
    · exact hf ▸ h₁₂ b hb _ List.mem_cons_self
    · exact h₁₂ b hb y (List.mem_cons_of_mem _ hy)
  · -- the elements on either side of `a` have other keys than `a`
    simp only [List.mem_append, List.mem_cons]
    constructor
    · rintro (hy | rfl | hy)
      · exact .inr ⟨.inl hy, (h₁₂ y hy _ List.mem_cons_self).ne⟩
      · exact .inl rfl
      · exact .inr ⟨.inr (.inr hy), (hx₂ y hy).ne'⟩
    · rintro (rfl | ⟨hy | rfl | hy, hk⟩)
      · exact .inr (.inl rfl)
      · exact .inl hy
      · exact absurd rfl hk
      · exact .inr (.inr hy)

end Key

/-! ## 3. The first `n` by a weight

A stable `sort_by` on a weight followed by `rev().take(n)` chooses the `n` heaviest
elements. Two facts carry every use of it: what is taken weighs at least what is left,
and a filter by a lower bound on the weight commutes with the take, because what passes
the bound is a prefix of the list. -/

section Weight

variable [LinearOrder κ] (weight : α → κ)

/-- The weights never increase along `l`. -/
def Desc (l : List α) : Prop := l.Pairwise (fun a b => weight b ≤ weight a)

variable {weight}

/-- An ascending insertion sort on the weight, reversed. -/
theorem desc_reverse_insertionSort (l : List α) :
    Desc weight (l.insertionSort (fun a b => weight a ≤ weight b)).reverse := by
  have htot : Std.Total (fun a b : α => weight a ≤ weight b) := ⟨fun a b => le_total _ _⟩
  have htrans : IsTrans α (fun a b => weight a ≤ weight b) := ⟨fun _ _ _ => le_trans⟩
  rw [Desc, List.pairwise_reverse]
  exact List.pairwise_insertionSort _ l

/-- A filter whose passing elements all come first commutes with `take`. -/
theorem filter_take_of_pairwise {p : α → Bool} {l : List α}
    (h : l.Pairwise fun a b => p b → p a) (n : Nat) :
    (l.take n).filter p = (l.filter p).take n := by
  induction l generalizing n with
  | nil => simp
  | cons a l ih =>
    rw [List.pairwise_cons] at h
    cases n with
    | zero => simp
    | succ n =>
      by_cases hpa : p a
      · simp [hpa, ih h.2]
      · -- past an element that fails, every later one fails too
        have hl : ∀ b ∈ l, ¬ p b := fun b hb hpb => hpa (h.1 b hb hpb)
        have hfl : l.filter p = [] := List.filter_eq_nil_iff.2 hl
        have hft : (l.take n).filter p = [] :=
          List.filter_eq_nil_iff.2 fun b hb => hl b (List.mem_of_mem_take hb)
        simp [hpa, hfl, hft]

/-- On a list heaviest first, the elements of weight at least `t` are a prefix: all that
    `dropWhile` leaves weigh less than `t`. -/
theorem Desc.lt_of_mem_dropWhile {l : List α} (h : Desc weight l) {t : κ} :
    ∀ y ∈ l.dropWhile (fun x => t ≤ weight x), weight y < t := by
  induction l with
  | nil => simp
  | cons a l ih =>
    rw [Desc, List.pairwise_cons] at h
    by_cases ha : t ≤ weight a
    · rw [List.dropWhile_cons_of_pos (by simpa using ha)]
      exact ih h.2
    · rw [List.dropWhile_cons_of_neg (by simpa using ha)]
      have hlt : weight a < t := lt_of_not_ge ha
      rintro y (_ | ⟨_, hy⟩)
      · exact hlt
      · exact lt_of_le_of_lt (h.1 y hy) hlt


/-- On a list heaviest first, a lower bound on the weight passes a prefix. -/
theorem Desc.filter_take {l : List α} (h : Desc weight l) (t : κ) (n : Nat) :
    (l.take n).filter (fun x => t ≤ weight x) = (l.filter fun x => t ≤ weight x).take n := by
  apply filter_take_of_pairwise
  refine h.imp fun {a b} hba hb => ?_
  simp only [decide_eq_true_eq] at hb ⊢
  exact le_trans hb hba

theorem Desc.le_of_mem_take_of_mem_drop {l : List α} (h : Desc weight l) {n : Nat} {a b : α}
    (ha : a ∈ l.take n) (hb : b ∈ l.drop n) : weight b ≤ weight a := by
  rw [Desc, ← List.take_append_drop n l, List.pairwise_append] at h
  exact h.2.2 a ha b hb

theorem Desc.length_filter_take {l : List α} (h : Desc weight l) (t : κ) (n : Nat) :
    ((l.take n).filter fun x => t ≤ weight x).length =
      min n (l.filter fun x => t ≤ weight x).length := by
  rw [h.filter_take, List.length_take]
end Weight

end SortedVec
