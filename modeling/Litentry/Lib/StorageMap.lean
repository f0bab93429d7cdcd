import Mathlib

/-!
# Storage maps that are iterated

A storage map that a pallet iterates is an `AList` here: `insert` replaces the entry of a
key, `erase` removes it, and `Map::iter()` is a pass over `entries`. The order of that pass
is the order of `entries`, which is not the order of the hashed keys a chain iterates in;
every fact below holds whatever the order is.

Two things recur. A pallet keeps a sum over a map in a storage value of its own;
`valueSum` is that sum, and `valueSum_insert` and `valueSum_erase` say how one write
changes it. A pass over a map often rewrites the entry it visits and nothing else:
`foldl_invariant` is the loop rule for such a pass, and `lookup_foldl` says what the map
holds after it.
-/

set_option autoImplicit false

namespace StorageMap

variable {α ν : Type*} [DecidableEq α]

/-- The sum of `f` over the values of a map. -/
def valueSum (f : ν → ℕ) (s : AList fun _ : α => ν) : ℕ := (s.entries.map fun e => f e.2).sum

/-- `f` of the value at `a`, or `0` when there is none. -/
def valueAt (f : ν → ℕ) (s : AList fun _ : α => ν) (a : α) : ℕ := ((s.lookup a).map f).getD 0

/-! ## Sums -/

section Sums

variable (f : ν → ℕ)

theorem sum_kerase {l : List (Σ _ : α, ν)} (hl : l.NodupKeys) (a : α) :
    ((l.kerase a).map fun e => f e.2).sum + ((l.dlookup a).map f).getD 0 =
      (l.map fun e => f e.2).sum := by
  by_cases ha : a ∈ l.keys
  · -- the entry of `a` sits between two parts that `kerase` keeps
    obtain ⟨b, l₁, l₂, -, rfl, hker⟩ := List.exists_of_kerase ha
    have hb : (l₁ ++ ⟨a, b⟩ :: l₂).dlookup a = some b := List.mem_dlookup hl (by simp)
    rw [hker, hb]
    simp only [List.map_append, List.map_cons, List.sum_append, List.sum_cons, Option.map_some,
      Option.getD_some]
    omega
  · rw [List.kerase_of_notMem_keys ha, List.dlookup_eq_none.2 ha]
    simp

omit [DecidableEq α] in
@[simp] theorem valueSum_empty : valueSum f (∅ : AList fun _ : α => ν) = 0 := rfl

/-- A write replaces the value at `a`, if any, by `v`. -/
theorem valueSum_insert (s : AList fun _ : α => ν) (a : α) (v : ν) :
    valueSum f (s.insert a v) + valueAt f s a = f v + valueSum f s := by
  have := sum_kerase f s.nodupKeys a
  simp only [valueSum, valueAt, AList.entries_insert, List.map_cons, List.sum_cons, AList.lookup]
  omega

/-- A removal takes the value at `a`, if any, out of the sum. -/
theorem valueSum_erase (s : AList fun _ : α => ν) (a : α) :
    valueSum f (s.erase a) + valueAt f s a = valueSum f s :=
  sum_kerase f s.nodupKeys a

theorem valueSum_eq_zero_iff (s : AList fun _ : α => ν) :
    valueSum f s = 0 ↔ ∀ a v, s.lookup a = some v → f v = 0 := by
  rw [valueSum, List.sum_eq_zero_iff_forall_eq_nat]
  constructor
  · intro h a v hv
    exact h (f v) (List.mem_map.2 ⟨⟨a, v⟩, AList.mem_lookup_iff.1 hv, rfl⟩)
  · intro h x hx
    obtain ⟨e, he, rfl⟩ := List.mem_map.1 hx
    exact h e.1 e.2 (AList.mem_lookup_iff.2 he)

/-- Two maps whose values agree under `f` key by key have the same sum. -/
theorem valueSum_congr {s s' : AList fun _ : α => ν}
    (h : ∀ a, (s'.lookup a).map f = (s.lookup a).map f) : valueSum f s' = valueSum f s := by
  -- both sums are over the same keys, with the same value of `f` at each
  let project (t : AList fun _ : α => ν) : List (Σ _ : α, ℕ) :=
    t.entries.map (Sigma.map id fun _ v => f v)
  have hnd : ∀ t : AList fun _ : α => ν, (project t).NodupKeys := by
    intro t
    have := t.nodupKeys
    simpa [project, List.NodupKeys, List.keys, Function.comp_def, Sigma.map] using this
  have hlookup : ∀ t : AList fun _ : α => ν, ∀ a,
      (project t).dlookup a = (t.lookup a).map f := by
    intro t a
    have hmap : (t.entries.map (Sigma.map id fun _ v => f v) : List (Σ _ : α, ℕ)).dlookup (id a) =
        (t.entries.dlookup a).map (fun v => f v) :=
      List.dlookup_map _ Function.injective_id _ a
    exact hmap
  have hperm : (project s').Perm (project s) :=
    List.lookup_ext (hnd s') (hnd s) (fun a n => by rw [hlookup, hlookup, h a])
  have hsum := (hperm.map fun e => e.2).sum_nat
  simpa [valueSum, project, Function.comp_def, Sigma.map] using hsum

/-- A map whose values are those of `s`, each rewritten by `g` at its key, sums as the
    rewritten entries of `s` do. -/
theorem valueSum_of_lookup_map {s s' : AList fun _ : α => ν} (g : α → ν → ν)
    (h : ∀ a, s'.lookup a = (s.lookup a).map (g a)) :
    valueSum f s' = (s.entries.map fun e => f (g e.1 e.2)).sum := by
  -- `s'` holds the rewritten entries of `s`, in some order
  have hnd : (s.entries.map (Sigma.map id g) : List (Σ _ : α, ν)).NodupKeys := by
    have := s.nodupKeys
    simpa [List.NodupKeys, List.keys, Function.comp_def, Sigma.map] using this
  have hperm : s'.entries.Perm (s.entries.map (Sigma.map id g) : List (Σ _ : α, ν)) :=
    List.lookup_ext s'.nodupKeys hnd (fun a v => by
      rw [List.dlookup_map₂]
      exact Iff.of_eq (congrArg (v ∈ ·) (h a)))
  have hsum := (hperm.map fun e => f e.2).sum_nat
  simpa [valueSum, Function.comp_def, Sigma.map] using hsum

theorem valueAt_le_valueSum (s : AList fun _ : α => ν) (a : α) : valueAt f s a ≤ valueSum f s := by
  have := valueSum_erase f s a
  omega

end Sums

/-! ## Sizes -/

theorem length_kerase {l : List (Σ _ : α, ν)} (a : α) :
    (l.kerase a).length + (if a ∈ l.keys then 1 else 0) = l.length := by
  by_cases ha : a ∈ l.keys
  · obtain ⟨b, l₁, l₂, -, rfl, hker⟩ := List.exists_of_kerase ha
    simp [hker]
    omega
  · simp [ha]

theorem length_insert (s : AList fun _ : α => ν) (a : α) (v : ν) :
    (s.insert a v).entries.length = s.entries.length + (if a ∈ s then 0 else 1) := by
  have h := length_kerase (l := s.entries) a
  have hmem : a ∈ s ↔ a ∈ s.entries.keys := AList.mem_keys
  rw [AList.entries_insert, List.length_cons]
  by_cases ha : a ∈ s
  · rw [if_pos (hmem.1 ha)] at h
    rw [if_pos ha]
    omega
  · rw [if_neg (mt hmem.2 ha)] at h
    rw [if_neg ha]
    omega

theorem length_erase (s : AList fun _ : α => ν) (a : α) :
    (s.erase a).entries.length + (if a ∈ s then 1 else 0) = s.entries.length := by
  have h := length_kerase (l := s.entries) a
  have hmem : a ∈ s ↔ a ∈ s.entries.keys := AList.mem_keys
  have herase : (s.erase a).entries = s.entries.kerase a := rfl
  rw [herase]
  by_cases ha : a ∈ s
  · rw [if_pos (hmem.1 ha)] at h
    rwa [if_pos ha]
  · rw [if_neg (mt hmem.2 ha)] at h
    rwa [if_neg ha]

/-- Two maps with the same keys have as many entries. -/
theorem length_entries_eq {s s' : AList fun _ : α => ν}
    (h : ∀ a, (s.lookup a).isSome ↔ (s'.lookup a).isSome) :
    s.entries.length = s'.entries.length := by
  have hkeys : s.keys.Perm s'.keys := by
    rw [List.perm_ext_iff_of_nodup s.keys_nodup s'.keys_nodup]
    intro a
    rw [← AList.mem_keys, ← AList.mem_keys, ← AList.lookup_isSome, ← AList.lookup_isSome, h]
  simpa [AList.keys, List.keys] using hkeys.length_eq

/-! ## Properties of every entry -/

section Entries

variable {P : α → ν → Prop} {s : AList fun _ : α => ν} {k : α}

/-- After a write, every entry is the written one or an entry of another key before. -/
theorem forall_lookup_insert {v : ν} (hk : P k v)
    (h : ∀ a w, s.lookup a = some w → a ≠ k → P a w) :
    ∀ a w, (s.insert k v).lookup a = some w → P a w := by
  intro a w hw
  by_cases ha : a = k
  · subst ha
    rw [AList.lookup_insert, Option.some.injEq] at hw
    exact hw ▸ hk
  · rw [AList.lookup_insert_ne ha] at hw
    exact h a w hw ha

/-- After a removal, every entry is an entry of another key before. -/
theorem forall_lookup_erase (h : ∀ a w, s.lookup a = some w → a ≠ k → P a w) :
    ∀ a w, (s.erase k).lookup a = some w → P a w := by
  intro a w hw
  by_cases ha : a = k
  · subst ha
    rw [AList.lookup_erase] at hw
    exact absurd hw (Option.some_ne_none w).symm
  · rw [AList.lookup_erase_ne ha] at hw
    exact h a w hw ha

end Entries

/-! ## Passes that rewrite the entry they visit -/

section Pass

variable {τ : Type*} (get : τ → AList fun _ : α => ν) (b : τ → (Σ _ : α, ν) → τ)

/-- Every entry of a map is what it looks up to. -/
theorem lookup_of_mem_entries (s : AList fun _ : α => ν) :
    ∀ e ∈ s.entries, s.lookup e.1 = some e.2 :=
  fun _ he => AList.mem_lookup_iff.2 he

/-- **The loop rule.** A pass over entries with distinct keys, each still current when it
    is visited, keeps `I` if every turn keeps it and changes no entry but the visited one. -/
theorem foldl_invariant
    (hframe : ∀ t e, (get t).lookup e.1 = some e.2 → ∀ a ≠ e.1,
      (get (b t e)).lookup a = (get t).lookup a)
    (I : τ → Prop) (hI : ∀ t e, (get t).lookup e.1 = some e.2 → I t → I (b t e)) :
    ∀ {l : List (Σ _ : α, ν)}, l.NodupKeys → ∀ {t : τ},
      (∀ e ∈ l, (get t).lookup e.1 = some e.2) → I t → I (l.foldl b t)
  | [], _, _, _, ht => ht
  | e :: l, hl, t, hcur, ht => by
    rw [List.nodupKeys_cons] at hl
    have he := hcur e List.mem_cons_self
    refine foldl_invariant hframe I hI hl.2 (fun e' he' => ?_) (hI t e he ht)
    -- a later entry has another key, so this turn left it alone
    have hne : e'.1 ≠ e.1 := fun h => hl.1 (h ▸ List.mem_keys_of_mem he')
    rw [hframe t e he e'.1 hne]
    exact hcur e' (List.mem_cons_of_mem _ he')

/-- What a pass leaves in the map, when each turn writes `g` of the value it visits. -/
theorem lookup_foldl (g : α → ν → ν)
    (hb : ∀ t e, (get t).lookup e.1 = some e.2 → ∀ a,
      (get (b t e)).lookup a = if a = e.1 then some (g e.1 e.2) else (get t).lookup a) :
    ∀ {l : List (Σ _ : α, ν)}, l.NodupKeys → ∀ {t : τ},
      (∀ e ∈ l, (get t).lookup e.1 = some e.2) → ∀ a,
        (get (l.foldl b t)).lookup a =
          if a ∈ l.keys then ((get t).lookup a).map (g a) else (get t).lookup a
  | [], _, _, _, _ => by simp
  | e :: l, hl, t, hcur, a => by
    rw [List.nodupKeys_cons] at hl
    have he := hcur e List.mem_cons_self
    have hcur' : ∀ e' ∈ l, (get (b t e)).lookup e'.1 = some e'.2 := by
      intro e' he'
      have hne : e'.1 ≠ e.1 := fun h => hl.1 (h ▸ List.mem_keys_of_mem he')
      rw [hb t e he, if_neg hne]
      exact hcur e' (List.mem_cons_of_mem _ he')
    rw [List.foldl_cons, lookup_foldl g hb hl.2 hcur' a, hb t e he]
    by_cases hae : a = e.1
    · -- the visited key: written once, and not visited again
      subst hae
      simp [hl.1, he]
    · simp [hae]

/-- A pass over all the entries of the map it rewrites. -/
theorem lookup_foldl_entries (g : α → ν → ν)
    (hb : ∀ t e, (get t).lookup e.1 = some e.2 → ∀ a,
      (get (b t e)).lookup a = if a = e.1 then some (g e.1 e.2) else (get t).lookup a)
    (t : τ) (a : α) :
    (get ((get t).entries.foldl b t)).lookup a = ((get t).lookup a).map (g a) := by
  rw [lookup_foldl get b g hb (get t).nodupKeys (lookup_of_mem_entries (get t)) a]
  split_ifs with ha
  · rfl
  · -- a key that is not there looks up to nothing, before and after
    have hnone : (get t).lookup a = none := AList.lookup_eq_none.2 (fun h => ha (AList.mem_keys.1 h))
    simp [hnone]

/-- What a pass that may fail leaves in the map, when it succeeds. -/
theorem lookup_foldlM {ε τ' : Type} (get' : τ' → AList fun _ : α => ν)
    (b' : τ' → (Σ _ : α, ν) → Except ε τ') (g : α → ν → ν)
    (hb : ∀ t e t', (get' t).lookup e.1 = some e.2 → b' t e = .ok t' → ∀ a,
      (get' t').lookup a = if a = e.1 then some (g e.1 e.2) else (get' t).lookup a) :
    ∀ {l : List (Σ _ : α, ν)}, l.NodupKeys → ∀ {t t' : τ'},
      (∀ e ∈ l, (get' t).lookup e.1 = some e.2) → l.foldlM b' t = .ok t' → ∀ a,
        (get' t').lookup a =
          if a ∈ l.keys then ((get' t).lookup a).map (g a) else (get' t).lookup a
  | [], _, _, _, _, h, _ => by
    simp only [List.foldlM_nil, pure, Except.pure, Except.ok.injEq] at h
    simp [h]
  | e :: l, hl, t, t', hcur, h, a => by
    rw [List.nodupKeys_cons] at hl
    rw [List.foldlM_cons] at h
    obtain ⟨t₁, h₁, h⟩ : ∃ t₁, b' t e = .ok t₁ ∧ l.foldlM b' t₁ = .ok t' := by
      cases hbt : b' t e with
      | error err => simp [hbt, bind, Except.bind] at h
      | ok t₁ => exact ⟨t₁, rfl, by simpa [hbt, bind, Except.bind] using h⟩
    have he := hcur e List.mem_cons_self
    have hcur' : ∀ e' ∈ l, (get' t₁).lookup e'.1 = some e'.2 := by
      intro e' he'
      have hne : e'.1 ≠ e.1 := fun h => hl.1 (h ▸ List.mem_keys_of_mem he')
      rw [hb t e t₁ he h₁, if_neg hne]
      exact hcur e' (List.mem_cons_of_mem _ he')
    rw [lookup_foldlM get' b' g hb hl.2 hcur' h a, hb t e t₁ he h₁]
    by_cases hae : a = e.1
    · subst hae
      simp [hl.1, he]
    · simp [hae]

end Pass

end StorageMap
