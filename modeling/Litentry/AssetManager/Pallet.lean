import Litentry.Lib.Reach

/-!
# `pallet_asset_manager`: foreign asset ids and their XCM types

The pallet (`pallets/xcm-asset-manager/src/lib.rs`) names foreign assets by a number
handed out from `ForeignAssetTracker`, and maps them both ways to the XCM location type
they arrive under: `AssetIdType` from an id to its default type, `AssetTypeId` from every
type registered for an id back to it. An id may gain further types (`add_asset_type`,
which also makes the new one the default) and lose them again (`remove_asset_type`), but
never its last one and never its default.

Every call runs in a storage transaction, so a call that fails leaves no write behind:
`remove_asset_type` may write a new default and then reject the removal, and that write
is dropped with the rest. Each function here returns the new state or an error, and the
machine drops a failed call. The origin check (`T::ForeignAssetModifierOrigin`) is left
out: any of the calls may be made at any time. Events are left out. `T::AssetId` is an
unsigned number whose largest value is `assetIdMax`; `checked_add` fails past it.
-/

set_option autoImplicit false

namespace Litentry
namespace AssetManager

/-! ## 1. Types and state -/

/-- `AssetMetadata<Balance>`. -/
structure AssetMetadata where
  name : List UInt8
  symbol : List UInt8
  decimals : UInt8
  minimalBalance : Nat
  isFrozen : Bool
  deriving DecidableEq, Repr

/-- The pallet's storage over the foreign asset type `τ`. No genesis config writes it. -/
structure State (τ : Type) where
  assetIdType : Nat → Option τ
  assetTypeId : τ → Option Nat
  assetIdUnitsPerSecond : Nat → Nat
  foreignAssetTracker : Nat
  assetIdMetadata : Nat → Option AssetMetadata

/-- Empty storage: every map empty and the tracker at `0`. -/
def genesis {τ : Type} : State τ := ⟨fun _ => none, fun _ => none, fun _ => 0, 0, fun _ => none⟩

/-- The pallet's `Error`. -/
inductive Error where
  | assetAlreadyExists
  | assetTypeDoesNotExist
  | assetIdDoesNotExist
  | defaultAssetTypeRemoved
  | assetIdLimitReached
  deriving DecidableEq, Repr

/-- `checked_add(&One::one())` on `T::AssetId`. -/
def checkedSucc (assetIdMax a : Nat) : Option Nat := if a < assetIdMax then some (a + 1) else none

/-! ## 2. The calls -/

variable {τ : Type} [DecidableEq τ]

/-- `register_foreign_asset_type`: the tracker's value becomes the id of `assetType`. -/
def registerForeignAssetType (assetIdMax : Nat) (s : State τ) (assetType : τ)
    (metadata : AssetMetadata) : Except Error (State τ) := do
  if (s.assetTypeId assetType).isSome then throw .assetAlreadyExists
  let assetId := s.foreignAssetTracker
  let s := { s with assetIdMetadata := Function.update s.assetIdMetadata assetId (some metadata) }
  let s := { s with assetIdType := Function.update s.assetIdType assetId (some assetType) }
  let s := { s with assetTypeId := Function.update s.assetTypeId assetType (some assetId) }
  let next ← Reach.okOr (checkedSucc assetIdMax assetId) .assetIdLimitReached
  pure { s with foreignAssetTracker := next }

/-- `update_foreign_asset_metadata`. -/
def updateForeignAssetMetadata (s : State τ) (assetId : Nat) (metadata : AssetMetadata) :
    Except Error (State τ) := do
  if (s.assetIdType assetId).isNone then throw .assetIdDoesNotExist
  pure { s with assetIdMetadata := Function.update s.assetIdMetadata assetId (some metadata) }

/-- `set_asset_units_per_second`. -/
def setAssetUnitsPerSecond (s : State τ) (assetId unitsPerSecond : Nat) :
    Except Error (State τ) := do
  if (s.assetIdType assetId).isNone then throw .assetIdDoesNotExist
  pure { s with
    assetIdUnitsPerSecond := Function.update s.assetIdUnitsPerSecond assetId unitsPerSecond }

/-- `add_asset_type`: the new type maps to the id and becomes its default; the old
    default keeps its entry in `AssetTypeId`. -/
def addAssetType (s : State τ) (assetId : Nat) (newAssetType : τ) : Except Error (State τ) := do
  if (s.assetIdType assetId).isNone then throw .assetIdDoesNotExist
  if (s.assetTypeId newAssetType).isSome then throw .assetAlreadyExists
  let s := { s with assetIdType := Function.update s.assetIdType assetId (some newAssetType) }
  pure { s with assetTypeId := Function.update s.assetTypeId newAssetType (some assetId) }

/-- The `if let Some(i) = new_default_asset_type` block of `remove_asset_type`: the new
    default must already map to the same id, and is written as its default. -/
def writeNewDefault (s : State τ) (assetId : Nat) : Option τ → Except Error (State τ)
  | none => pure s
  | some i => do
    let j ← Reach.okOr (s.assetTypeId i) .assetTypeDoesNotExist
    if j ≠ assetId then throw .assetAlreadyExists
    pure { s with assetIdType := Function.update s.assetIdType assetId (some i) }

/-- `remove_asset_type`: the new default, if any, is written first; the removal is then
    refused if it would remove the default. -/
def removeAssetType (s : State τ) (assetType : τ) (newDefaultAssetType : Option τ) :
    Except Error (State τ) := do
  let assetId ← Reach.okOr (s.assetTypeId assetType) .assetTypeDoesNotExist
  let s ← writeNewDefault s assetId newDefaultAssetType
  let defaultAssetType ← Reach.okOr (s.assetIdType assetId) .assetIdDoesNotExist
  if defaultAssetType = assetType then throw .defaultAssetTypeRemoved
  pure { s with assetTypeId := Function.update s.assetTypeId assetType none }

/-- The pallet's extrinsics. -/
inductive Call (τ : Type) where
  | registerForeignAssetType (assetType : τ) (metadata : AssetMetadata)
  | updateForeignAssetMetadata (assetId : Nat) (metadata : AssetMetadata)
  | setAssetUnitsPerSecond (assetId unitsPerSecond : Nat)
  | addAssetType (assetId : Nat) (newAssetType : τ)
  | removeAssetType (assetType : τ) (newDefaultAssetType : Option τ)

/-- One extrinsic. -/
def step (assetIdMax : Nat) (s : State τ) : Call τ → Except Error (State τ)
  | .registerForeignAssetType t m => registerForeignAssetType assetIdMax s t m
  | .updateForeignAssetMetadata i m => updateForeignAssetMetadata s i m
  | .setAssetUnitsPerSecond i u => setAssetUnitsPerSecond s i u
  | .addAssetType i t => addAssetType s i t
  | .removeAssetType t d => removeAssetType s t d

/-- A run starts from empty storage. -/
def IsGenesis (s : State τ) : Prop := s = genesis

/-- The states a run from empty storage can be in. -/
def Reachable (assetIdMax : Nat) : State τ → Prop :=
  Reach.Reachable IsGenesis (step assetIdMax)

/-! ## 3. What a call can do

One spec lemma per call, then `Move`: every way a successful call changes the storage,
with the guards it passed. The invariant is proved once over `Move`. -/

section Spec

variable {assetIdMax : Nat} {s s' : State τ}

theorem checkedSucc_eq_some {a b : Nat} :
    checkedSucc assetIdMax a = some b ↔ a < assetIdMax ∧ b = a + 1 := by
  unfold checkedSucc
  split_ifs with h <;> simp [h, eq_comm]

theorem registerForeignAssetType_ok {t : τ} {m : AssetMetadata}
    (h : registerForeignAssetType assetIdMax s t m = .ok s') :
    s.assetTypeId t = none ∧ s.foreignAssetTracker < assetIdMax ∧
      s' = { s with
        assetIdMetadata := Function.update s.assetIdMetadata s.foreignAssetTracker (some m)
        assetIdType := Function.update s.assetIdType s.foreignAssetTracker (some t)
        assetTypeId := Function.update s.assetTypeId t (some s.foreignAssetTracker)
        foreignAssetTracker := s.foreignAssetTracker + 1 } := by
  unfold registerForeignAssetType at h
  dsimp only at h
  obtain ⟨ht, h⟩ := Reach.ite_throw_bind_eq_ok.1 h
  obtain ⟨next, hnext, h⟩ := Reach.okOr_bind_eq_ok.1 h
  obtain ⟨hlt, rfl⟩ := checkedSucc_eq_some.1 hnext
  rw [Reach.pure_eq_ok] at h
  exact ⟨by simpa using ht, hlt, h.symm⟩

omit [DecidableEq τ] in
theorem updateForeignAssetMetadata_ok {i : Nat} {m : AssetMetadata}
    (h : updateForeignAssetMetadata s i m = .ok s') :
    (s.assetIdType i).isSome ∧
      s' = { s with assetIdMetadata := Function.update s.assetIdMetadata i (some m) } := by
  unfold updateForeignAssetMetadata at h
  dsimp only at h
  obtain ⟨hi, h⟩ := Reach.ite_throw_bind_eq_ok.1 h
  rw [Reach.pure_eq_ok] at h
  exact ⟨Option.ne_none_iff_isSome.1 (by simpa using hi), h.symm⟩

omit [DecidableEq τ] in
theorem setAssetUnitsPerSecond_ok {i u : Nat} (h : setAssetUnitsPerSecond s i u = .ok s') :
    (s.assetIdType i).isSome ∧
      s' = { s with assetIdUnitsPerSecond := Function.update s.assetIdUnitsPerSecond i u } := by
  unfold setAssetUnitsPerSecond at h
  dsimp only at h
  obtain ⟨hi, h⟩ := Reach.ite_throw_bind_eq_ok.1 h
  rw [Reach.pure_eq_ok] at h
  exact ⟨Option.ne_none_iff_isSome.1 (by simpa using hi), h.symm⟩

theorem addAssetType_ok {i : Nat} {t : τ} (h : addAssetType s i t = .ok s') :
    (s.assetIdType i).isSome ∧ s.assetTypeId t = none ∧
      s' = { s with
        assetIdType := Function.update s.assetIdType i (some t)
        assetTypeId := Function.update s.assetTypeId t (some i) } := by
  unfold addAssetType at h
  dsimp only at h
  obtain ⟨hi, h⟩ := Reach.ite_throw_bind_eq_ok.1 h
  obtain ⟨ht, h⟩ := Reach.ite_throw_bind_eq_ok.1 h
  rw [Reach.pure_eq_ok] at h
  exact ⟨Option.ne_none_iff_isSome.1 (by simpa using hi), by simpa using ht, h.symm⟩

omit [DecidableEq τ] in
theorem writeNewDefault_ok {i : Nat} {nd : Option τ} (h : writeNewDefault s i nd = .ok s') :
    (nd = none ∧ s' = s) ∨
      ∃ d, nd = some d ∧ s.assetTypeId d = some i ∧
        s' = { s with assetIdType := Function.update s.assetIdType i (some d) } := by
  cases nd with
  | none => exact .inl ⟨rfl, (Reach.pure_eq_ok.1 h).symm⟩
  | some d =>
    simp only [writeNewDefault] at h
    obtain ⟨j, hj, h⟩ := Reach.okOr_bind_eq_ok.1 h
    obtain ⟨hji, h⟩ := Reach.ite_throw_bind_eq_ok.1 h
    rw [Reach.pure_eq_ok] at h
    exact .inr ⟨d, rfl, by rw [hj, not_not.1 hji], h.symm⟩

theorem removeAssetType_ok {t : τ} {nd : Option τ} (h : removeAssetType s t nd = .ok s') :
    ∃ i d, s.assetTypeId t = some i ∧ d ≠ t ∧
      ((nd = none ∧ s.assetIdType i = some d ∧
          s' = { s with assetTypeId := Function.update s.assetTypeId t none }) ∨
        (nd = some d ∧ s.assetTypeId d = some i ∧
          s' = { s with
            assetIdType := Function.update s.assetIdType i (some d)
            assetTypeId := Function.update s.assetTypeId t none })) := by
  unfold removeAssetType at h
  obtain ⟨i, hi, h⟩ := Reach.okOr_bind_eq_ok.1 h
  obtain ⟨s₁, hs₁, h⟩ := Reach.bind_eq_ok.1 h
  obtain ⟨d, hd, h⟩ := Reach.okOr_bind_eq_ok.1 h
  dsimp only at h
  obtain ⟨hdt, h⟩ := Reach.ite_throw_bind_eq_ok.1 h
  rw [Reach.pure_eq_ok] at h
  subst h
  refine ⟨i, d, hi, hdt, ?_⟩
  rcases writeNewDefault_ok hs₁ with ⟨rfl, rfl⟩ | ⟨d', rfl, hd', rfl⟩
  · exact .inl ⟨rfl, hd, rfl⟩
  · -- the default read back is the one just written
    have hdd : d' = d := by simpa using hd
    subst hdd
    exact .inr ⟨rfl, hd', rfl⟩

/-- Every way a successful call changes the storage, with the guards it passed. -/
inductive Move (assetIdMax : Nat) (s : State τ) : State τ → Prop
  | register (t : τ) (m : AssetMetadata) :
      s.assetTypeId t = none → s.foreignAssetTracker < assetIdMax →
      Move assetIdMax s { s with
        assetIdMetadata := Function.update s.assetIdMetadata s.foreignAssetTracker (some m)
        assetIdType := Function.update s.assetIdType s.foreignAssetTracker (some t)
        assetTypeId := Function.update s.assetTypeId t (some s.foreignAssetTracker)
        foreignAssetTracker := s.foreignAssetTracker + 1 }
  | metadata (i : Nat) (m : AssetMetadata) : (s.assetIdType i).isSome →
      Move assetIdMax s { s with assetIdMetadata := Function.update s.assetIdMetadata i (some m) }
  | unitsPerSecond (i u : Nat) : (s.assetIdType i).isSome →
      Move assetIdMax s
        { s with assetIdUnitsPerSecond := Function.update s.assetIdUnitsPerSecond i u }
  | addType (i : Nat) (t : τ) : (s.assetIdType i).isSome → s.assetTypeId t = none →
      Move assetIdMax s { s with
        assetIdType := Function.update s.assetIdType i (some t)
        assetTypeId := Function.update s.assetTypeId t (some i) }
  /-- A removal that keeps the default `d` the id already has. -/
  | removeType (t : τ) (i : Nat) (d : τ) :
      s.assetTypeId t = some i → s.assetIdType i = some d → d ≠ t →
      Move assetIdMax s { s with assetTypeId := Function.update s.assetTypeId t none }
  /-- A removal that first makes `d`, another type of the same id, its default. -/
  | removeTypeNewDefault (t : τ) (i : Nat) (d : τ) :
      s.assetTypeId t = some i → s.assetTypeId d = some i → d ≠ t →
      Move assetIdMax s { s with
        assetIdType := Function.update s.assetIdType i (some d)
        assetTypeId := Function.update s.assetTypeId t none }

theorem step_move {c : Call τ} (h : step assetIdMax s c = .ok s') : Move assetIdMax s s' := by
  cases c with
  | registerForeignAssetType t m =>
    obtain ⟨ht, hlt, rfl⟩ := registerForeignAssetType_ok h
    exact .register t m ht hlt
  | updateForeignAssetMetadata i m =>
    obtain ⟨hi, rfl⟩ := updateForeignAssetMetadata_ok h
    exact .metadata i m hi
  | setAssetUnitsPerSecond i u =>
    obtain ⟨hi, rfl⟩ := setAssetUnitsPerSecond_ok h
    exact .unitsPerSecond i u hi
  | addAssetType i t =>
    obtain ⟨hi, ht, rfl⟩ := addAssetType_ok h
    exact .addType i t hi ht
  | removeAssetType t nd =>
    obtain ⟨i, d, hi, hdt, ⟨-, hd, rfl⟩ | ⟨-, hd, rfl⟩⟩ := removeAssetType_ok h
    · exact .removeType t i d hi hd hdt
    · exact .removeTypeNewDefault t i d hi hd hdt

end Spec

/-! ## 4. The two maps agree

`AssetIdType` picks, for every id in use, one of the types that `AssetTypeId` maps to
it; the ids `AssetTypeId` maps to are exactly those with a default, exactly those with
metadata, and all lie below the tracker, which never goes down. -/

/-- The invariant of the pallet's storage. -/
structure Inv (s : State τ) : Prop where
  typeId_of_idType : ∀ i t, s.assetIdType i = some t → s.assetTypeId t = some i
  idType_of_typeId : ∀ t i, s.assetTypeId t = some i → (s.assetIdType i).isSome
  idType_iff_metadata : ∀ i, (s.assetIdType i).isSome ↔ (s.assetIdMetadata i).isSome
  lt_tracker : ∀ i, (s.assetIdType i).isSome → i < s.foreignAssetTracker

section Inv

variable {assetIdMax : Nat} {s s' : State τ}

omit [DecidableEq τ] in
theorem Inv.genesis : Inv (genesis : State τ) :=
  ⟨by simp [AssetManager.genesis], by simp [AssetManager.genesis],
    by simp [AssetManager.genesis], by simp [AssetManager.genesis]⟩

omit [DecidableEq τ] in
/-- A registration hands out an id nothing uses yet. -/
theorem Inv.tracker_free (h : Inv s) :
    s.assetIdType s.foreignAssetTracker = none ∧ s.assetIdMetadata s.foreignAssetTracker = none ∧
      ∀ t, s.assetTypeId t ≠ some s.foreignAssetTracker := by
  have hfree : s.assetIdType s.foreignAssetTracker = none := by
    by_contra hne
    exact Nat.lt_irrefl _ (h.lt_tracker _ (Option.ne_none_iff_isSome.1 hne))
  refine ⟨hfree, ?_, fun t ht => ?_⟩
  · have := (h.idType_iff_metadata s.foreignAssetTracker).not
    simpa [hfree] using this
  · simpa [hfree] using h.idType_of_typeId t _ ht

theorem Inv.register (h : Inv s) {t : τ} (m : AssetMetadata) (ht : s.assetTypeId t = none) :
    Inv { s with
      assetIdMetadata := Function.update s.assetIdMetadata s.foreignAssetTracker (some m)
      assetIdType := Function.update s.assetIdType s.foreignAssetTracker (some t)
      assetTypeId := Function.update s.assetTypeId t (some s.foreignAssetTracker)
      foreignAssetTracker := s.foreignAssetTracker + 1 } := by
  obtain ⟨hfree, -, hnot⟩ := h.tracker_free
  constructor
  · intro i t' hi
    simp only [Function.update_apply] at hi ⊢
    split_ifs at hi with hik
    · cases hi
      simp [hik]
    · -- an old default is not the new type, which had no id
      have hold := h.typeId_of_idType i t' hi
      have ht' : t' ≠ t := by
        rintro rfl
        simp [ht] at hold
      simp [ht', hold]
  · intro t' i hi
    simp only [Function.update_apply] at hi ⊢
    split_ifs at hi with htt
    · cases hi
      simp
    · have hold := h.idType_of_typeId t' i hi
      split_ifs <;> simp [hold]
  · intro i
    simp only [Function.update_apply]
    split_ifs
    · simp
    · exact h.idType_iff_metadata i
  · intro i hi
    show i < s.foreignAssetTracker + 1
    simp only [Function.update_apply] at hi
    split_ifs at hi with hik
    · omega
    · have := h.lt_tracker i hi
      omega

omit [DecidableEq τ] in
theorem Inv.metadata (h : Inv s) {i : Nat} (m : AssetMetadata) (hi : (s.assetIdType i).isSome) :
    Inv { s with assetIdMetadata := Function.update s.assetIdMetadata i (some m) } := by
  refine ⟨h.typeId_of_idType, h.idType_of_typeId, fun j => ?_, h.lt_tracker⟩
  simp only [Function.update_apply]
  split_ifs with hji
  · subst hji
    simp [hi]
  · exact h.idType_iff_metadata j

omit [DecidableEq τ] in
theorem Inv.unitsPerSecond (h : Inv s) (i u : Nat) :
    Inv { s with assetIdUnitsPerSecond := Function.update s.assetIdUnitsPerSecond i u } :=
  ⟨h.typeId_of_idType, h.idType_of_typeId, h.idType_iff_metadata, h.lt_tracker⟩

theorem Inv.addType (h : Inv s) {i : Nat} {t : τ} (hi : (s.assetIdType i).isSome)
    (ht : s.assetTypeId t = none) :
    Inv { s with
      assetIdType := Function.update s.assetIdType i (some t)
      assetTypeId := Function.update s.assetTypeId t (some i) } := by
  constructor
  · intro j t' hj
    simp only [Function.update_apply] at hj ⊢
    split_ifs at hj with hji
    · cases hj
      simp [hji]
    · have hold := h.typeId_of_idType j t' hj
      have ht' : t' ≠ t := by
        rintro rfl
        simp [ht] at hold
      simp [ht', hold]
  · intro t' j hj
    simp only [Function.update_apply] at hj ⊢
    split_ifs at hj with htt
    · cases hj
      simp
    · have hold := h.idType_of_typeId t' j hj
      split_ifs <;> simp [hold]
  · intro j
    simp only [Function.update_apply]
    split_ifs with hji
    · subst hji
      simpa using (h.idType_iff_metadata j).1 hi
    · exact h.idType_iff_metadata j
  · intro j hj
    simp only [Function.update_apply] at hj
    split_ifs at hj with hji
    · subst hji
      exact h.lt_tracker j hi
    · exact h.lt_tracker j hj

theorem Inv.removeType (h : Inv s) {t d : τ} {i : Nat} (hti : s.assetTypeId t = some i)
    (hd : s.assetIdType i = some d) (hdt : d ≠ t) :
    Inv { s with assetTypeId := Function.update s.assetTypeId t none } := by
  refine ⟨fun j t' hj => ?_, fun t' j hj => ?_, h.idType_iff_metadata, h.lt_tracker⟩
  · have hold := h.typeId_of_idType j t' hj
    simp only [Function.update_apply]
    split_ifs with htt
    · -- the removed type would be the default of its own id
      subst htt
      have hji : j = i := Option.some.inj (hold.symm.trans hti)
      subst hji
      exact absurd (Option.some.inj (hj.symm.trans hd)) (Ne.symm hdt)
    · exact hold
  · simp only [Function.update_apply] at hj
    split_ifs at hj
    exact h.idType_of_typeId t' j hj

theorem Inv.removeTypeNewDefault (h : Inv s) {t d : τ} {i : Nat} (hti : s.assetTypeId t = some i)
    (hdi : s.assetTypeId d = some i) (hdt : d ≠ t) :
    Inv { s with
      assetIdType := Function.update s.assetIdType i (some d)
      assetTypeId := Function.update s.assetTypeId t none } := by
  have hi : (s.assetIdType i).isSome := h.idType_of_typeId t i hti
  constructor
  · intro j t' hj
    simp only [Function.update_apply] at hj ⊢
    split_ifs at hj with hji
    · cases hj
      simp [hdt, hdi, hji]
    · have hold := h.typeId_of_idType j t' hj
      -- the removed type maps to `i`, not to `j`
      have ht' : t' ≠ t := by
        rintro rfl
        exact hji (Option.some.inj (hold.symm.trans hti))
      simp [ht', hold]
  · intro t' j hj
    simp only [Function.update_apply] at hj ⊢
    split_ifs at hj
    have hold := h.idType_of_typeId t' j hj
    split_ifs <;> simp [hold]
  · intro j
    simp only [Function.update_apply]
    split_ifs with hji
    · subst hji
      simpa using (h.idType_iff_metadata j).1 hi
    · exact h.idType_iff_metadata j
  · intro j hj
    simp only [Function.update_apply] at hj
    split_ifs at hj with hji
    · subst hji
      exact h.lt_tracker j hi
    · exact h.lt_tracker j hj

theorem Move.tracker_le (hm : Move assetIdMax s s') :
    s.foreignAssetTracker ≤ s'.foreignAssetTracker := by
  cases hm with
  | register => exact Nat.le_succ _
  | _ => exact Nat.le_refl _

theorem Move.inv (hm : Move assetIdMax s s') (h : Inv s) : Inv s' := by
  cases hm with
  | register t m ht _ => exact h.register m ht
  | metadata i m hi => exact h.metadata m hi
  | unitsPerSecond i u _ => exact h.unitsPerSecond i u
  | addType i t hi ht => exact h.addType hi ht
  | removeType t i d hti hd hdt => exact h.removeType hti hd hdt
  | removeTypeNewDefault t i d hti hdi hdt => exact h.removeTypeNewDefault hti hdi hdt

theorem Reachable.inv (h : Reachable assetIdMax s) : Inv s :=
  Reach.Reachable.invariant (fun _ hs => (show _ = genesis from hs) ▸ Inv.genesis)
    (fun _ _ _ hs hst => (step_move hst).inv hs) h

end Inv

theorem assetTypeMaps_agree {assetIdMax : Nat} {s : State τ} (h : Reachable assetIdMax s) :
    (∀ i t, s.assetIdType i = some t → s.assetTypeId t = some i) ∧
      (∀ t i, s.assetTypeId t = some i → (s.assetIdType i).isSome) ∧
      (∀ i, (s.assetIdType i).isSome ↔ (s.assetIdMetadata i).isSome) ∧
      (∀ i, (s.assetIdType i).isSome → i < s.foreignAssetTracker) ∧
      (∀ c s', step assetIdMax s c = .ok s' → s.foreignAssetTracker ≤ s'.foreignAssetTracker) ∧
      (∀ t m s', registerForeignAssetType assetIdMax s t m = .ok s' →
        s.assetIdType s.foreignAssetTracker = none ∧
          ∀ t', s.assetTypeId t' ≠ some s.foreignAssetTracker) := by
  have hinv := h.inv
  refine ⟨hinv.typeId_of_idType, hinv.idType_of_typeId, hinv.idType_iff_metadata,
    hinv.lt_tracker, fun c s' hs => (step_move hs).tracker_le, fun t m s' _ => ?_⟩
  obtain ⟨hfree, -, hnot⟩ := hinv.tracker_free
  exact ⟨hfree, hnot⟩

/-- The storage after the first registration: `assetType` is id `0`. -/
def firstRegistered (assetType : τ) (metadata : AssetMetadata) : State τ :=
  ⟨Function.update (fun _ => none) 0 (some assetType),
    Function.update (fun _ => none) assetType (some 0), fun _ => 0, 1,
    Function.update (fun _ => none) 0 (some metadata)⟩

theorem reachable_firstRegistered (assetIdMax : Nat) (hmax : 0 < assetIdMax) (assetType : τ)
    (metadata : AssetMetadata) : Reachable assetIdMax (firstRegistered assetType metadata) := by
  have hreg : registerForeignAssetType assetIdMax genesis assetType metadata =
      .ok (firstRegistered assetType metadata) := by
    simp [registerForeignAssetType, genesis, checkedSucc, hmax, Reach.okOr, firstRegistered,
      bind, Except.bind, pure, Except.pure]
  exact .step (.registerForeignAssetType assetType metadata) (.init rfl) hreg

/-- Register type `7`, give its id a second type `8`, which becomes the default, then
    remove `7`. -/
def assetRun : List (Call Nat) :=
  [.registerForeignAssetType 7 ⟨[], [], 12, 1, false⟩, .addAssetType 0 8, .removeAssetType 7 none]

theorem assetRun_checks :
    Reach.runChecks (step 10) genesis assetRun
      (fun s => s.assetTypeId 7 == none && s.assetIdType 0 == some 8) = true := by
  decide

theorem assetTypeMaps_agree_after_run : ∃ s : State Nat, Reachable 10 s ∧
    s.assetTypeId 7 = none ∧ s.assetIdType 0 = some 8 ∧ s.assetTypeId 8 = some 0 := by
  have h₀ : IsGenesis (genesis : State Nat) := rfl
  obtain ⟨s, hs, hp⟩ := Reach.Reachable.of_runChecks h₀ assetRun_checks
  simp only [Bool.and_eq_true, beq_iff_eq] at hp
  exact ⟨s, hs, hp.1, hp.2, (assetTypeMaps_agree hs).1 0 8 hp.2⟩

end AssetManager
end Litentry
