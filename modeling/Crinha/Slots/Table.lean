import Mathlib.Data.Fintype.Card

/-!
# Tables of slots

* `keys_insert`, `keys_erase`: a table of distinct keys behaves as the set of its keys.
-/

namespace Slots

variable {ι κ : Type} [Fintype ι] [DecidableEq ι] [DecidableEq κ] {free : κ} {t : ι → κ}
  {i : ι} {k : κ}

/-- The slots in use. -/
def occupied (free : κ) (t : ι → κ) : Finset ι := Finset.univ.filter fun i => t i ≠ free

def keys (free : κ) (t : ι → κ) : Finset κ := (occupied free t).image t

/-- No key is in two slots. -/
def Distinct (free : κ) (t : ι → κ) : Prop := ∀ i j, t i ≠ free → t i = t j → i = j

omit [DecidableEq ι] in
@[simp] theorem mem_occupied : i ∈ occupied free t ↔ t i ≠ free := by simp [occupied]

omit [DecidableEq ι] in
theorem mem_keys : k ∈ keys free t ↔ k ≠ free ∧ ∃ i, t i = k := by
  simp only [keys, Finset.mem_image, mem_occupied]
  constructor
  · rintro ⟨i, hi, rfl⟩
    exact ⟨hi, i, rfl⟩
  · rintro ⟨hk, i, rfl⟩
    exact ⟨i, hk, rfl⟩

omit [DecidableEq ι] in
/-- A table that is not full has a free slot. -/
theorem exists_free (h : (occupied free t).card < Fintype.card ι) : ∃ i, t i = free := by
  by_contra hno
  push Not at hno
  have hall : occupied free t = Finset.univ := by
    ext i
    simp [hno i]
  rw [hall, Finset.card_univ] at h
  exact absurd h (Nat.lt_irrefl _)

/-! ## A key goes into a free slot -/

theorem occupied_insert (hk : k ≠ free) :
    occupied free (Function.update t i k) = insert i (occupied free t) := by
  ext j
  by_cases hj : j = i
  · subst hj
    simp [hk]
  · simp [hj]

theorem card_occupied_insert (hi : t i = free) (hk : k ≠ free) :
    (occupied free (Function.update t i k)).card = (occupied free t).card + 1 := by
  rw [occupied_insert hk, Finset.card_insert_of_notMem (by simp [hi])]

theorem keys_insert (hi : t i = free) (hk : k ≠ free) :
    keys free (Function.update t i k) = insert k (keys free t) := by
  ext x
  simp only [mem_keys, Finset.mem_insert]
  constructor
  · rintro ⟨hx, j, rfl⟩
    by_cases hj : j = i
    · subst hj
      exact .inl (by simp)
    · exact .inr ⟨hx, j, by simp [hj]⟩
  · rintro (rfl | ⟨hx, j, rfl⟩)
    · exact ⟨hk, i, by simp⟩
    · have hj : j ≠ i := by
        rintro rfl
        exact hx hi
      exact ⟨hx, j, by simp [hj]⟩

theorem Distinct.insert (h : Distinct free t) (hk : k ∉ keys free t) :
    Distinct free (Function.update t i k) := by
  have hno {j : ι} (hj : t j ≠ free) : t j ≠ k := by
    rintro rfl
    exact hk (mem_keys.mpr ⟨hj, j, rfl⟩)
  intro a b ha hab
  by_cases hai : a = i <;> by_cases hbi : b = i
  · rw [hai, hbi]
  · subst hai
    simp only [Function.update_self, Function.update_of_ne hbi] at ha hab
    exact absurd hab.symm (hno (hab ▸ ha))
  · subst hbi
    simp only [Function.update_self, Function.update_of_ne hai] at ha hab
    exact absurd hab (hno ha)
  · simp only [Function.update_of_ne hai, Function.update_of_ne hbi] at ha hab
    exact h a b ha hab

/-! ## A slot is freed -/

theorem occupied_erase :
    occupied free (Function.update t i free) = (occupied free t).erase i := by
  ext j
  by_cases hj : j = i
  · subst hj
    simp
  · simp [hj]

theorem card_occupied_erase (hi : t i ≠ free) :
    (occupied free (Function.update t i free)).card = (occupied free t).card - 1 := by
  rw [occupied_erase, Finset.card_erase_of_mem (mem_occupied.mpr hi)]

theorem keys_erase (h : Distinct free t) (hi : t i ≠ free) :
    keys free (Function.update t i free) = (keys free t).erase (t i) := by
  ext x
  simp only [mem_keys, Finset.mem_erase]
  constructor
  · rintro ⟨hx, j, hj⟩
    have hji : j ≠ i := by
      rintro rfl
      exact hx (by simpa using hj.symm)
    rw [Function.update_of_ne hji] at hj
    refine ⟨?_, hx, j, hj⟩
    rintro rfl
    exact hji (h i j hi hj.symm).symm
  · rintro ⟨hne, hx, j, rfl⟩
    have hji : j ≠ i := by
      rintro rfl
      exact hne rfl
    exact ⟨hx, j, Function.update_of_ne hji _ _⟩

omit [Fintype ι] [DecidableEq κ] in
theorem Distinct.erase (h : Distinct free t) : Distinct free (Function.update t i free) := by
  intro a b ha hab
  have hai : a ≠ i := by
    rintro rfl
    exact ha (by simp)
  have hbi : b ≠ i := by
    rintro rfl
    exact ha (by simpa using hab)
  rw [Function.update_of_ne hai] at ha hab
  rw [Function.update_of_ne hbi] at hab
  exact h a b ha hab

end Slots
