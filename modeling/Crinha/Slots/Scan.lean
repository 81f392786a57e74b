import Mathlib.Data.List.Basic
import Mathlib.Logic.Function.Basic

/-!
# Tables that end at an empty slot

* `scanFrom_eq`: where a scan stops, and which slots it has read.
-/

namespace Slots

section
variable {ρ : Type} {size : Nat} {table : Nat → Option ρ} {l : List ρ}

/-- `for (; table[i] != NULL && i < size; i++) if (stop(table[i])) break;`: the index at the
end, and the indices read. The slot is tested before the index. -/
def scanFrom (size : Nat) (table : Nat → Option ρ) (stop : ρ → Bool) (i : Nat) : Nat × List Nat :=
  match table i with
  | none => (i, [i])
  | some r =>
    if i < size then
      if stop r then (i, [i])
      else
        let (j, reads) := scanFrom size table stop (i + 1)
        (j, i :: reads)
    else (i, [i])
termination_by size - i

/-- The slots hold the entries of `l`, and the rest of them are empty. -/
structure Holds (size : Nat) (table : Nat → Option ρ) (l : List ρ) : Prop where
  length_le : l.length ≤ size
  slot : ∀ i < size, table i = l[i]?

/-- The scan stops at the first entry to stop at, or behind the last one. -/
theorem scanFrom_eq (h : Holds size table l) (stop : ρ → Bool) {i : Nat} (hi : i ≤ l.length) :
    scanFrom size table stop i =
      (i + (l.drop i).findIdx stop, List.range' i ((l.drop i).findIdx stop + 1)) := by
  induction hk : l.length - i generalizing i with
  | zero =>
    obtain rfl : i = l.length := by omega
    rw [List.drop_length, List.findIdx_nil, scanFrom]
    split
    · rfl
    · rename_i r hr
      have hend : ¬l.length < size := by
        intro hlt
        rw [h.slot _ hlt, List.getElem?_eq_none (Nat.le_refl _)] at hr
        cases hr
      rw [if_neg hend]
      rfl
  | succ k ih =>
    have hlt : i < l.length := by omega
    have hsize : i < size := Nat.lt_of_lt_of_le hlt h.length_le
    have hslot : table i = some l[i] := by rw [h.slot i hsize, List.getElem?_eq_getElem hlt]
    rw [scanFrom, hslot, List.drop_eq_getElem_cons hlt, List.findIdx_cons]
    simp only [if_pos hsize]
    cases stop l[i] with
    | true => rfl
    | false =>
      have hrest := ih (i := i + 1) (by omega) (by omega)
      simp only [hrest, Bool.false_eq_true, if_false, cond_false]
      rw [Nat.add_assoc, Nat.add_comm 1, List.range'_succ (s := i)]

/-- A scan of the whole table. -/
theorem scan_eq (h : Holds size table l) (stop : ρ → Bool) :
    scanFrom size table stop 0 = (l.findIdx stop, List.range' 0 (l.findIdx stop + 1)) := by
  rw [scanFrom_eq h stop (Nat.zero_le _), List.drop_zero, Nat.zero_add]

/-- It leaves the slots alone behind the table exactly if it stops at an entry, or the table
has an empty slot. -/
theorem reads_lt_iff (h : Holds size table l) (stop : ρ → Bool) :
    (∀ i ∈ (scanFrom size table stop 0).2, i < size) ↔
      l.length < size ∨ ∃ r ∈ l, stop r = true := by
  rw [scan_eq h]
  have hlast : (∀ i ∈ List.range' 0 (l.findIdx stop + 1), i < size) ↔ l.findIdx stop < size := by
    simp only [List.mem_range'_1, Nat.zero_le, true_and, Nat.zero_add]
    constructor
    · intro hall
      exact hall _ (Nat.lt_succ_self _)
    · intro hlt i hi
      omega
  have hle := h.length_le
  have hfind : l.findIdx stop ≤ l.length := List.findIdx_le_length
  rw [hlast]
  by_cases hany : ∃ r ∈ l, stop r = true
  · have hlt : l.findIdx stop < l.length := List.findIdx_lt_length.mpr hany
    simp only [hany, or_true, iff_true]
    omega
  · have heq : l.findIdx stop = l.length :=
      Nat.le_antisymm hfind (Nat.not_lt.mp (mt List.findIdx_lt_length.mp hany))
    simp only [hany, or_false, heq]

theorem Holds.push (h : Holds size table l) (r : ρ) (hlt : l.length < size) :
    Holds size (Function.update table l.length (some r)) (l ++ [r]) where
  length_le := by
    rw [List.length_append]
    exact hlt
  slot := by
    intro i hi
    by_cases he : i = l.length
    · subst he
      rw [Function.update_self, List.getElem?_concat_length]
    · rw [Function.update_of_ne he, h.slot i hi]
      by_cases hlt' : i < l.length
      · rw [List.getElem?_append_left hlt']
      · rw [List.getElem?_eq_none (by omega), List.getElem?_eq_none (by simp; omega)]

end

end Slots
