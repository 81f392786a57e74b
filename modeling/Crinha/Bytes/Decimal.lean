import Mathlib.Data.Nat.Digits.Lemmas
import Mathlib.Data.List.TakeWhile

/-!
# Decimal text

`%d` and its inverse `atol`, on lists of bytes.
-/

namespace Decimal

def isDigit (b : UInt8) : Bool := decide (48 ≤ b.toNat) && decide (b.toNat ≤ 57)

def digit (d : Nat) : UInt8 := UInt8.ofNat (48 + d)

/-- `n` in base ten, without leading zeros. -/
def showNat (n : Nat) : List UInt8 :=
  if n = 0 then [48] else (Nat.digits 10 n).reverse.map digit

def showInt (x : Int) : List UInt8 :=
  if x < 0 then 45 :: showNat x.natAbs else showNat x.natAbs

/-- `n` with at least `width` digits, as `%0<width>d` prints it. -/
def pad (width n : Nat) : List UInt8 :=
  List.replicate (width - (showNat n).length) 48 ++ showNat n

/-- The number a string of digits stands for. -/
def value (ds : List UInt8) : Nat := ds.foldl (fun n b => 10 * n + (b.toNat - 48)) 0

/-- The number at the start of a text, as `strtol` reads it. -/
def parseInt : List UInt8 → Int
  | 45 :: rest => -(value (rest.takeWhile isDigit) : Int)
  | text => value (text.takeWhile isDigit)

theorem toNat_digit {d : Nat} (h : d < 10) : (digit d).toNat = 48 + d := by
  simp only [digit, UInt8.toNat_ofNat']
  omega

theorem isDigit_digit {d : Nat} (h : d < 10) : isDigit (digit d) = true := by
  simp only [isDigit, toNat_digit h, Bool.and_eq_true, decide_eq_true_eq]
  omega

theorem isDigit_of_mem_showNat {n : Nat} {b : UInt8} (h : b ∈ showNat n) : isDigit b = true := by
  unfold showNat at h
  split at h
  · obtain rfl := List.mem_singleton.mp h
    decide
  · simp only [List.mem_map, List.mem_reverse] at h
    obtain ⟨d, hd, rfl⟩ := h
    exact isDigit_digit (Nat.digits_lt_base (by decide) hd)

theorem showNat_ne_nil (n : Nat) : showNat n ≠ [] := by
  unfold showNat
  split
  · simp
  · simp [Nat.digits_ne_nil_iff_ne_zero, *]

theorem value_map_digit (ds : List Nat) (h : ∀ d ∈ ds, d < 10) :
    value (ds.reverse.map digit) = Nat.ofDigits 10 ds := by
  induction ds with
  | nil => rfl
  | cons d ds ih =>
    have hd := h d List.mem_cons_self
    have hv : value ((d :: ds).reverse.map digit) =
        10 * value (ds.reverse.map digit) + ((digit d).toNat - 48) := by
      simp [value]
    rw [hv, ih fun e he => h e (List.mem_cons_of_mem _ he), toNat_digit hd, Nat.ofDigits_cons]
    simp
    omega

@[simp] theorem value_showNat (n : Nat) : value (showNat n) = n := by
  unfold showNat
  split
  · subst n; rfl
  · rw [value_map_digit _ fun d hd => Nat.digits_lt_base (by decide) hd, Nat.ofDigits_digits]

theorem value_replicate_zero (k : Nat) (ds : List UInt8) :
    value (List.replicate k 48 ++ ds) = value ds := by
  induction k with
  | zero => rfl
  | succ k ih => exact ih

@[simp] theorem value_pad (width n : Nat) : value (pad width n) = n := by
  rw [pad, value_replicate_zero, value_showNat]

theorem takeWhile_showNat (n : Nat) : (showNat n).takeWhile isDigit = showNat n :=
  List.takeWhile_eq_self_iff.mpr fun _ => isDigit_of_mem_showNat

theorem parseInt_of_digit {text : List UInt8} (h : ∀ rest, text ≠ 45 :: rest) :
    parseInt text = value (text.takeWhile isDigit) := by
  unfold parseInt
  split
  · exact absurd rfl (h _)
  · rfl

theorem showNat_ne_minus (n : Nat) (rest text : List UInt8) : showNat n ++ rest ≠ 45 :: text := by
  obtain ⟨b, ds, he⟩ := List.exists_cons_of_ne_nil (showNat_ne_nil n)
  have hb : isDigit b = true := isDigit_of_mem_showNat (n := n) (by simp [he])
  rw [he, List.cons_append]
  intro e
  rw [(List.cons.inj e).1] at hb
  revert hb
  decide

/-- Reading a printed number gives it back. -/
theorem parseInt_showInt (x : Int) : parseInt (showInt x) = x := by
  unfold showInt
  split
  · simp only [parseInt, takeWhile_showNat, value_showNat]
    omega
  · have hne : ∀ rest, showNat x.natAbs ≠ 45 :: rest := by
      intro rest
      simpa using showNat_ne_minus x.natAbs [] rest
    rw [parseInt_of_digit hne, takeWhile_showNat, value_showNat]
    omega

/-- A number is read up to the first byte that is no digit. -/
theorem parseInt_showNat_append (n : Nat) {b : UInt8} (hb : isDigit b = false)
    (rest : List UInt8) : parseInt (showNat n ++ b :: rest) = n := by
  have hd : ∀ c ∈ showNat n, isDigit c = true := fun _ => isDigit_of_mem_showNat
  rw [parseInt_of_digit (showNat_ne_minus n _), List.takeWhile_append_of_pos hd]
  simp [hb]

/-! ## Lengths -/

theorem length_showNat_le {n k : Nat} (hk : 0 < k) (h : n < 10 ^ k) : (showNat n).length ≤ k := by
  unfold showNat
  split
  · exact hk
  · rw [List.length_map, List.length_reverse, Nat.digits_length_le_iff (by decide)]
    exact h

theorem length_showInt_le {x : Int} {k : Nat} (hk : 0 < k) (h : x.natAbs < 10 ^ k) :
    (showInt x).length ≤ k + 1 := by
  have hn := length_showNat_le hk h
  unfold showInt
  split
  · exact Nat.succ_le_succ hn
  · exact Nat.le_succ_of_le hn

theorem length_pad {n width : Nat} (hw : 0 < width) (h : n < 10 ^ width) :
    (pad width n).length = width := by
  have hn := length_showNat_le hw h
  rw [pad, List.length_append, List.length_replicate]
  omega

theorem isDigit_of_mem_pad {n width : Nat} {b : UInt8} (h : b ∈ pad width n) :
    isDigit b = true := by
  rcases List.mem_append.mp h with h | h
  · rw [List.eq_of_mem_replicate h]
    decide
  · exact isDigit_of_mem_showNat h

end Decimal
