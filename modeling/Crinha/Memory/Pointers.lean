import Crinha.Memory.Refine

/-!
# Arrays of pointers

An array each of whose cells points to a part of the heap of its own.

* `filled`: such an array while a loop sets its cells from the first on;
* `emptied`: such an array while a loop frees what its cells point to and clears them.
-/

namespace Memory
open Assertion

variable {V Y : Type} (c : Ptr → V) (P : Ptr → Y → Assertion V)

def ptrs (ps : List Ptr) : List (Option V) := ps.map fun p => some (c p)

/-- The array at `a` points to one part for each of `ys`. -/
def pointers (a : Ptr) (ys : List Y) : Assertion V :=
  ex fun ps => block a (ptrs c ps) * each P ps ys

/-- The cells before `i` of `n` are set. -/
def filled (a : Ptr) (ys : List Y) (n i : Nat) : Assertion V :=
  ex fun ps => fact (ps.length = i) *
    (block a (ptrs c ps ++ List.replicate (n - i) none) * each P ps (ys.take i))

/-- The cells before `i` are `NULL`, and what they pointed to is gone. -/
def emptied (a : Ptr) (ys : List Y) (i : Nat) : Assertion V :=
  ex fun ps => block a (List.replicate i (some (c 0)) ++ ptrs c ps) * each P ps (ys.drop i)

variable {c P} {a p : Ptr} {ys : List Y} {y : Y} {n i : Nat} {ps : List Ptr}

@[simp] theorem length_ptrs : (ptrs c ps).length = ps.length := List.length_map _

theorem ptrs_concat : ptrs c (ps ++ [p]) = ptrs c ps ++ [some (c p)] := by
  simp [ptrs]

theorem take_concat (h : ys[i]? = some y) : ys.take (i + 1) = ys.take i ++ [y] := by
  rw [List.take_add_one, h]
  rfl

theorem drop_cons (h : ys[i]? = some y) : ys.drop i = y :: ys.drop (i + 1) := by
  obtain ⟨hi, rfl⟩ := List.getElem?_eq_some_iff.mp h
  exact List.drop_eq_getElem_cons hi

theorem each_get : ∀ {ys : List Y} {i : Nat} {ps : List Ptr} {h : Heap V}, ys[i]? = some y →
    each P ps ys h → ∃ p, ps[i]? = some p ∧
      (P p y * each P (ps.eraseIdx i) (ys.eraseIdx i)) h
  | _ :: _, 0, _ :: _, _, hy, hh => by
    cases hy
    exact ⟨_, rfl, hh⟩
  | _ :: ys, i + 1, _ :: ps, _, hy, ⟨h₁, h₂, hd, rfl, hP, hE⟩ => by
    obtain ⟨p, hp, hh⟩ := each_get (i := i) (by simpa using hy) hE
    exact ⟨p, by simpa using hp, sep_left_comm ⟨h₁, h₂, hd, rfl, hP, hh⟩⟩
  | _ :: _, _, [], _, _, ⟨hh, _⟩ => hh.elim
  | [], _, _, _, hy, _ => by simp at hy

theorem filled_zero : filled c P a ys n 0 = block a (List.replicate n none) := by
  ext h
  constructor
  · rintro ⟨ps, hp⟩
    obtain ⟨hps, hp⟩ := fact_mul.mp hp
    obtain rfl := List.eq_nil_of_length_eq_zero hps
    simpa [ptrs, each] using hp
  · intro hp
    exact ⟨[], fact_mul.mpr ⟨rfl, by simpa [ptrs, each] using hp⟩⟩

/-- The cells not yet written come after those that are. -/
theorem set_next {xs : List (Option V)} (v : V) (hi : xs.length = i) (hn : i < n) :
    (xs ++ List.replicate (n - i) none).set i (some v) =
      xs ++ [some v] ++ List.replicate (n - (i + 1)) none := by
  obtain ⟨k, hk⟩ : ∃ k, n - i = k + 1 := ⟨n - i - 1, by omega⟩
  rw [hk, List.set_append_right i _ (by omega), hi, Nat.sub_self, List.replicate_succ,
    List.set_cons_zero, show n - (i + 1) = k by omega]
  simp

theorem filled_next (hy : ys[i]? = some y) (hn : i < n) (hps : ps.length = i) (h : Heap V)
    (hh : (P p y * (block a ((ptrs c ps ++ List.replicate (n - i) none).set i (some (c p))) *
      each P ps (ys.take i))) h) : filled c P a ys n (i + 1) h := by
  have hi : i < ys.length := (List.getElem?_eq_some_iff.mp hy).1
  refine ⟨ps ++ [p], fact_mul.mpr ⟨by simp [hps], ?_⟩⟩
  rw [set_next _ (by rw [length_ptrs, hps]) hn] at hh
  rw [ptrs_concat, take_concat hy, each_append (by rw [hps, List.length_take]; omega)]
  rw [mul_left_comm, mul_comm (P p y), ← mul_one (P p y)] at hh
  exact hh

theorem filled_all (hn : ys.length = n) :
    filled c P a ys n n = pointers c P a ys := by
  ext h
  simp only [filled, pointers, Nat.sub_self, List.replicate_zero, List.append_nil, ← hn,
    List.take_length]
  constructor
  · rintro ⟨ps, hp⟩
    exact ⟨ps, (fact_mul.mp hp).2⟩
  · rintro ⟨ps, hp⟩
    obtain ⟨_, _, _, _, _, hps⟩ := id hp
    exact ⟨ps, fact_mul.mpr ⟨each_length hps, hp⟩⟩

/-- The next cell to clear points to the part of `y`. -/
theorem emptied_cons (hy : ys[i]? = some y) : emptied c P a ys i =
    ex fun p => ex fun ps => P p y *
      (block a (List.replicate i (some (c 0)) ++ some (c p) :: ptrs c ps) *
        each P ps (ys.drop (i + 1))) := by
  ext h
  simp only [emptied, drop_cons hy]
  constructor
  · rintro ⟨ps, hp⟩
    obtain ⟨_, _, _, _, _, hps⟩ := id hp
    obtain _ | ⟨p, ps⟩ := ps
    · exact absurd (each_length hps) (by simp)
    · exact ⟨p, ps, sep_left_comm hp⟩
  · rintro ⟨p, ps, hp⟩
    exact ⟨p :: ps, sep_left_comm hp⟩

theorem get_uncleared (v : Option V) (cs : List (Option V)) :
    (List.replicate i (some (c 0)) ++ v :: cs)[i]? = some v := by
  rw [List.getElem?_append_right (by simp)]
  simp

theorem set_cleared (v : Option V) (cs : List (Option V)) :
    (List.replicate i (some (c 0)) ++ v :: cs).set i (some (c 0)) =
      List.replicate (i + 1) (some (c 0)) ++ cs := by
  rw [List.set_append_right i _ (by simp), List.length_replicate, Nat.sub_self, List.set_cons_zero,
    List.replicate_succ']
  simp

variable (c P a ys i ps) in
theorem emptied_next (m : Heap V)
    (hm : (block a (List.replicate (i + 1) (some (c 0)) ++ ptrs c ps) *
      each P ps (ys.drop (i + 1)) : Assertion V) m) : emptied c P a ys (i + 1) m := ⟨ps, hm⟩

theorem emptied_all : emptied c P a ys ys.length =
    block a (List.replicate ys.length (some (c 0))) := by
  ext h
  simp only [emptied, List.drop_length]
  constructor
  · rintro ⟨ps, hp⟩
    obtain ⟨_, _, _, _, _, hps⟩ := id hp
    obtain rfl := List.eq_nil_of_length_eq_zero (each_length hps)
    simpa [ptrs, each] using hp
  · intro hp
    exact ⟨[], by simpa [ptrs, each] using hp⟩

end Memory
