import Crinha.Entity

/-!
# `util/array_list.c`

* `int_array_list_fifo`: exactly when `IntArrayList`, which nothing uses, is a bounded queue.
-/

namespace Crinha

/-! ## The list -/

/-- `values` is the array `malloc` gave for them. -/
structure IntArrayList where
  maxSize : Int32
  size : Nat
  values : List Int32

/-- `max_size` and the elements are as `malloc` gives them. -/
def intArrayListNew (maxSize : Int32) (values : List Int32) : IntArrayList := ⟨maxSize, 0, values⟩

/-- Copies ints between regions of one array; anything may come of regions that overlap. -/
structure Memcpy where
  copy : List Int32 → (dst src count : Nat) → List Int32
  disjoint : ∀ mem dst src count, count = 0 ∨ dst + count ≤ src ∨ src + count ≤ dst →
    copy mem dst src count = CString.overwrite mem dst ((mem.drop src).take count)

/-- `sizeof(IntArrayList) / sizeof(int)`: 48 bytes. -/
def intsPerStruct : Nat := 12

namespace IntArrayList

def isFull (self : IntArrayList) : Bool := decide (self.maxSize.toInt ≤ self.size)

/-- The list and the indices accessed, or `none` when the process exits. -/
def push (self : IntArrayList) (value : Int32) : Option (IntArrayList × List Nat) :=
  if self.maxSize.toInt ≤ self.size then none
  else
    some ({ self with values := self.values.set self.size value, size := self.size + 1 },
      [self.size])

/-- The list, the value returned, and the indices accessed. -/
def pop (memcpy : Memcpy) (self : IntArrayList) : IntArrayList × Int32 × List Nat :=
  let val := self.values.getD 0 0
  let size := self.size - 1
  let count := intsPerStruct * size
  ({ self with size := size, values := memcpy.copy self.values 0 1 count }, val,
    0 :: (List.range' 1 count ++ List.range' 0 count))

end IntArrayList

inductive Op where
  | push (value : Int32)
  | pop

/-! ## The queue -/

/-- The list holds the queue `q` of capacity `n`. -/
structure HoldsQueue (n : Nat) (list : IntArrayList) (q : List Int32) : Prop where
  size : list.size = q.length
  stored : list.values.take list.size = q
  full : list.isFull = true ↔ q.length = n

/-- From the queue `q` on, the operations on the list do what those on the queue do, and
access its `n` ints only. A push on the full queue is the end of the process. -/
def Fifo (memcpy : Memcpy) (n : Nat) (list : IntArrayList) (q : List Int32) : List Op → Prop
  | [] => HoldsQueue n list q
  | .push value :: ops => HoldsQueue n list q ∧
    (list.push value = none ∧ q.length = n ∨
      ∃ list' accessed, list.push value = some (list', accessed) ∧ q.length < n ∧
        (∀ i ∈ accessed, i < n) ∧ Fifo memcpy n list' (q ++ [value]) ops)
  | .pop :: ops => HoldsQueue n list q ∧
    ∃ list' value accessed, list.pop memcpy = (list', value, accessed) ∧ q.head? = some value ∧
      (∀ i ∈ accessed, i < n) ∧ Fifo memcpy n list' q.tail ops

/-- How many elements are stored before each operation that is carried out and at the
end, from `k` on. -/
def tamanhos (n : Nat) (k : Nat) : List Op → List (Nat × Option Op)
  | [] => [(k, none)]
  | .push value :: ops =>
    (k, some (.push value)) :: if k < n then tamanhos n (k + 1) ops else []
  | .pop :: ops => (k, some .pop) :: tamanhos n (k - 1) ops

/-- `max_size` tells whether `k` elements are all there is room for, and a pop takes the
only element. -/
def Seguro (n : Nat) (maxSize : Int32) (k : Nat) (op : Option Op) : Prop :=
  (maxSize.toInt ≤ k ↔ n ≤ k) ∧ (op = some .pop → k = 1)

section
variable {memcpy : Memcpy} {n k : Nat} {list : IntArrayList} {q : List Int32} {ops : List Op}

/-- What the list is like as long as it holds the queue. -/
structure Invariante (n : Nat) (maxSize : Int32) (list : IntArrayList) (q : List Int32) :
    Prop where
  maxSize : list.maxSize = maxSize
  size : list.size = q.length
  stored : list.values.take list.size = q
  length : list.values.length = n
  le : q.length ≤ n

theorem Invariante.holds {m : Int32} (h : Invariante n m list q)
    (hm : m.toInt ≤ q.length ↔ n ≤ q.length) : HoldsQueue n list q where
  size := h.size
  stored := h.stored
  full := by
    have hle := h.le
    rw [IntArrayList.isFull, decide_eq_true_eq, h.maxSize, h.size, hm]
    omega

theorem Invariante.push {m : Int32} (h : Invariante n m list q) (value : Int32)
    (hlt : q.length < n) :
    Invariante n m { list with values := list.values.set list.size value, size := list.size + 1 }
      (q ++ [value]) where
  maxSize := h.maxSize
  size := by
    show list.size + 1 = _
    rw [h.size, List.length_append, List.length_singleton]
  stored := by
    have hsize : list.size < list.values.length := by
      rw [h.size, h.length]
      exact hlt
    show (list.values.set list.size value).take (list.size + 1) = _
    rw [List.take_add_one, List.take_set_of_le (Nat.le_refl _), h.stored,
      List.getElem?_set_self hsize]
    rfl
  length := by
    show (list.values.set list.size value).length = n
    rw [List.length_set, h.length]
  le := by
    rw [List.length_append]
    exact hlt

/-- With room for it a value is stored behind the others. -/
theorem Invariante.push_some {m : Int32} (h : Invariante n m list q)
    (hm : m.toInt ≤ q.length ↔ n ≤ q.length) (value : Int32) (hlt : q.length < n) :
    list.push value = some ({ list with
      values := list.values.set list.size value, size := list.size + 1 }, [list.size]) := by
  have hroom : ¬list.maxSize.toInt ≤ list.size := by
    rw [h.maxSize, h.size, hm]
    omega
  exact if_neg hroom

/-- To take the only element nothing is copied. -/
theorem Invariante.pop {m : Int32} {value : Int32} (h : Invariante n m list [value])
    (memcpy : Memcpy) :
    ∃ list', list.pop memcpy = (list', value, [0]) ∧ Invariante n m list' [] := by
  have hsize : list.size = 1 := h.size
  have hval : list.values.getD 0 0 = value := by
    have hstored := h.stored
    rw [hsize] at hstored
    cases hv : list.values with
    | nil =>
      rw [hv] at hstored
      cases hstored
    | cons x values =>
      rw [hv] at hstored
      exact (List.cons.inj hstored).1
  have hcopy : memcpy.copy list.values 0 1 0 = list.values := by
    rw [memcpy.disjoint _ _ _ _ (.inl rfl)]
    rfl
  refine ⟨{ list with size := 0, values := memcpy.copy list.values 0 1 0 }, ?_, ?_⟩
  · rw [IntArrayList.pop, hval, hsize]
    rfl
  · refine ⟨h.maxSize, rfl, rfl, ?_, Nat.zero_le _⟩
    show (memcpy.copy list.values 0 1 0).length = n
    rw [hcopy, h.length]

/-- A list whose operations are all safe is a queue, whatever overlapping copies do. -/
theorem fifo_of_seguro {m : Int32} (memcpy : Memcpy) (h : Invariante n m list q)
    (safe : ∀ e ∈ tamanhos n q.length ops, Seguro n m e.1 e.2) : Fifo memcpy n list q ops := by
  induction ops generalizing list q with
  | nil => exact h.holds (safe _ List.mem_cons_self).1
  | cons op ops ih =>
    cases op with
    | push value =>
      have hm := (safe _ List.mem_cons_self).1
      refine ⟨h.holds hm, ?_⟩
      by_cases hlt : q.length < n
      · right
        refine ⟨_, _, h.push_some hm value hlt, hlt, ?_, ?_⟩
        · intro i hi
          rw [List.mem_singleton.mp hi, h.size]
          exact hlt
        · apply ih (h.push value hlt)
          intro e he
          apply safe
          rw [tamanhos, if_pos hlt]
          rw [List.length_append] at he
          exact List.mem_cons_of_mem _ he
      · left
        have hle := h.le
        have hfull : list.maxSize.toInt ≤ list.size := by
          rw [h.maxSize, h.size, hm]
          omega
        exact ⟨if_pos hfull, by omega⟩
    | pop =>
      obtain ⟨hm, hone⟩ := safe _ List.mem_cons_self
      obtain ⟨value, rfl⟩ := List.length_eq_one_iff.mp (hone rfl)
      obtain ⟨list', hpop, h'⟩ := h.pop memcpy
      refine ⟨h.holds hm, list', value, [0], hpop, rfl, ?_, ?_⟩
      · intro i hi
        rw [List.mem_singleton.mp hi]
        exact h.le
      · apply ih h'
        intro e he
        exact safe e (List.mem_cons_of_mem _ he)

theorem Fifo.holds (h : Fifo memcpy n list q ops) : HoldsQueue n list q := by
  cases ops with
  | nil => exact h
  | cons op ops =>
    cases op with
    | push value => exact h.1
    | pop => exact h.1

/-- A pop that leaves elements reads as many structs as it leaves elements, from the second
int on. -/
theorem accessed_pop (memcpy : Memcpy) (h : 2 ≤ list.size) :
    intsPerStruct * (list.size - 1) ∈ (list.pop memcpy).2.2 := by
  have hcount : 0 < intsPerStruct * (list.size - 1) := by
    rw [intsPerStruct]
    omega
  apply List.mem_cons_of_mem
  apply List.mem_append_left
  rw [List.mem_range'_1]
  omega

/-- What `max_size` says of a list that holds a queue. -/
theorem HoldsQueue.maxSize {m : Int32} (h : HoldsQueue n list q) (hi : Invariante n m list q) :
    m.toInt ≤ q.length ↔ n ≤ q.length := by
  have hfull := h.full
  have hle := hi.le
  rw [IntArrayList.isFull, decide_eq_true_eq, hi.maxSize, hi.size] at hfull
  rw [hfull]
  omega

end

/-- A copy that spoils the first element of a region that overlaps its source. -/
def Memcpy.spoil : Memcpy where
  copy := fun mem dst src count =>
    if count = 0 ∨ dst + count ≤ src ∨ src + count ≤ dst then
      CString.overwrite mem dst ((mem.drop src).take count)
    else mem.set dst (mem.getD src 0 + 1)
  disjoint := fun _ _ _ _ h => if_pos h

section
variable {n : Nat} {list : IntArrayList} {q : List Int32} {ops : List Op}

/-- With this copy, a pop that does not take the only element leaves another queue. -/
theorem pop_spoils {m a b : Int32} {rest : List Int32}
    (h : Invariante n m list (a :: b :: rest)) :
    ¬HoldsQueue n (list.pop .spoil).1 (b :: rest) := by
  intro hg
  have hsize : list.size = rest.length + 2 := h.size
  obtain ⟨values, hvalues⟩ : ∃ values, list.values = a :: b :: values := by
    have hstored := h.stored
    rw [hsize] at hstored
    match hv : list.values with
    | [] =>
      rw [hv] at hstored
      cases hstored
    | [x] =>
      rw [hv] at hstored
      cases hstored
    | x :: y :: values =>
      rw [hv, List.take_succ_cons, List.take_succ_cons] at hstored
      obtain ⟨rfl, hrest⟩ := List.cons.inj hstored
      obtain ⟨rfl, _⟩ := List.cons.inj hrest
      exact ⟨values, rfl⟩
  have hoverlap : ¬(intsPerStruct * (list.size - 1) = 0 ∨
      0 + intsPerStruct * (list.size - 1) ≤ 1 ∨ 1 + intsPerStruct * (list.size - 1) ≤ 0) := by
    rw [hsize, intsPerStruct]
    omega
  have hcopied : (list.pop .spoil).1.values = (b + 1) :: b :: values := by
    show (if _ then _ else list.values.set 0 (list.values.getD 1 0 + 1)) = _
    rw [if_neg hoverlap, hvalues]
    rfl
  have hleft : (list.pop .spoil).1.size = rest.length + 1 := by
    show list.size - 1 = _
    rw [hsize]
    rfl
  have hstored := hg.stored
  rw [hcopied, hleft, List.take_succ_cons] at hstored
  have hb := Int32.add_eq_left.mp (List.cons.inj hstored).1
  revert hb
  decide

theorem seguro_of_fifo {m : Int32} (h : Invariante n m list q)
    (hf : Fifo .spoil n list q ops) :
    ∀ e ∈ tamanhos n q.length ops, Seguro n m e.1 e.2 := by
  induction ops generalizing list q with
  | nil =>
    intro e he
    rw [List.mem_singleton.mp he]
    exact ⟨hf.holds.maxSize h, fun hop => by cases hop⟩
  | cons op ops ih =>
    have hm := hf.holds.maxSize h
    cases op with
    | push value =>
      intro e he
      rcases List.mem_cons.mp he with rfl | he
      · exact ⟨hm, fun hop => by cases hop⟩
      · split at he
        · rename_i hlt
          obtain ⟨hnone, hfull⟩ | ⟨list', accessed, hpush, _, _, hrest⟩ := hf.2
          · omega
          · rw [h.push_some hm value hlt] at hpush
            obtain rfl := (Prod.mk.inj (Option.some.inj hpush)).1
            apply ih (h.push value hlt) hrest
            rw [List.length_append]
            exact he
        · cases he
    | pop =>
      obtain ⟨_, list', value, accessed, hpop, hhead, _, hrest⟩ := hf
      match q with
      | [] => cases hhead
      | [x] =>
        intro e he
        rcases List.mem_cons.mp he with rfl | he
        · exact ⟨hm, fun _ => rfl⟩
        · obtain ⟨list'', hpop', h'⟩ := h.pop .spoil
          obtain rfl : list' = list'' := by
            rw [hpop] at hpop'
            exact (Prod.mk.inj hpop').1
          exact ih h' hrest e he
      | a :: b :: rest =>
        have hspoiled := pop_spoils h
        rw [hpop] at hspoiled
        exact absurd hrest.holds hspoiled

end

/-- **The list is a bounded queue**, whatever overlapping copies do, exactly if at every size
reached `max_size` tells whether the list is full, and every pop takes the only element. -/
theorem int_array_list_fifo (maxSize : Int32) (values : List Int32) (ops : List Op) :
    (∀ memcpy, Fifo memcpy values.length (intArrayListNew maxSize values) [] ops) ↔
      ∀ e ∈ tamanhos values.length 0 ops, Seguro values.length maxSize e.1 e.2 := by
  have h : Invariante values.length maxSize (intArrayListNew maxSize values) [] :=
    ⟨rfl, rfl, rfl, rfl, Nat.zero_le _⟩
  constructor
  · intro hf
    exact seguro_of_fifo h (hf .spoil)
  · intro safe memcpy
    exact fifo_of_seguro memcpy h safe

/-- `malloc` leaves 0 in `max_size`: the list is full from the start, and the first push
exits. With the right value there by chance, a pop reads and writes behind two ints. -/
theorem int_array_list_broken :
    (∀ memcpy, ¬Fifo memcpy 2 (intArrayListNew 0 [7, 7]) [] [.push 5]) ∧
    ∀ memcpy, ¬Fifo memcpy 2 (intArrayListNew 2 [7, 7]) [] [.push 1, .push 2, .pop] := by
  constructor
  · intro memcpy h
    exact absurd (h.holds.full.mp (by decide)) (by decide)
  · intro memcpy h
    obtain ⟨_, ⟨hnone, _⟩ | ⟨list₁, _, hpush₁, _, _, h₁⟩⟩ := h
    · cases hnone
    · obtain ⟨_, ⟨hnone, _⟩ | ⟨list₂, _, hpush₂, _, _, h₂⟩⟩ := h₁
      · cases (Prod.mk.inj (Option.some.inj hpush₁)).1
        cases hnone
      · obtain ⟨hg, _, _, accessed, hpop, _, hlt, _⟩ := h₂
        have hsize : list₂.size = 2 := hg.size
        have hread := accessed_pop memcpy (Nat.le_of_eq hsize.symm)
        rw [hpop, hsize] at hread
        exact absurd (hlt _ hread) (by decide)

end Crinha
