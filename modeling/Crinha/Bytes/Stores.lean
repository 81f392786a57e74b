import Crinha.Bytes.CString

/-!
# Stores

What a function writes to memory, as the list of its single stores in order.
-/

namespace CString

structure CellStore (β : Type) where
  addr : Nat
  val : β
  deriving DecidableEq

section
variable {β : Type}

def applyStores (mem : List β) (stores : List (CellStore β)) : List β :=
  stores.foldl (fun mem store => mem.set store.addr store.val) mem

/-- All stores go to the `size` cells from `base` on. -/
def Within (base size : Nat) (stores : List (CellStore β)) : Prop :=
  ∀ store ∈ stores, base ≤ store.addr ∧ store.addr < base + size

/-- The stores of `bytes` from `start` on. -/
def consecutive (start : Nat) : List β → List (CellStore β)
  | [] => []
  | b :: bytes => ⟨start, b⟩ :: consecutive (start + 1) bytes

/-! ## Where stores go -/

theorem Within.append {base size : Nat} {a b : List (CellStore β)} (ha : Within base size a)
    (hb : Within base size b) : Within base size (a ++ b) := by
  intro store h
  rcases List.mem_append.mp h with h | h
  · exact ha store h
  · exact hb store h

theorem within_consecutive {base size start : Nat} {bytes : List β} (hlo : base ≤ start)
    (hhi : start + bytes.length ≤ base + size) : Within base size (consecutive start bytes) := by
  induction bytes generalizing start with
  | nil => exact fun store h => absurd h List.not_mem_nil
  | cons b bytes ih =>
    rw [List.length_cons] at hhi
    intro store h
    rcases List.mem_cons.mp h with rfl | h
    · exact ⟨hlo, by show start < base + size; omega⟩
    · exact ih (by omega) (by omega) store h

theorem within_single {base size addr : Nat} {b : β} (hlo : base ≤ addr)
    (hhi : addr < base + size) : Within base size [⟨addr, b⟩] := by
  intro store h
  obtain rfl := List.mem_singleton.mp h
  exact ⟨hlo, hhi⟩

/-! ## What stores leave -/

@[simp] theorem applyStores_nil (mem : List β) : applyStores mem [] = mem := rfl

theorem applyStores_append (mem : List β) (a b : List (CellStore β)) :
    applyStores mem (a ++ b) = applyStores (applyStores mem a) b := List.foldl_append

@[simp] theorem length_applyStores (mem : List β) (stores : List (CellStore β)) :
    (applyStores mem stores).length = mem.length := by
  induction stores generalizing mem with
  | nil => rfl
  | cons store stores ih => exact (ih _).trans List.length_set

/-- The frame of a list of stores. -/
theorem getElem?_applyStores {base size i : Nat} {stores : List (CellStore β)} (mem : List β)
    (h : Within base size stores) (hi : i < base ∨ base + size ≤ i) :
    (applyStores mem stores)[i]? = mem[i]? := by
  induction stores generalizing mem with
  | nil => rfl
  | cons store stores ih =>
    obtain ⟨hlo, hhi⟩ := h store List.mem_cons_self
    have hne : store.addr ≠ i := by omega
    have hrest := ih (mem.set store.addr store.val) fun x hx => h x (List.mem_cons_of_mem _ hx)
    exact hrest.trans (List.getElem?_set_ne hne)

theorem applyStores_consecutive {mem bytes : List β} {start : Nat}
    (h : start + bytes.length ≤ mem.length) :
    applyStores mem (consecutive start bytes) = overwrite mem start bytes := by
  induction bytes generalizing mem start with
  | nil => simp [consecutive, overwrite]
  | cons b bytes ih =>
    rw [List.length_cons] at h
    have hset : mem.set start b = mem.take start ++ b :: mem.drop (start + 1) :=
      List.set_eq_take_append_cons_drop.trans (if_pos (by omega))
    have hrest : applyStores (mem.set start b) (consecutive (start + 1) bytes) =
        overwrite (mem.set start b) (start + 1) bytes := ih (by rw [List.length_set]; omega)
    have hlen : (mem.take start ++ [b]).length = start + 1 := by
      rw [List.length_append, List.length_take, List.length_singleton]
      omega
    have hover := overwrite_append (mem.take start ++ [b]) (mem.drop (start + 1)) bytes
    rw [hlen, List.append_assoc, List.singleton_append, ← hset] at hover
    refine hrest.trans (hover.trans ?_)
    rw [overwrite, List.length_cons, List.drop_drop]
    simp [Nat.add_comm, Nat.add_left_comm]

/-- The array `b` between `a` and `c`. -/
theorem overwrite_between {a b c bytes : List β} {start : Nat}
    (h : start + bytes.length ≤ b.length) :
    overwrite (a ++ b ++ c) (a.length + start) bytes = a ++ overwrite b start bytes ++ c := by
  have htake : (a ++ b ++ c).take (a.length + start) = a ++ b.take start := by
    rw [List.append_assoc, List.take_length_add_append, List.take_append_of_le_length (by omega)]
  have hdrop : (a ++ b ++ c).drop (a.length + start + bytes.length) =
      b.drop (start + bytes.length) ++ c := by
    rw [List.append_assoc, Nat.add_assoc, List.drop_length_add_append,
      List.drop_append_of_le_length (by omega)]
  rw [overwrite, htake, hdrop, overwrite]
  simp only [List.append_assoc]

theorem applyStores_between {a b c bytes : List β} {start : Nat}
    (h : start + bytes.length ≤ b.length) :
    applyStores (a ++ b ++ c) (consecutive (a.length + start) bytes) =
      a ++ overwrite b start bytes ++ c := by
  have hlen : a.length + start + bytes.length ≤ (a ++ b ++ c).length := by
    rw [List.length_append, List.length_append]
    omega
  rw [applyStores_consecutive hlen, overwrite_between h]

theorem applyStores_single {a b c : List β} {i : Nat} (x : β) (h : i < b.length) :
    applyStores (a ++ b ++ c) [⟨a.length + i, x⟩] = a ++ overwrite b i [x] ++ c := by
  have hfit : i + [x].length ≤ b.length := h
  exact applyStores_between hfit

theorem applyStores_last (a : List β) (x y : β) :
    applyStores (a ++ [y]) [⟨a.length, x⟩] = a ++ [x] := by
  have h := applyStores_single (a := a) (c := []) x (show 0 < [y].length from Nat.zero_lt_one)
  rw [List.append_nil, List.append_nil] at h
  exact h

end

end CString
