/-!
# C strings in memory

A buffer is a list of octets; the C string in it ends at its first NUL. Octets may carry
more than their value (where they came from).
-/

namespace CString

/-- A type of octets with a NUL. -/
class Octet (β : Type) where
  val : β → UInt8
  nul : β
  val_nul : val nul = 0

instance : Octet UInt8 := ⟨id, 0, rfl⟩

/-- An octet and, unless it is a terminator the program wrote, its origin. -/
instance {α : Type} : Octet (UInt8 × Option α) := ⟨Prod.fst, (0, none), rfl⟩

/-- The bytes of a text of ASCII characters. -/
def ascii (s : String) : List UInt8 := s.toList.map fun c => UInt8.ofNat c.toNat

section
variable {β : Type}

/-- Store `bytes` from index `start` on. -/
def overwrite (mem : List β) (start : Nat) (bytes : List β) : List β :=
  mem.take start ++ bytes ++ mem.drop (start + bytes.length)

theorem length_overwrite {mem : List β} {start : Nat} {bytes : List β}
    (h : start + bytes.length ≤ mem.length) : (overwrite mem start bytes).length = mem.length := by
  simp only [overwrite, List.length_append, List.length_take, List.length_drop]
  omega

theorem overwrite_append (a b bytes : List β) :
    overwrite (a ++ b) a.length bytes = a ++ bytes ++ b.drop bytes.length := by
  simp [overwrite, List.drop_append]

variable [Octet β]

/-- The C string in a buffer. -/
def cstr (mem : List β) : List β := mem.takeWhile fun b => Octet.val b != 0

/-- What `strncpy` stores: the string, cut at `size`, and NULs up to `size`. -/
def padded (src : List β) (size : Nat) : List β :=
  (cstr src).take size ++ List.replicate (size - (cstr src).length) Octet.nul

def strncpy (mem : List β) (start : Nat) (src : List β) (size : Nat) : List β :=
  overwrite mem start (padded src size)

theorem length_padded (src : List β) (size : Nat) : (padded src size).length = size := by
  simp only [padded, List.length_append, List.length_take, List.length_replicate]
  omega

theorem val_of_mem_cstr {mem : List β} {b : β} (h : b ∈ cstr mem) : Octet.val b ≠ 0 := by
  simpa using List.all_eq_true.mp (List.all_takeWhile (p := fun b : β => Octet.val b != 0)) b h

theorem cstr_append {l : List β} (rest : List β) (h : ∀ b ∈ l, Octet.val b ≠ 0) :
    cstr (l ++ rest) = l ++ cstr rest :=
  List.takeWhile_append_of_pos (by simpa using h)

theorem cstr_cons {b : β} (h : Octet.val b ≠ 0) (rest : List β) :
    cstr (b :: rest) = b :: cstr rest :=
  cstr_append (l := [b]) rest fun _ hc => List.mem_singleton.mp hc ▸ h

theorem cstr_nul (rest : List β) : cstr (Octet.nul :: rest) = [] := by
  simp [cstr, Octet.val_nul]

theorem cstr_of_noNul {l : List β} (h : ∀ b ∈ l, Octet.val b ≠ 0) : cstr l = l := by
  simpa [cstr] using cstr_append [] h

theorem cstr_replicate_nul (k : Nat) (rest : List β) :
    cstr (List.replicate k Octet.nul ++ Octet.nul :: rest) = [] := by
  cases k with
  | zero => exact cstr_nul rest
  | succ k => rw [List.replicate_succ, List.cons_append, cstr_nul]

theorem cstr_padded (a : List β) (src : List β) (size : Nat) (rest : List β)
    (ha : ∀ b ∈ a, Octet.val b ≠ 0) :
    cstr (a ++ padded src size ++ Octet.nul :: rest) = a ++ (cstr src).take size := by
  have hn : ∀ b ∈ (cstr src).take size, Octet.val b ≠ 0 := fun b hb =>
    val_of_mem_cstr (List.mem_of_mem_take hb)
  rw [padded, List.append_assoc, List.append_assoc, cstr_append _ ha, cstr_append _ hn,
    cstr_replicate_nul, List.append_nil]

theorem take_cstr (mem : List β) : mem.take (cstr mem).length = cstr mem :=
  (List.prefix_iff_eq_take.mp (List.takeWhile_prefix _)).symm

theorem length_cstr_le (mem : List β) : (cstr mem).length ≤ mem.length :=
  (List.takeWhile_prefix _).length_le

/-! ## Arrays -/

/-- An array for strings of up to `cap` octets. -/
structure Buffer (β : Type) (cap : Nat) where
  mem : List β
  size : mem.length = cap + 1

variable {cap : Nat}

/-- The string an array holds. -/
def Buffer.str (b : Buffer β cap) : List β := cstr b.mem

def Buffer.zeros : Buffer β cap := ⟨List.replicate (cap + 1) Octet.nul, by simp⟩

/-- `mem[0] = 0`. -/
def Buffer.clear (b : Buffer β cap) : Buffer β cap where
  mem := overwrite b.mem 0 [Octet.nul]
  size := by rw [length_overwrite (by simp [b.size]), b.size]

@[simp] theorem str_clear (b : Buffer β cap) : b.clear.str = [] := by
  simp [Buffer.str, Buffer.clear, overwrite, cstr_nul]

end

/-! ## Bytes -/

/-- What holds of all 256 bytes. -/
theorem forall_byte {p : UInt8 → Prop} (h : ∀ n < 256, p (UInt8.ofNat n)) : ∀ b, p b := by
  intro b
  have hb := h b.toNat b.toNat_lt
  rwa [UInt8.ofNat_toNat] at hb

theorem val_ne_of_noNul {l : List UInt8} (h : 0 ∉ l) : ∀ b ∈ l, Octet.val b ≠ 0 := by
  intro b hb hz
  have hzero : b = 0 := hz
  rw [hzero] at hb
  exact h hb

end CString
