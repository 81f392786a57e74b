import Crinha.Jansson

/-!
# The text of JSON values

`json_dumps` with `JSON_COMPACT`, and how long its texts are.
-/

namespace Crinha
open CString Decimal

def hexDigit (d : Nat) : UInt8 := UInt8.ofNat (if d < 10 then 48 + d else 55 + d)

/-- The bytes of a character that is not escaped are written as they are. -/
def escapeByte (b : UInt8) : Bytes :=
  if b = 34 ∨ b = 92 then [92, b]
  else if b = 8 then ascii "\\b"
  else if b = 12 then ascii "\\f"
  else if b = 10 then ascii "\\n"
  else if b = 13 then ascii "\\r"
  else if b = 9 then ascii "\\t"
  else if b < 32 then ascii "\\u00" ++ [hexDigit (b.toNat / 16), hexDigit (b.toNat % 16)]
  else [b]

def quoted (s : Bytes) : Bytes := 34 :: (s.flatMap escapeByte ++ [34])

/-- The items of an array or an object, with commas. -/
def separated : List Bytes → Bytes
  | [] => []
  | [x] => x
  | x :: y :: l => x ++ 44 :: separated (y :: l)

mutual

/-- A `real` is printed as one of the numbers it may be; the handlers make none. -/
def jsonDumps : Json → Bytes
  | .null => ascii "null"
  | .bool b => if b then ascii "true" else ascii "false"
  | .integer v => showInt v.toInt
  | .real => ascii "0.0"
  | .string s => quoted s
  | .array l => 91 :: (separated (dumpItems l) ++ [93])
  | .object members => 123 :: (separated (dumpMembers members) ++ [125])

def dumpItems : List Json → List Bytes
  | [] => []
  | json :: l => jsonDumps json :: dumpItems l

def dumpMembers : List (String × Json) → List Bytes
  | [] => []
  | (key, value) :: members =>
    (quoted (ascii key) ++ 58 :: jsonDumps value) :: dumpMembers members

end

/-! ## C strings -/

theorem noNul_escapeByte (b : UInt8) : 0 ∉ escapeByte b := by
  revert b
  apply forall_byte
  decide +kernel

theorem noNul_quoted (s : Bytes) : 0 ∉ quoted s := by
  intro h
  simp only [quoted, List.mem_cons, List.mem_append, List.not_mem_nil, or_false] at h
  rcases h with h | h | h
  · cases h
  · obtain ⟨b, _, hb⟩ := List.mem_flatMap.mp h
    exact noNul_escapeByte b hb
  · cases h

theorem noNul_showNat (n : Nat) : 0 ∉ showNat n := by
  intro h
  have hd := isDigit_of_mem_showNat h
  revert hd
  decide

theorem noNul_showInt (x : Int) : 0 ∉ showInt x := by
  unfold showInt
  split
  · intro h
    rcases List.mem_cons.mp h with h | h
    · cases h
    · exact noNul_showNat _ h
  · exact noNul_showNat _

theorem noNul_separated {l : List Bytes} (h : ∀ x ∈ l, 0 ∉ x) : 0 ∉ separated l := by
  induction l with
  | nil => exact List.not_mem_nil
  | cons x l ih =>
    have hx := h x List.mem_cons_self
    have hl := ih fun y hy => h y (List.mem_cons_of_mem _ hy)
    cases l with
    | nil => exact hx
    | cons y l =>
      intro h0
      simp only [separated, List.mem_append, List.mem_cons] at h0
      rcases h0 with h0 | h0 | h0
      · exact hx h0
      · cases h0
      · exact hl h0

theorem noNul_brackets {a b : UInt8} (ha : a ≠ 0) (hb : b ≠ 0) {text : Bytes} (h : 0 ∉ text) :
    0 ∉ a :: (text ++ [b]) := by
  simp [ha.symm, hb.symm, h]

mutual

/-- A text is a C string. -/
theorem noNul_jsonDumps : ∀ json, 0 ∉ jsonDumps json
  | .null => by decide
  | .bool true => by decide
  | .bool false => by decide
  | .integer v => noNul_showInt v.toInt
  | .real => by decide
  | .string s => noNul_quoted s
  | .array l => noNul_brackets (by decide) (by decide) (noNul_separated (noNul_dumpItems l))
  | .object members =>
    noNul_brackets (by decide) (by decide) (noNul_separated (noNul_dumpMembers members))

theorem noNul_dumpItems : ∀ (l : List Json), ∀ x ∈ dumpItems l, 0 ∉ x
  | [], x, h => absurd h List.not_mem_nil
  | json :: l, x, h => by
    rcases List.mem_cons.mp h with rfl | h
    · exact noNul_jsonDumps json
    · exact noNul_dumpItems l x h

theorem noNul_dumpMembers : ∀ (members : List (String × Json)), ∀ x ∈ dumpMembers members, 0 ∉ x
  | [], x, h => absurd h List.not_mem_nil
  | (key, value) :: members, x, h => by
    rcases List.mem_cons.mp h with rfl | h
    · have hkey := noNul_quoted (ascii key)
      have hvalue := noNul_jsonDumps value
      simp [hkey, hvalue]
    · exact noNul_dumpMembers members x h

end

/-! ## Lengths -/

theorem length_escapeByte_le (b : UInt8) :
    (escapeByte b).length ≤ 1 + 5 * if Utf8.isTail b then 0 else 1 := by
  revert b
  apply forall_byte
  decide +kernel

/-- Only the first byte of a character can be escaped. -/
theorem length_quoted_le (s : Bytes) :
    (quoted s).length ≤ s.length + 5 * Utf8.charLength s + 2 := by
  have h : (s.flatMap escapeByte).length ≤ s.length + 5 * Utf8.charLength s := by
    induction s with
    | nil => exact Nat.le_refl _
    | cons b s ih =>
      have hb := length_escapeByte_le b
      rw [List.flatMap_cons, List.length_append, List.length_cons, Utf8.charLength,
        List.countP_cons, ← Utf8.charLength]
      cases ht : Utf8.isTail b
      · simp only [ht, Bool.false_eq_true, if_false, Bool.not_false, if_true] at hb ⊢
        omega
      · simp only [ht, if_true, Bool.not_true, Bool.false_eq_true, if_false] at hb ⊢
        omega
  simp only [quoted, List.length_cons, List.length_append, List.length_nil]
  omega

/-- A text without bytes to escape. -/
theorem length_quoted {s : Bytes} (h : ∀ b ∈ s, escapeByte b = [b]) :
    (quoted s).length = s.length + 2 := by
  have hs : s.flatMap escapeByte = s := by
    induction s with
    | nil => rfl
    | cons b s ih =>
      rw [List.flatMap_cons, h b List.mem_cons_self, ih fun c hc => h c (List.mem_cons_of_mem _ hc)]
      rfl
  simp [quoted, hs]

theorem length_separated_le {l : List Bytes} {k : Nat} (h : ∀ x ∈ l, x.length ≤ k) :
    (separated l).length ≤ l.length * (k + 1) := by
  induction l with
  | nil => exact Nat.zero_le _
  | cons x l ih =>
    have hx := h x List.mem_cons_self
    have hl := ih fun y hy => h y (List.mem_cons_of_mem _ hy)
    cases l with
    | nil =>
      simp only [separated, List.length_cons, List.length_nil]
      omega
    | cons y l =>
      simp only [separated, List.length_append, List.length_cons] at hl ⊢
      rw [Nat.add_mul (l.length + 1) 1]
      omega

theorem length_dumpItems (l : List Json) : (dumpItems l).length = l.length := by
  induction l with
  | nil => rfl
  | cons json l ih => rw [dumpItems, List.length_cons, ih, List.length_cons]

theorem mem_dumpItems {l : List Json} {x : Bytes} (h : x ∈ dumpItems l) :
    ∃ json ∈ l, x = jsonDumps json := by
  induction l with
  | nil => cases h
  | cons json l ih =>
    rcases List.mem_cons.mp h with rfl | h
    · exact ⟨json, List.mem_cons_self, rfl⟩
    · obtain ⟨json', hj, hx⟩ := ih h
      exact ⟨json', List.mem_cons_of_mem _ hj, hx⟩

/-- An array of texts of at most `k` bytes. -/
theorem length_array_le {l : List Json} {k : Nat} (h : ∀ json ∈ l, (jsonDumps json).length ≤ k) :
    (jsonDumps (.array l)).length ≤ l.length * (k + 1) + 2 := by
  have hitems : ∀ x ∈ dumpItems l, x.length ≤ k := by
    intro x hx
    obtain ⟨json, hj, rfl⟩ := mem_dumpItems hx
    exact h json hj
  have hs := length_separated_le hitems
  rw [length_dumpItems] at hs
  simp only [jsonDumps, List.length_cons, List.length_append, List.length_nil]
  omega

/-- A 32-bit number. -/
theorem length_packInt_le (v : Int64) : (jsonDumps (packInt v)).length ≤ 11 := by
  have hv : v.toInt32.toInt64.toInt = v.toInt32.toInt := Int32.toInt_toInt64 _
  have hlo := v.toInt32.le_toInt
  have hhi := v.toInt32.toInt_lt
  rw [packInt, jsonDumps, hv]
  exact length_showInt_le (by decide) (by omega)

end Crinha
