import Crinha.Bytes.CString
import Crinha.Bytes.Utf8

/-!
# Entities and string helpers

The records of `entity/` and the functions of `util/string_util.c`. A `char *`
that is only read is the list of the bytes before its NUL.
-/

namespace Crinha
open CString

abbrev Bytes := List UInt8

/-! ## `util/string_util.c` -/

/-- Copy at most `size` bytes of `ori` to `mem` at `start`, pad to `size`, terminate. -/
def strzcpy {β : Type} [Octet β] (mem : List β) (start : Nat) (ori : List β) (size : Nat) :
    List β :=
  overwrite (strncpy mem start ori size) (start + size) [Octet.nul]

/-- Bytes are signed chars there; the mask `0xC0` only sees the low eight bits. -/
def stringUtilUtf8Strlen : Bytes → Nat
  | [] => 0
  | b :: str =>
    if b &&& 0xC0 != 0x80 then stringUtilUtf8Strlen str + 1 else stringUtilUtf8Strlen str

section
variable {β : Type} [Octet β]

theorem strzcpy_eq {mem : List β} {start : Nat} (ori : List β) (size : Nat)
    (h : start ≤ mem.length) :
    ∃ rest, strzcpy mem start ori size =
      mem.take start ++ padded ori size ++ Octet.nul :: rest := by
  have hl : (mem.take start ++ padded ori size).length = start + size := by
    simp [length_padded, Nat.min_eq_left h]
  have he : strncpy mem start ori size =
      (mem.take start ++ padded ori size) ++ mem.drop (start + size) := by
    simp [strncpy, overwrite, length_padded]
  have hn := overwrite_append (mem.take start ++ padded ori size) (mem.drop (start + size))
    [Octet.nul]
  rw [hl] at hn
  exact ⟨(mem.drop (start + size)).drop 1, by rw [strzcpy, he, hn]; simp⟩

/-- The string a cleared or unset field holds after a copy: the field's old
contents play no part. -/
theorem cstr_strzcpy (mem ori : List β) (size : Nat) :
    cstr (strzcpy mem 0 ori size) = (cstr ori).take size := by
  obtain ⟨rest, he⟩ := strzcpy_eq ori size (Nat.zero_le mem.length)
  rw [he]
  simpa using cstr_padded [] ori size rest (by simp)

end

theorem isTail_eq (b : UInt8) : (b &&& 0xC0 != 0x80) = !Utf8.isTail b := by
  revert b
  apply forall_byte
  decide +kernel

theorem stringUtilUtf8Strlen_eq (str : Bytes) : stringUtilUtf8Strlen str = Utf8.charLength str := by
  induction str with
  | nil => rfl
  | cons b str ih =>
    rw [stringUtilUtf8Strlen, isTail_eq, ih]
    cases h : Utf8.isTail b <;> simp [Utf8.charLength, h]

/-! ## `entity/` -/

structure Cliente where
  id : Nat
  limite : Int64
  saldo : Int64
  deriving DecidableEq

def transacaoTipoLen : Nat := 1
def transacaoDescricaoLen : Nat := 10
def transacaoRealizadaEmLen : Nat := 40
def utf8TransacaoDescricaoLen : Nat := transacaoDescricaoLen * 2

/-- The three texts are C strings in arrays of their length and one. -/
structure Transacao where
  id : Nat
  idCliente : Nat
  valor : Int64
  tipo : Bytes
  descricao : Bytes
  realizadaEm : Bytes
  deriving DecidableEq

/-- An array of `len + 1` chars after `strzcpy(field, ori, len)`. What `malloc`
left in it does not matter (`cstr_strzcpy`). -/
def copied (ori : Bytes) (len : Nat) : Bytes :=
  cstr (strzcpy (List.replicate (len + 1) 0) 0 ori len)

theorem copied_eq {ori : Bytes} (len : Nat) (h : 0 ∉ ori) : copied ori len = ori.take len := by
  rw [copied, cstr_strzcpy, cstr_of_noNul (val_ne_of_noNul h)]

theorem valid_copied {s : Bytes} (h : ∀ b ∈ s, 0 < b.toNat ∧ b.toNat < 0x80) (len : Nat) :
    Utf8.valid (copied s len) = true := by
  have h0 : 0 ∉ s := fun hm => absurd (h 0 hm).1 (by decide)
  rw [copied_eq len h0]
  exact Utf8.valid_ascii fun b hb => (h b (List.mem_of_mem_take hb)).2

end Crinha
