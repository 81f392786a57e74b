/-!
# UTF-8

* `valid_iff`: the machine accepts the encodings of sequences of scalar values;
* `valid_take_iff`: where an encoding can be cut.
-/

namespace Utf8

def encode (cs : List Char) : List UInt8 := cs.flatMap String.utf8EncodeChar

/-- The bytes `10xxxxxx`, which start no character. -/
def isTail (b : UInt8) : Bool := decide (0x80 ≤ b.toNat) && decide (b.toNat ≤ 0xBF)

/-- The number of bytes that start a character. -/
def charLength (bs : List UInt8) : Nat := bs.countP fun b => !isTail b

/-- `validFrom n lo hi`: `n` tails are owed, the first of them in `lo..hi`. -/
def validFrom : Nat → Nat → Nat → List UInt8 → Bool
  | 0, _, _, [] => true
  | _ + 1, _, _, [] => false
  | 0, _, _, b :: bs =>
    let v := b.toNat
    if v < 0x80 then validFrom 0 0 0 bs
    else if v < 0xC2 then false
    else if v < 0xE0 then validFrom 1 0x80 0xBF bs
    else if v = 0xE0 then validFrom 2 0xA0 0xBF bs
    else if v = 0xED then validFrom 2 0x80 0x9F bs
    else if v < 0xF0 then validFrom 2 0x80 0xBF bs
    else if v = 0xF0 then validFrom 3 0x90 0xBF bs
    else if v < 0xF4 then validFrom 3 0x80 0xBF bs
    else if v = 0xF4 then validFrom 3 0x80 0x8F bs
    else false
  | n + 1, lo, hi, b :: bs =>
    decide (lo ≤ b.toNat) && decide (b.toNat ≤ hi) && validFrom n 0x80 0xBF bs

def valid (bs : List UInt8) : Bool := validFrom 0 0 0 bs

theorem char_cases (c : Char) :
    c.val.toNat < 0xD800 ∨ 0xDFFF < c.val.toNat ∧ c.val.toNat < 0x110000 := by
  have := c.valid
  simp only [UInt32.isValidChar, Nat.isValidChar] at this
  exact this

/-- The encoding of a character, by its number of bytes. -/
theorem encode_cases (c : Char) :
    (∃ a, String.utf8EncodeChar c = [a] ∧ a.toNat = c.val.toNat ∧ c.val.toNat < 0x80) ∨
    (∃ a b, String.utf8EncodeChar c = [a, b] ∧ 0x80 ≤ c.val.toNat ∧ c.val.toNat < 0x800 ∧
      a.toNat = c.val.toNat / 64 + 0xC0 ∧ b.toNat = c.val.toNat % 64 + 0x80) ∨
    (∃ a b d, String.utf8EncodeChar c = [a, b, d] ∧ 0x800 ≤ c.val.toNat ∧ c.val.toNat < 0x10000 ∧
      a.toNat = c.val.toNat / 4096 + 0xE0 ∧ b.toNat = c.val.toNat / 64 % 64 + 0x80 ∧
      d.toNat = c.val.toNat % 64 + 0x80) ∨
    (∃ a b d e, String.utf8EncodeChar c = [a, b, d, e] ∧ 0x10000 ≤ c.val.toNat ∧
      a.toNat = c.val.toNat / 262144 + 0xF0 ∧ b.toNat = c.val.toNat / 4096 % 64 + 0x80 ∧
      d.toNat = c.val.toNat / 64 % 64 + 0x80 ∧ e.toNat = c.val.toNat % 64 + 0x80) := by
  have hc := char_cases c
  unfold String.utf8EncodeChar
  generalize c.val.toNat = v at hc
  simp only
  split
  · exact .inl ⟨_, rfl, by simp only [UInt8.toNat_ofNat']; omega, by omega⟩
  · split
    · exact .inr (.inl ⟨_, _, rfl, by omega, by omega, by simp only [UInt8.toNat_ofNat']; omega,
        by simp only [UInt8.toNat_ofNat']; omega⟩)
    · split
      · exact .inr (.inr (.inl ⟨_, _, _, rfl, by omega, by omega,
          by simp only [UInt8.toNat_ofNat']; omega, by simp only [UInt8.toNat_ofNat']; omega,
          by simp only [UInt8.toNat_ofNat']; omega⟩))
      · exact .inr (.inr (.inr ⟨_, _, _, _, rfl, by omega, by simp only [UInt8.toNat_ofNat']; omega,
          by simp only [UInt8.toNat_ofNat']; omega, by simp only [UInt8.toNat_ofNat']; omega,
          by simp only [UInt8.toNat_ofNat']; omega⟩))

@[simp] theorem validFrom_zero (lo hi : Nat) (bs : List UInt8) :
    validFrom 0 lo hi bs = valid bs := by
  cases bs <;> rfl

theorem validFrom_tail {n lo hi : Nat} {b : UInt8} {bs : List UInt8} (hlo : lo ≤ b.toNat)
    (hhi : b.toNat ≤ hi) : validFrom (n + 1) lo hi (b :: bs) = validFrom n 0x80 0xBF bs := by
  simp [validFrom, hlo, hhi]

/-- A whole character leaves the machine where it was. -/
theorem valid_char (c : Char) (bs : List UInt8) :
    valid (String.utf8EncodeChar c ++ bs) = valid bs := by
  have hc := char_cases c
  rcases encode_cases c with ⟨a, he, ha, h⟩ | ⟨a, b, he, h, h', ha, hb⟩ |
    ⟨a, b, d, he, h, h', ha, hb, hd⟩ | ⟨a, b, d, e, he, h, ha, hb, hd, hf⟩ <;>
    generalize c.val.toNat = v at * <;> rw [he, valid] <;>
    simp only [List.cons_append, List.nil_append]
  · rw [validFrom, if_pos (by omega), validFrom_zero]
  · rw [validFrom, if_neg (by omega), if_neg (by omega), if_pos (by omega),
      validFrom_tail (by omega) (by omega), validFrom_zero]
  · rw [validFrom, if_neg (by omega), if_neg (by omega), if_neg (by omega)]
    split
    · rw [validFrom_tail (by omega) (by omega), validFrom_tail (by omega) (by omega),
        validFrom_zero]
    · split
      · rw [validFrom_tail (by omega) (by omega), validFrom_tail (by omega) (by omega),
          validFrom_zero]
      · rw [if_pos (by omega), validFrom_tail (by omega) (by omega),
          validFrom_tail (by omega) (by omega), validFrom_zero]
  · rw [validFrom, if_neg (by omega), if_neg (by omega), if_neg (by omega), if_neg (by omega),
      if_neg (by omega), if_neg (by omega)]
    split
    · rw [validFrom_tail (by omega) (by omega), validFrom_tail (by omega) (by omega),
        validFrom_tail (by omega) (by omega), validFrom_zero]
    · split
      · rw [validFrom_tail (by omega) (by omega), validFrom_tail (by omega) (by omega),
          validFrom_tail (by omega) (by omega), validFrom_zero]
      · rw [if_pos (by omega), validFrom_tail (by omega) (by omega),
          validFrom_tail (by omega) (by omega), validFrom_tail (by omega) (by omega),
          validFrom_zero]

theorem valid_encode (cs : List Char) : valid (encode cs) = true := by
  induction cs with
  | nil => rfl
  | cons c cs ih => rwa [encode, List.flatMap_cons, valid_char]

theorem valid_ascii {bs : List UInt8} (h : ∀ b ∈ bs, b.toNat < 0x80) : valid bs = true := by
  induction bs with
  | nil => rfl
  | cons b bs ih =>
    rw [valid, validFrom, if_pos (h b List.mem_cons_self), validFrom_zero]
    exact ih fun c hc => h c (List.mem_cons_of_mem _ hc)

/-! ## What is accepted is an encoding -/

theorem val_ofNat {v : Nat} (h : v < 0xD800 ∨ 0xDFFF < v ∧ v < 0x110000) :
    (Char.ofNat v).val.toNat = v := by
  have hv : v.isValidChar := h
  rw [Char.ofNat, dif_pos hv]
  rfl

theorem tail_of_validFrom {n lo hi : Nat} {bs : List UInt8}
    (h : validFrom (n + 1) lo hi bs = true) :
    ∃ b r, bs = b :: r ∧ lo ≤ b.toNat ∧ b.toNat ≤ hi ∧ validFrom n 0x80 0xBF r = true := by
  cases bs with
  | nil => cases h
  | cons b r =>
    simp only [validFrom, Bool.and_eq_true, decide_eq_true_eq] at h
    exact ⟨b, r, rfl, h.1.1, h.1.2, h.2⟩

theorem encode_two {a b : UInt8} {v : Nat} (hv : 0x80 ≤ v ∧ v < 0x800)
    (ha : a.toNat = v / 64 + 0xC0) (hb : b.toNat = v % 64 + 0x80) :
    String.utf8EncodeChar (Char.ofNat v) = [a, b] := by
  have hc := encode_cases (Char.ofNat v)
  rw [val_ofNat (by omega)] at hc
  rcases hc with ⟨_, _, _, h⟩ | ⟨a', b', he, _, _, ha', hb'⟩ | ⟨_, _, _, _, h, _⟩ |
    ⟨_, _, _, _, _, h, _⟩
  · omega
  · rw [he, UInt8.toNat_inj.mp (ha'.trans ha.symm), UInt8.toNat_inj.mp (hb'.trans hb.symm)]
  · omega
  · omega

theorem encode_three {a b d : UInt8} {v : Nat} (hv : 0x800 ≤ v ∧ v < 0x10000)
    (hs : v < 0xD800 ∨ 0xDFFF < v) (ha : a.toNat = v / 4096 + 0xE0)
    (hb : b.toNat = v / 64 % 64 + 0x80) (hd : d.toNat = v % 64 + 0x80) :
    String.utf8EncodeChar (Char.ofNat v) = [a, b, d] := by
  have hc := encode_cases (Char.ofNat v)
  rw [val_ofNat (by omega)] at hc
  rcases hc with ⟨_, _, _, h⟩ | ⟨_, _, _, _, h, _⟩ | ⟨a', b', d', he, _, _, ha', hb', hd'⟩ |
    ⟨_, _, _, _, _, h, _⟩
  · omega
  · omega
  · rw [he, UInt8.toNat_inj.mp (ha'.trans ha.symm), UInt8.toNat_inj.mp (hb'.trans hb.symm),
      UInt8.toNat_inj.mp (hd'.trans hd.symm)]
  · omega

theorem encode_four {a b d e : UInt8} {v : Nat} (hv : 0x10000 ≤ v ∧ v < 0x110000)
    (ha : a.toNat = v / 262144 + 0xF0) (hb : b.toNat = v / 4096 % 64 + 0x80)
    (hd : d.toNat = v / 64 % 64 + 0x80) (he : e.toNat = v % 64 + 0x80) :
    String.utf8EncodeChar (Char.ofNat v) = [a, b, d, e] := by
  have hc := encode_cases (Char.ofNat v)
  rw [val_ofNat (by omega)] at hc
  rcases hc with ⟨_, _, _, h⟩ | ⟨_, _, _, _, h, _⟩ | ⟨_, _, _, _, _, h, _⟩ |
    ⟨a', b', d', e', hen, _, ha', hb', hd', he'⟩
  · omega
  · omega
  · omega
  · rw [hen, UInt8.toNat_inj.mp (ha'.trans ha.symm), UInt8.toNat_inj.mp (hb'.trans hb.symm),
      UInt8.toNat_inj.mp (hd'.trans hd.symm), UInt8.toNat_inj.mp (he'.trans he.symm)]

/-- Two tails complete a character of three bytes when they give a value in range. -/
theorem exists_char_three {a : UInt8} {bs : List UInt8} {lo hi : Nat}
    (ha : 0xE0 ≤ a.toNat ∧ a.toNat < 0xF0) (hlo : a.toNat = 0xE0 → 0xA0 ≤ lo)
    (hhi : a.toNat = 0xED → hi ≤ 0x9F) (hr : 0x80 ≤ lo ∧ hi ≤ 0xBF)
    (h : validFrom 2 lo hi bs = true) :
    ∃ c rest, a :: bs = String.utf8EncodeChar c ++ rest ∧ valid rest = true := by
  obtain ⟨b, r, rfl, hb, hb', h⟩ := tail_of_validFrom h
  obtain ⟨d, r, rfl, hd, hd', h⟩ := tail_of_validFrom h
  rw [validFrom_zero] at h
  refine ⟨Char.ofNat ((a.toNat - 0xE0) * 4096 + (b.toNat - 0x80) * 64 + (d.toNat - 0x80)), r, ?_, h⟩
  rw [encode_three (a := a) (b := b) (d := d) (by omega) (by omega) (by omega) (by omega)
    (by omega)]
  rfl

theorem exists_char_four {a : UInt8} {bs : List UInt8} {lo hi : Nat}
    (ha : 0xF0 ≤ a.toNat ∧ a.toNat ≤ 0xF4) (hlo : a.toNat = 0xF0 → 0x90 ≤ lo)
    (hhi : a.toNat = 0xF4 → hi ≤ 0x8F) (hr : 0x80 ≤ lo ∧ hi ≤ 0xBF)
    (h : validFrom 3 lo hi bs = true) :
    ∃ c rest, a :: bs = String.utf8EncodeChar c ++ rest ∧ valid rest = true := by
  obtain ⟨b, r, rfl, hb, hb', h⟩ := tail_of_validFrom h
  obtain ⟨d, r, rfl, hd, hd', h⟩ := tail_of_validFrom h
  obtain ⟨e, r, rfl, he, he', h⟩ := tail_of_validFrom h
  rw [validFrom_zero] at h
  refine ⟨Char.ofNat ((a.toNat - 0xF0) * 262144 + (b.toNat - 0x80) * 4096 + (d.toNat - 0x80) * 64 +
    (e.toNat - 0x80)), r, ?_, h⟩
  rw [encode_four (a := a) (b := b) (d := d) (e := e) (by omega) (by omega) (by omega) (by omega)
    (by omega)]
  rfl

/-- An accepted text starts with the encoding of a character. -/
theorem exists_char {a : UInt8} {bs : List UInt8} (h : valid (a :: bs) = true) :
    ∃ c rest, a :: bs = String.utf8EncodeChar c ++ rest ∧ valid rest = true := by
  simp only [valid, validFrom] at h
  split at h
  · refine ⟨Char.ofNat a.toNat, bs, ?_, by simpa using h⟩
    have hc := encode_cases (Char.ofNat a.toNat)
    rw [val_ofNat (by omega)] at hc
    rcases hc with ⟨a', he, ha, _⟩ | ⟨_, _, _, h, _⟩ | ⟨_, _, _, _, h, _⟩ | ⟨_, _, _, _, _, h, _⟩
    · rw [he, UInt8.toNat_inj.mp ha]
      rfl
    all_goals omega
  · split at h
    · cases h
    · split at h
      · obtain ⟨b, r, rfl, hb, hb', h⟩ := tail_of_validFrom h
        rw [validFrom_zero] at h
        refine ⟨Char.ofNat ((a.toNat - 0xC0) * 64 + (b.toNat - 0x80)), r, ?_, h⟩
        rw [encode_two (a := a) (b := b) (by omega) (by omega) (by omega)]
        rfl
      · split at h
        · exact exists_char_three (by omega) (by omega) (by omega) (by omega) h
        · split at h
          · exact exists_char_three (by omega) (by omega) (by omega) (by omega) h
          · split at h
            · exact exists_char_three (by omega) (by omega) (by omega) (by omega) h
            · split at h
              · exact exists_char_four (by omega) (by omega) (by omega) (by omega) h
              · split at h
                · exact exists_char_four (by omega) (by omega) (by omega) (by omega) h
                · split at h
                  · exact exists_char_four (by omega) (by omega) (by omega) (by omega) h
                  · cases h

theorem exists_encode_of_valid : ∀ (n : Nat) {bs : List UInt8}, bs.length ≤ n → valid bs = true →
    ∃ cs, encode cs = bs
  | _, [], _, _ => ⟨[], rfl⟩
  | 0, _ :: _, hn, _ => by simp at hn
  | n + 1, a :: bs, hn, h => by
    obtain ⟨c, rest, he, hv⟩ := exists_char h
    have hlen := congrArg List.length he
    have := c.utf8Size_pos
    simp only [List.length_cons, List.length_append, String.length_utf8EncodeChar] at hlen hn
    obtain ⟨cs, hcs⟩ := exists_encode_of_valid n (by omega : rest.length ≤ n) hv
    exact ⟨c :: cs, by rw [he, ← hcs]; rfl⟩

/-- **The machine accepts exactly UTF-8.** -/
theorem valid_iff (bs : List UInt8) : valid bs = true ↔ ∃ cs, encode cs = bs := by
  constructor
  · exact exists_encode_of_valid bs.length (Nat.le_refl _)
  · rintro ⟨cs, rfl⟩
    exact valid_encode cs

/-! ## Counting and cutting -/

theorem charLength_char (c : Char) : charLength (String.utf8EncodeChar c) = 1 := by
  rcases encode_cases c with ⟨a, he, ha, h⟩ | ⟨a, b, he, h, h', ha, hb⟩ |
    ⟨a, b, d, he, h, h', ha, hb, hd⟩ | ⟨a, b, d, e, he, h, ha, hb, hd, hf⟩ <;>
    have hc := char_cases c <;> generalize c.val.toNat = v at *
  · have : isTail a = false := by simp [isTail]; omega
    simp [he, charLength, this]
  · have h1 : isTail a = false := by simp [isTail]; omega
    have h2 : isTail b = true := by simp [isTail]; omega
    simp [he, charLength, h1, h2]
  · have h1 : isTail a = false := by simp [isTail]; omega
    have h2 : isTail b = true := by simp [isTail]; omega
    have h3 : isTail d = true := by simp [isTail]; omega
    simp [he, charLength, h1, h2, h3]
  · have h1 : isTail a = false := by simp [isTail]; omega
    have h2 : isTail b = true := by simp [isTail]; omega
    have h3 : isTail d = true := by simp [isTail]; omega
    have h4 : isTail e = true := by simp [isTail]; omega
    simp [he, charLength, h1, h2, h3, h4]

/-- Only U+0000 has a NUL in its encoding. -/
theorem noNul_char {c : Char} (h : c ≠ Char.ofNat 0) : 0 ∉ String.utf8EncodeChar c := by
  have hc : c.val.toNat ≠ 0 := fun h0 => h (Char.ext (UInt32.toNat_inj.mp h0))
  have zero {x : UInt8} (hx : x.toNat ≠ 0) : 0 ≠ x := by
    rintro rfl
    exact hx rfl
  rcases encode_cases c with ⟨a, he, ha, _⟩ | ⟨a, b, he, _, _, ha, hb⟩ |
    ⟨a, b, d, he, _, _, ha, hb, hd⟩ | ⟨a, b, d, e, he, _, ha, hb, hd, hf⟩
  · simp [he, zero (x := a) (by omega)]
  · simp [he, zero (x := a) (by omega), zero (x := b) (by omega)]
  · simp [he, zero (x := a) (by omega), zero (x := b) (by omega), zero (x := d) (by omega)]
  · simp [he, zero (x := a) (by omega), zero (x := b) (by omega), zero (x := d) (by omega),
      zero (x := e) (by omega)]

theorem noNul_encode {cs : List Char} (h : Char.ofNat 0 ∉ cs) : 0 ∉ encode cs := by
  intro h0
  obtain ⟨c, hc, hb⟩ := List.mem_flatMap.mp h0
  have hne : c ≠ Char.ofNat 0 := fun e => h (e ▸ hc)
  exact noNul_char hne hb

theorem charLength_append (a b : List UInt8) :
    charLength (a ++ b) = charLength a + charLength b := List.countP_append

/-- The number of characters of an encoding. -/
theorem charLength_encode (cs : List Char) : charLength (encode cs) = cs.length := by
  induction cs with
  | nil => rfl
  | cons c cs ih =>
    rw [encode, List.flatMap_cons, charLength_append, charLength_char, ← encode, ih,
      List.length_cons, Nat.add_comm]

theorem charLength_take_le (bs : List UInt8) (n : Nat) : charLength (bs.take n) ≤ charLength bs :=
  (List.take_sublist n bs).countP_le

/-- A text that ends while tails are owed is refused. -/
theorem validFrom_short {n lo hi : Nat} {bs : List UInt8} (h : bs.length < n) :
    validFrom n lo hi bs = false := by
  induction n generalizing lo hi bs with
  | zero => omega
  | succ n ih =>
    cases bs with
    | nil => rfl
    | cons b bs =>
      rw [validFrom, ih (by simpa using h), Bool.and_false]

/-- The first byte of a character says how many bytes it has at least. -/
theorem valid_short {a : UInt8} {bs : List UInt8} (ha : 0x80 ≤ a.toNat)
    (h : bs.length < 1 ∨ 0xE0 ≤ a.toNat ∧ bs.length < 2 ∨ 0xF0 ≤ a.toNat ∧ bs.length < 3) :
    valid (a :: bs) = false := by
  simp only [valid, validFrom]
  repeat' split
  all_goals first | rfl | omega | exact validFrom_short (by omega)

/-- A character cut inside is not valid, and the byte at the cut is a tail. -/
theorem char_cut {c : Char} {k : Nat} (h0 : 0 < k) (hk : k < (String.utf8EncodeChar c).length) :
    valid ((String.utf8EncodeChar c).take k) = false ∧
    ∃ b, (String.utf8EncodeChar c)[k]? = some b ∧ isTail b = true := by
  have hc := char_cases c
  rcases encode_cases c with ⟨a, he, ha, h⟩ | ⟨a, b, he, h, h', ha, hb⟩ |
    ⟨a, b, d, he, h, h', ha, hb, hd⟩ | ⟨a, b, d, e, he, h, ha, hb, hd, hf⟩ <;>
    rw [he] at hk ⊢ <;> generalize c.val.toNat = v at * <;>
    simp only [List.length_cons, List.length_nil] at hk
  · omega
  · obtain rfl : k = 1 := by omega
    exact ⟨valid_short (by omega) (by simp), b, rfl, by simp [isTail]; omega⟩
  · obtain rfl | rfl : k = 1 ∨ k = 2 := by omega
    · exact ⟨valid_short (by omega) (by simp), b, rfl, by simp [isTail]; omega⟩
    · exact ⟨valid_short (by omega) (by simp; omega), d, rfl, by simp [isTail]; omega⟩
  · obtain rfl | rfl | rfl : k = 1 ∨ k = 2 ∨ k = 3 := by omega
    · exact ⟨valid_short (by omega) (by simp), b, rfl, by simp [isTail]; omega⟩
    · exact ⟨valid_short (by omega) (by simp; omega), d, rfl, by simp [isTail]; omega⟩
    · exact ⟨valid_short (by omega) (by simp; omega), e, rfl, by simp [isTail]; omega⟩

theorem isTail_head (c : Char) : ∃ a bs, String.utf8EncodeChar c = a :: bs ∧ isTail a = false := by
  have hc := char_cases c
  rcases encode_cases c with ⟨a, he, ha, h⟩ | ⟨a, b, he, h, h', ha, hb⟩ |
    ⟨a, b, d, he, h, h', ha, hb, hd⟩ | ⟨a, b, d, e, he, h, ha, hb, hd, hf⟩ <;>
    generalize c.val.toNat = v at * <;> exact ⟨a, _, he, by simp [isTail]; omega⟩

/-- **Where an encoding can be cut.** Its first `n` bytes are valid exactly when
the byte after them, if there is one, starts a character. -/
theorem valid_take_iff (cs : List Char) (n : Nat) :
    valid ((encode cs).take n) = true ↔ ∀ b, (encode cs)[n]? = some b → isTail b = false := by
  induction cs generalizing n with
  | nil => simp [encode, valid, validFrom]
  | cons c cs ih =>
    have he : encode (c :: cs) = String.utf8EncodeChar c ++ encode cs := rfl
    rw [he]
    by_cases hn : n < (String.utf8EncodeChar c).length
    · rw [List.take_append_of_le_length (by omega), List.getElem?_append_left hn]
      cases n with
      | zero =>
        obtain ⟨a, bs, ha, ht⟩ := isTail_head c
        simp [ha, ht, valid, validFrom]
      | succ n =>
        obtain ⟨hv, b, hb, ht⟩ := char_cut (Nat.succ_pos n) hn
        simp [hv, hb, ht]
    · rw [List.take_append, List.take_of_length_le (by omega), valid_char,
        List.getElem?_append_right (by omega)]
      exact ih _

end Utf8
