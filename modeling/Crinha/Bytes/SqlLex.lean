import Crinha.Bytes.Decimal

/-!
# Tokens of SQL

* `feed_literal`: a text without quotes, in quotes, is the literal of that text;
* `literal_shorter`: with a quote in it, the literal that is read is a shorter one.
-/

namespace SqlLex

inductive Token where
  | word (w : List UInt8)
  | literal (value : List UInt8)
  | symbol (b : UInt8)
  deriving DecidableEq

/-- `quote` has read a quote inside a literal, which the next byte may double;
`dash` has read one dash. -/
inductive Mode where
  | normal
  | word (w : List UInt8)
  | literal (value : List UInt8)
  | quote (value : List UInt8)
  | dash
  | comment
  deriving DecidableEq

def isSpace (b : UInt8) : Bool := b == 32 || b == 9 || b == 10 || b == 13

/-- Letters, digits and underscores. -/
def isWord (b : UInt8) : Bool :=
  Decimal.isDigit b || decide (65 ≤ b.toNat ∧ b.toNat ≤ 90) ||
    decide (97 ≤ b.toNat ∧ b.toNat ≤ 122) || b == 95

/-- A byte outside words, literals and comments. -/
def begin (b : UInt8) : Mode × List Token :=
  if b = 39 then (.literal [], [])
  else if b = 45 then (.dash, [])
  else if isSpace b then (.normal, [])
  else if isWord b then (.word [b], [])
  else (.normal, [.symbol b])

/-- The next mode, and the tokens that a byte completes. -/
def step : Mode → UInt8 → Mode × List Token
  | .normal, b => begin b
  | .word w, b => if isWord b then (.word (w ++ [b]), []) else ((begin b).1, .word w :: (begin b).2)
  | .literal v, b => if b = 39 then (.quote v, []) else (.literal (v ++ [b]), [])
  | .quote v, b =>
    if b = 39 then (.literal (v ++ [39]), []) else ((begin b).1, .literal v :: (begin b).2)
  | .dash, b =>
    if b = 45 then (.comment, []) else ((begin b).1, .symbol 45 :: (begin b).2)
  | .comment, b => if b = 10 ∨ b = 13 then (.normal, []) else (.comment, [])

/-- The mode after a text, and the tokens it completes. -/
def feed : Mode → List UInt8 → Mode × List Token
  | m, [] => (m, [])
  | m, b :: bs => ((feed (step m b).1 bs).1, (step m b).2 ++ (feed (step m b).1 bs).2)

/-- What the end of the text completes; a literal must have been closed. -/
def finish : Mode → Option (List Token)
  | .normal | .comment => some []
  | .word w => some [.word w]
  | .literal _ => none
  | .quote v => some [.literal v]
  | .dash => some [.symbol 45]

def tokensFrom (m : Mode) (bs : List UInt8) : Option (List Token) :=
  (finish (feed m bs).1).map ((feed m bs).2 ++ ·)

def tokens (bs : List UInt8) : Option (List Token) := tokensFrom .normal bs

theorem feed_append (m : Mode) (a b : List UInt8) :
    feed m (a ++ b) = ((feed (feed m a).1 b).1, (feed m a).2 ++ (feed (feed m a).1 b).2) := by
  induction a generalizing m with
  | nil => rfl
  | cons x a ih => simp only [List.cons_append, feed, ih, List.append_assoc]

theorem tokensFrom_append (m : Mode) (a b : List UInt8) :
    tokensFrom m (a ++ b) = (tokensFrom (feed m a).1 b).map ((feed m a).2 ++ ·) := by
  simp only [tokensFrom, feed_append, Option.map_map]
  congr 1
  funext ts
  exact List.append_assoc ..

theorem tokensFrom_cons (m : Mode) (b : UInt8) (bs : List UInt8) :
    tokensFrom m (b :: bs) = (tokensFrom (step m b).1 bs).map ((step m b).2 ++ ·) := by
  have h := tokensFrom_append m [b] bs
  simpa [feed] using h

theorem feed_word {w v : List UInt8} (h : ∀ b ∈ v, isWord b = true) :
    feed (.word w) v = (.word (w ++ v), []) := by
  induction v generalizing w with
  | nil => simp [feed]
  | cons b v ih =>
    have hb := h b List.mem_cons_self
    rw [feed, step, if_pos hb, ih fun c hc => h c (List.mem_cons_of_mem _ hc)]
    simp

/-- A word starts outside of everything. -/
theorem feed_normal_word {v : List UInt8} (hv : v ≠ []) (h : ∀ b ∈ v, isWord b = true) :
    feed .normal v = (.word v, []) := by
  cases v with
  | nil => exact absurd rfl hv
  | cons b v =>
    have hb := h b List.mem_cons_self
    have hbegin : begin b = (.word [b], []) := by
      have h₁ : b ≠ 39 := by rintro rfl; revert hb; decide
      have h₂ : b ≠ 45 := by rintro rfl; revert hb; decide
      have h₃ : isSpace b = false := by
        by_contra hs
        simp only [isSpace, Bool.or_eq_true, beq_iff_eq, Bool.not_eq_false] at hs
        rcases hs with ((rfl | rfl) | rfl) | rfl <;> revert hb <;> decide
      simp [begin, h₁, h₂, h₃, hb]
    rw [feed, step, hbegin, feed_word fun c hc => h c (List.mem_cons_of_mem _ hc)]
    simp

/-- A word ends before a byte that is none of it. -/
theorem feed_word_end {w a : List UInt8} {m : Mode} {ts : List Token}
    (ha : a.head?.map isWord = some false) (h : feed .normal a = (m, ts)) :
    feed (.word w) a = (m, .word w :: ts) := by
  cases a with
  | nil => cases ha
  | cons b a =>
    have hb : isWord b = false := by simpa using ha
    obtain ⟨rfl, rfl⟩ := Prod.mk.inj h
    simp [feed, step, hb]

theorem isWord_of_isDigit {b : UInt8} (h : Decimal.isDigit b = true) : isWord b = true := by
  simp [isWord, h]

/-! ## Literals -/

theorem feed_literal {v d : List UInt8} (h : 39 ∉ d) :
    feed (.literal v) d = (.literal (v ++ d), []) := by
  induction d generalizing v with
  | nil => simp [feed]
  | cons b d ih =>
    simp only [List.mem_cons, not_or] at h
    rw [feed, step, if_neg (Ne.symm h.1), ih h.2]
    simp

/-- A literal that is not closed is an error. -/
theorem tokensFrom_open {v rest : List UInt8} (h : 39 ∉ rest) :
    tokensFrom (.literal v) rest = none := by
  rw [tokensFrom, feed_literal h]
  rfl

/-- A closed literal is one token, whatever follows. -/
theorem tokensFrom_quote {v rest : List UInt8} {ts : List Token} (h : 39 ∉ rest)
    (ht : tokensFrom (.quote v) rest = some ts) : ∃ ts', ts = .literal v :: ts' := by
  cases rest with
  | nil =>
    obtain rfl : [.literal v] = ts := by simpa [tokensFrom, feed, finish] using ht
    exact ⟨[], rfl⟩
  | cons b rest =>
    simp only [List.mem_cons, not_or] at h
    rw [tokensFrom_cons, step, if_neg (Ne.symm h.1), Option.map_eq_some_iff] at ht
    obtain ⟨ts', _, rfl⟩ := ht
    exact ⟨(begin b).2 ++ ts', rfl⟩

/-- **A quote inside a literal shortens it.** The text `d` with a quote in it, closed
by a quote, is read as a literal shorter than `d`, or not at all. -/
theorem literal_shorter {rest : List UInt8} (hrest : 39 ∉ rest) :
    ∀ {d v : List UInt8} {ts : List Token}, 39 ∈ d →
      tokensFrom (.literal v) (d ++ 39 :: rest) = some ts →
        ∃ u ts', ts = .literal (v ++ u) :: ts' ∧ u.length < d.length
  | [], _, _, hd, _ => by cases hd
  | [b], v, ts, hd, ht => by
    -- the last quote doubles the closing one
    obtain rfl : 39 = b := by simpa using hd
    simp only [List.cons_append, List.nil_append, tokensFrom_cons, step, if_true] at ht
    rw [tokensFrom_open hrest] at ht
    cases ht
  | b :: c :: d, v, ts, hd, ht => by
    rw [List.cons_append, tokensFrom_cons, Option.map_eq_some_iff] at ht
    obtain ⟨ts, ht, rfl⟩ := ht
    by_cases hb : b = 39
    · subst hb
      simp only [step, if_true, List.nil_append, List.cons_append, tokensFrom_cons] at ht ⊢
      by_cases hc : c = 39
      · subst hc
        simp only [if_true, List.nil_append, Option.map_id'] at ht
        by_cases hd' : 39 ∈ d
        · obtain ⟨u, ts', rfl, hu⟩ := literal_shorter hrest hd' ht
          exact ⟨39 :: u, ts', by simp, by simpa using Nat.lt_succ_of_lt hu⟩
        · rw [tokensFrom_append, feed_literal hd', tokensFrom_cons] at ht
          simp only [step, if_true, List.nil_append, Option.map_id'] at ht
          obtain ⟨ts', rfl⟩ := tokensFrom_quote hrest ht
          exact ⟨39 :: d, ts', by simp, by simp⟩
      · simp only [if_neg hc, Option.map_eq_some_iff] at ht
        obtain ⟨ts', _, rfl⟩ := ht
        exact ⟨[], (begin c).2 ++ ts', by simp, by simp⟩
    · have hd' : 39 ∈ c :: d := by simpa [Ne.symm hb] using hd
      simp only [step, if_neg hb] at ht ⊢
      obtain ⟨u, ts', rfl, hu⟩ := literal_shorter hrest hd' ht
      exact ⟨b :: u, ts', by simp, by simpa using hu⟩

end SqlLex
