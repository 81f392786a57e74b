import Mathlib.Computability.RegularExpressions

/-!
# Regular expressions of `regex.h`

* `exec_some`, `exec_none`: a search finds the longest match at the first place.
-/

namespace Regex

open RegularExpression

variable {α : Type}

/-- `^` and `$` are `atStart` and `atEnd`. -/
structure Pattern (α : Type) where
  atStart : Bool
  body : RegularExpression α
  atEnd : Bool

/-- The offsets `rm_so` and `rm_eo`. -/
structure Match where
  so : Nat
  eo : Nat
  deriving DecidableEq

def Match.succ (m : Match) : Match := ⟨m.so + 1, m.eo + 1⟩

/-- `x` is a match with `a` before and `b` behind it. -/
structure Pattern.Ocorre (p : Pattern α) (a x b : List α) : Prop where
  mem : x ∈ p.body.matches'
  atStart : p.atStart = true → a = []
  atEnd : p.atEnd = true → b = []

/-! ## Search -/

section
variable [DecidableEq α]

/-- The first `n` octets are a match. -/
def Pattern.endsAt (p : Pattern α) (str : List α) (n : Nat) : Bool :=
  p.body.rmatch (str.take n) && (!p.atEnd || (str.drop n).isEmpty)

/-- The longest match at the start that has at most `n` octets. -/
def Pattern.longestBelow (p : Pattern α) (str : List α) : Nat → Option Nat
  | 0 => if p.endsAt str 0 then some 0 else none
  | n + 1 => if p.endsAt str (n + 1) then some (n + 1) else p.longestBelow str n

def Pattern.longest (p : Pattern α) (str : List α) : Option Nat := p.longestBelow str str.length

/-- `regexec`. -/
def Pattern.exec (p : Pattern α) : List α → Option Match
  | [] => (p.longest []).map fun n => ⟨0, n⟩
  | b :: str =>
    match p.longest (b :: str) with
    | some n => some ⟨0, n⟩
    | none => if p.atStart then none else (p.exec str).map Match.succ

variable {p : Pattern α} {str : List α}

theorem endsAt_iff {n : Nat} :
    p.endsAt str n = true ↔ p.Ocorre [] (str.take n) (str.drop n) := by
  simp only [Pattern.endsAt, Bool.and_eq_true, Bool.or_eq_true, Bool.not_eq_true',
    List.isEmpty_iff, rmatch_iff_matches']
  constructor
  · intro ⟨hmem, hend⟩
    exact ⟨hmem, fun _ => rfl, fun he => hend.resolve_left (by simp [he])⟩
  · intro h
    refine ⟨h.mem, ?_⟩
    cases he : p.atEnd with
    | false => exact .inl rfl
    | true => exact .inr (h.atEnd he)

theorem longestBelow_some {k n : Nat} (h : p.longestBelow str k = some n) :
    n ≤ k ∧ p.endsAt str n = true ∧ ∀ m ≤ k, p.endsAt str m = true → m ≤ n := by
  induction k with
  | zero =>
    unfold Pattern.longestBelow at h
    split at h
    · rename_i hends
      obtain rfl := Option.some.inj h
      exact ⟨Nat.le_refl _, hends, fun m hm _ => hm⟩
    · cases h
  | succ k ih =>
    unfold Pattern.longestBelow at h
    split at h
    · rename_i hends
      obtain rfl := Option.some.inj h
      exact ⟨Nat.le_refl _, hends, fun m hm _ => hm⟩
    · rename_i hno
      obtain ⟨hle, hends, hmax⟩ := ih h
      refine ⟨Nat.le_succ_of_le hle, hends, ?_⟩
      intro m hm he
      rcases Nat.le_succ_iff.mp hm with hm | rfl
      · exact hmax m hm he
      · exact absurd he hno

theorem longestBelow_none {k : Nat} (h : p.longestBelow str k = none) :
    ∀ m ≤ k, p.endsAt str m = false := by
  induction k with
  | zero =>
    intro m hm
    obtain rfl := Nat.le_zero.mp hm
    simpa [Pattern.longestBelow] using h
  | succ k ih =>
    intro m hm
    unfold Pattern.longestBelow at h
    split at h
    · cases h
    · rename_i hno
      rcases Nat.le_succ_iff.mp hm with hm | rfl
      · exact ih h m hm
      · exact Bool.eq_false_iff.mpr hno

/-- A match at the start ends at the length of it. -/
theorem endsAt_of_ocorre {x b : List α} (h : p.Ocorre [] x b) :
    p.endsAt (x ++ b) x.length = true := by
  rw [endsAt_iff, List.take_left, List.drop_left]
  exact h

theorem longest_some {n : Nat} (h : p.longest str = some n) :
    (∃ x b, str = x ++ b ∧ x.length = n ∧ p.Ocorre [] x b) ∧
      ∀ x b, str = x ++ b → p.Ocorre [] x b → x.length ≤ n := by
  obtain ⟨hle, hends, hmax⟩ := longestBelow_some h
  constructor
  · exact ⟨str.take n, str.drop n, (List.take_append_drop n str).symm,
      List.length_take_of_le hle, endsAt_iff.mp hends⟩
  · rintro x b rfl hx
    exact hmax _ (by simp) (endsAt_of_ocorre hx)

theorem longest_none (h : p.longest str = none) {x b : List α} (hs : str = x ++ b) :
    ¬p.Ocorre [] x b := by
  subst hs
  intro hx
  have hno := longestBelow_none h x.length (by simp)
  rw [endsAt_of_ocorre hx] at hno
  cases hno

/-- The match a search reports: no other is earlier, and none at its place is longer. -/
structure Pattern.Primeiro (p : Pattern α) (str a x b : List α) : Prop where
  str_eq : str = a ++ x ++ b
  ocorre : p.Ocorre a x b
  first : ∀ a' x' b', str = a' ++ x' ++ b' → p.Ocorre a' x' b' →
    a.length < a'.length ∨ a.length = a'.length ∧ x'.length ≤ x.length

theorem primeiro_of_longest {n : Nat} (h : p.longest str = some n) :
    ∃ x b, x.length = n ∧ p.Primeiro str [] x b := by
  obtain ⟨⟨x, b, rfl, hn, hx⟩, hmax⟩ := longest_some h
  refine ⟨x, b, hn, rfl, hx, ?_⟩
  intro a' x' b' hs hx'
  cases a' with
  | nil => exact .inr ⟨rfl, hn ▸ hmax x' b' hs hx'⟩
  | cons c a' => exact .inl (Nat.zero_lt_succ _)

/-- What a search finds is the first match, and the longest there. -/
theorem exec_some : ∀ {str : List α} {m : Match}, p.exec str = some m →
    ∃ a x b, a.length = m.so ∧ (a ++ x).length = m.eo ∧ p.Primeiro str a x b
  | [], m, h => by
    obtain ⟨n, hn, rfl⟩ := Option.map_eq_some_iff.mp h
    obtain ⟨x, b, hx, hp⟩ := primeiro_of_longest hn
    exact ⟨[], x, b, rfl, hx, hp⟩
  | c :: str, m, h => by
    unfold Pattern.exec at h
    split at h
    · rename_i n hn
      obtain rfl := Option.some.inj h
      obtain ⟨x, b, hx, hp⟩ := primeiro_of_longest hn
      exact ⟨[], x, b, rfl, hx, hp⟩
    · rename_i hnone
      split at h
      · cases h
      · rename_i hstart
        obtain ⟨m', hm', rfl⟩ := Option.map_eq_some_iff.mp h
        obtain ⟨a, x, b, hso, heo, hp⟩ := exec_some hm'
        refine ⟨c :: a, x, b, by simp [Match.succ, hso], ?_, by simp [hp.str_eq], ?_, ?_⟩
        · simpa [Match.succ] using heo
        · exact ⟨hp.ocorre.mem, fun hs => absurd hs hstart, hp.ocorre.atEnd⟩
        · intro a' x' b' hs hx'
          cases a' with
          | nil => exact absurd hx' (longest_none hnone hs)
          | cons c' a' =>
            simp only [List.cons_append, List.cons.injEq] at hs
            have hx'' : p.Ocorre a' x' b' := ⟨hx'.mem, fun hs => absurd hs hstart, hx'.atEnd⟩
            rcases hp.first a' x' b' hs.2 hx'' with hlt | ⟨heq, hle⟩
            · exact .inl (Nat.succ_lt_succ hlt)
            · exact .inr ⟨congrArg Nat.succ heq, hle⟩

/-- A search that finds nothing has nothing to find. -/
theorem exec_none : ∀ {str : List α}, p.exec str = none →
    ∀ a x b, str = a ++ x ++ b → ¬p.Ocorre a x b
  | [], h, a, x, b, hs => by
    obtain ⟨rfl, rfl⟩ := List.append_eq_nil_iff.mp (List.append_eq_nil_iff.mp hs.symm).1
    exact longest_none (Option.map_eq_none_iff.mp h) hs
  | c :: str, h, a, x, b, hs => by
    intro hx
    unfold Pattern.exec at h
    split at h
    · cases h
    · rename_i hnone
      cases a with
      | nil => exact longest_none hnone hs hx
      | cons c' a =>
        have hstart : ¬p.atStart = true := fun hs => by cases hx.atStart hs
        rw [if_neg hstart] at h
        simp only [List.cons_append, List.cons.injEq] at hs
        exact exec_none (Option.map_eq_none_iff.mp h) a x b hs.2
          ⟨hx.mem, fun hs => absurd hs hstart, hx.atEnd⟩

theorem exec_isSome_iff : (p.exec str).isSome ↔ ∃ a x b, str = a ++ x ++ b ∧ p.Ocorre a x b := by
  constructor
  · intro h
    obtain ⟨m, hm⟩ := Option.isSome_iff_exists.mp h
    obtain ⟨a, x, b, _, _, hp⟩ := exec_some hm
    exact ⟨a, x, b, hp.str_eq, hp.ocorre⟩
  · rintro ⟨a, x, b, hs, hx⟩
    cases hm : p.exec str with
    | some m => rfl
    | none => exact absurd hx (exec_none hm a x b hs)

end

/-! ## Literals and classes -/

def oneOf (members : List α) : RegularExpression α := (members.map char).sum

theorem mem_cons {r : RegularExpression α} {items : List (RegularExpression α)} {x : List α} :
    x ∈ (r :: items).prod.matches' ↔ ∃ y ∈ r.matches', ∃ z ∈ items.prod.matches', y ++ z = x := by
  rw [List.prod_cons, matches'_mul, Language.mem_mul]

theorem mem_nil {x : List α} : x ∈ ([] : List (RegularExpression α)).prod.matches' ↔ x = [] := by
  rw [List.prod_nil, matches'_epsilon, Language.mem_one]

theorem mem_char {c : α} {x : List α} : x ∈ (char c).matches' ↔ x = [c] := by
  rw [matches'_char]
  exact Set.mem_singleton_iff

theorem mem_literal (text : List α) {items : List (RegularExpression α)} {x : List α} :
    x ∈ (text.map char ++ items).prod.matches' ↔ ∃ z ∈ items.prod.matches', text ++ z = x := by
  induction text generalizing x with
  | nil => simp
  | cons c text ih =>
    simp only [List.map_cons, List.cons_append, mem_cons, mem_char, ih]
    constructor
    · rintro ⟨_, rfl, _, ⟨z, hz, rfl⟩, rfl⟩
      exact ⟨z, hz, rfl⟩
    · rintro ⟨z, hz, rfl⟩
      exact ⟨[c], rfl, text ++ z, ⟨z, hz, rfl⟩, rfl⟩

theorem mem_oneOf {members x : List α} : x ∈ (oneOf members).matches' ↔ ∃ c ∈ members, x = [c] := by
  induction members with
  | nil => simp [oneOf, Language.notMem_zero]
  | cons c members ih =>
    have h : x ∈ (oneOf (c :: members)).matches' ↔ x = [c] ∨ x ∈ (oneOf members).matches' := by
      rw [oneOf, List.map_cons, List.sum_cons, matches'_add, Language.mem_add, mem_char]
      rfl
    rw [h, ih]
    simp

theorem mem_star_oneOf {members x : List α} :
    x ∈ (star (oneOf members)).matches' ↔ ∀ c ∈ x, c ∈ members := by
  rw [matches'_star, Language.mem_kstar]
  constructor
  · rintro ⟨parts, rfl, hparts⟩ c hc
    obtain ⟨y, hy, hcy⟩ := List.mem_flatten.mp hc
    obtain ⟨d, hd, rfl⟩ := mem_oneOf.mp (hparts y hy)
    exact List.mem_singleton.mp hcy ▸ hd
  · intro h
    refine ⟨x.map fun c => [c], by rw [← List.flatMap_def, List.flatMap_singleton'], ?_⟩
    intro y hy
    obtain ⟨c, hc, rfl⟩ := List.mem_map.mp hy
    exact mem_oneOf.mpr ⟨c, h c hc, rfl⟩

/-! ## Syntax -/

/-- Where the reader of a pattern stands: behind a backslash, or in brackets behind
`raw`, which is in reverse. -/
inductive Mode where
  | plain
  | escape
  | bracket (raw : List UInt8)

/-- The bytes a bracket expression stands for. A backslash has no meaning there, and
neither has a hyphen at the end. -/
def bracketMembers : List UInt8 → List UInt8
  | lo :: 45 :: hi :: rest =>
    (List.range (hi.toNat + 1 - lo.toNat)).map (fun k => UInt8.ofNat (lo.toNat + k)) ++
      bracketMembers rest
  | c :: rest => c :: bracketMembers rest
  | [] => []

/-- The bytes `. + ? { | ^ $`. -/
def unread : List UInt8 := [46, 43, 63, 123, 124, 94, 36]

/-- `items` are those of the innermost open group and `groups` those around it, all in
reverse. The operators `unread` are not read. -/
def regcompFrom : Mode → List (List (RegularExpression UInt8)) → List (RegularExpression UInt8) →
    List UInt8 → Option (RegularExpression UInt8)
  | .plain, [], items, [] => some items.reverse.prod
  | .plain, groups, items, c :: rest =>
    if c = 92 then regcompFrom .escape groups items rest
    else if c = 91 then regcompFrom (.bracket []) groups items rest
    else if c = 40 then regcompFrom .plain (items :: groups) [] rest
    else if c = 41 then
      match groups with
      | [] => none
      | outer :: groups => regcompFrom .plain groups (items.reverse.prod :: outer) rest
    else if c = 42 then
      match items with
      | [] => none
      | item :: items => regcompFrom .plain groups (item.star :: items) rest
    else if c ∈ unread then none
    else regcompFrom .plain groups (char c :: items) rest
  | .escape, groups, items, c :: rest => regcompFrom .plain groups (char c :: items) rest
  | .bracket raw, groups, items, c :: rest =>
    if c = 93 then regcompFrom .plain groups (oneOf (bracketMembers raw.reverse) :: items) rest
    else regcompFrom (.bracket (c :: raw)) groups items rest
  | _, _, _, [] => none

/-- `regcomp` with `REG_EXTENDED`, for the syntax above. -/
def regcomp (pattern : List UInt8) : Option (Pattern UInt8) :=
  let atStart := pattern.head? == some 94
  let pattern := if atStart then pattern.tail else pattern
  let atEnd := pattern.getLast? == some 36
  let pattern := if atEnd then pattern.dropLast else pattern
  (regcompFrom .plain [] [] pattern).map fun body => ⟨atStart, body, atEnd⟩

end Regex
