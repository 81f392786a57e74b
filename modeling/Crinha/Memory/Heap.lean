import Mathlib.Algebra.BigOperators.Group.List.Basic
import Mathlib.Data.Finmap
import Mathlib.Order.Lattice.Nat
import Crinha.Pipeline.Program

/-!
# A heap of blocks

A heap maps the addresses of the live blocks to their cells. An `Assertion` is about a part
of it, and `P * Q` about two that do not meet.
-/

namespace Memory
open Pipeline

/-- `0` is `NULL`. -/
abbrev Ptr := Nat

/-- A cell holds nothing until it is first written. -/
abbrev Heap (V : Type) := Finmap fun _ : Ptr => List (Option V)

/-- Memory never runs out. -/
structure Allocator (V : Type) where
  fresh : Heap V → Ptr
  ne_null : ∀ h, fresh h ≠ 0
  not_mem : ∀ h, fresh h ∉ h

variable {V Q R C A B : Type}

/-- Allocates after the last live block. -/
def Allocator.after : Allocator V where
  fresh := fun h => h.keys.sup id + 1
  ne_null := fun _ => Nat.succ_ne_zero _
  not_mem := fun h hm => by
    have hle : h.keys.sup id + 1 ≤ h.keys.sup id :=
      Finset.le_sup (f := id) (Finmap.mem_keys.mpr hm)
    exact absurd hle (Nat.not_succ_le_self _)

theorem prog_bind_assoc {X : Type} {f : A → Prog Q R C B} {g : B → Prog Q R C X} :
    ∀ p : Prog Q R C A, (p >>= f) >>= g = p >>= fun a => f a >>= g
  | .done _ => rfl
  | .halt => rfl
  | .query q k => congrArg (Prog.query q) (funext fun r => prog_bind_assoc (k r))
  | .send c k => congrArg (Prog.send c) (funext fun b => prog_bind_assoc (k b))

theorem prog_bind_pure : ∀ p : Prog Q R C A, p >>= pure = p
  | .done _ => rfl
  | .halt => rfl
  | .query q k => congrArg (Prog.query q) (funext fun r => prog_bind_pure (k r))
  | .send c k => congrArg (Prog.send c) (funext fun b => prog_bind_pure (k b))

instance : LawfulMonad (Prog Q R C) :=
  .mk' _ (fun p => prog_bind_pure p) (fun _ _ => rfl) (fun p _ _ => prog_bind_assoc p)

/-- Programs with a heap. -/
abbrev Mem (V Q R C : Type) := StateT (Heap V) (Prog Q R C)

def malloc (al : Allocator V) (n : Nat) : Mem V Q R C Ptr := fun h =>
  .done (al.fresh h, h.insert (al.fresh h) (List.replicate n none))

def free (p : Ptr) : Mem V Q R C Unit := fun h =>
  if p = 0 then .done ((), h)
  else if p ∈ h then .done ((), h.erase p)
  else .halt

/-- The cells at `p`, which is not `NULL`. -/
def cells (h : Heap V) (p : Ptr) : Option (List (Option V)) :=
  if p = 0 then none else h.lookup p

def load (p : Ptr) (i : Nat) : Mem V Q R C V := fun h =>
  match (cells h p).bind (·[i]?) with
  | some (some v) => .done (v, h)
  | _ => .halt

def store (p : Ptr) (i : Nat) (v : V) : Mem V Q R C Unit := fun h =>
  match cells h p with
  | some b => if i < b.length then .done ((), h.insert p (b.set i (some v))) else .halt
  | none => .halt

/-- A crash of the program's own. -/
def crash : Mem V Q R C A := fun _ => .halt

/-- A cell used as an `A`. -/
def loadAs (of : V → Option A) (p : Ptr) (i : Nat) : Mem V Q R C A := do
  match of (← load p i) with
  | some a => pure a
  | none => crash

theorem loadAs_done {of : V → Option A} {p : Ptr} {i : Nat} {v : V} {a : A} {h : Heap V}
    (hl : (load p i : Mem V Q R C V) h = .done (v, h)) (hv : of v = some a) :
    (loadAs of p i : Mem V Q R C A) h = .done (a, h) := by
  simp only [loadAs, bind, StateT.bind, hl, Prog.bind, hv]
  rfl

/-- Cells written one after another. -/
def storeAll (p : Ptr) : Nat → List V → Mem V Q R C Unit
  | _, [] => pure ()
  | i, v :: vs => do
    store p i v
    storeAll p (i + 1) vs

/-- `for (j = i; j < i + n; j++) body(j)`. -/
def loop (body : Nat → Mem V Q R C Unit) : Nat → Nat → Mem V Q R C Unit
  | _, 0 => pure ()
  | i, n + 1 => do
    body i
    loop body (i + 1) n

/-- The read of a store outside the heap. -/
def ask (q : Q) : Mem V Q R C R := fun h => .query q fun r => .done (r, h)

def submit (c : C) : Mem V Q R C Bool := fun h => .send c fun b => .done (b, h)

/-! ## Assertions -/

def Assertion (V : Type) := Heap V → Prop

namespace Assertion

@[ext] theorem ext {P P' : Assertion V} (h : ∀ m, P m ↔ P' m) : P = P' :=
  funext fun m => propext (h m)

/-- Two disjoint parts. -/
def sep (P P' : Assertion V) : Assertion V := fun h =>
  ∃ h₁ h₂, h₁.Disjoint h₂ ∧ h = h₁ ∪ h₂ ∧ P h₁ ∧ P' h₂

instance : Mul (Assertion V) := ⟨sep⟩

instance : One (Assertion V) := ⟨fun h => h = ∅⟩

theorem sep_comm {P P' : Assertion V} {h : Heap V} : (P * P') h → (P' * P) h := by
  rintro ⟨h₁, h₂, hd, rfl, hp, hp'⟩
  exact ⟨h₂, h₁, hd.symm, Finmap.union_comm_of_disjoint hd, hp', hp⟩

theorem sep_assoc {P P' P'' : Assertion V} {h : Heap V} :
    (P * P' * P'') h → (P * (P' * P'')) h := by
  rintro ⟨_, h₃, hd, rfl, ⟨h₁, h₂, hd', rfl, hp, hp'⟩, hp''⟩
  obtain ⟨hd₁, hd₂⟩ := (Finmap.disjoint_union_left _ _ _).mp hd
  exact ⟨h₁, h₂ ∪ h₃, (Finmap.disjoint_union_right _ _ _).mpr ⟨hd', hd₁⟩,
    Finmap.union_assoc, hp, h₂, h₃, hd₂, rfl, hp', hp''⟩

instance : CommMonoid (Assertion V) where
  mul_assoc P P' P'' := by
    ext h
    constructor
    · exact sep_assoc
    · intro hm
      have hr : (P'' * P' * P) h := by
        obtain ⟨h₁, h₂, hd, rfl, hp, hr⟩ := sep_comm hm
        exact ⟨h₁, h₂, hd, rfl, sep_comm hp, hr⟩
      obtain ⟨h₁, h₂, hd, rfl, hp, hr⟩ := sep_comm (sep_assoc hr)
      exact ⟨h₁, h₂, hd, rfl, sep_comm hp, hr⟩
  one_mul P := by
    ext h
    constructor
    · rintro ⟨h₁, h₂, _, rfl, rfl, hp⟩
      rwa [Finmap.empty_union]
    · intro hp
      exact ⟨∅, h, Finmap.disjoint_empty h, Finmap.empty_union.symm, rfl, hp⟩
  mul_one P := by
    ext h
    constructor
    · rintro ⟨h₁, h₂, _, rfl, hp, rfl⟩
      rwa [Finmap.union_empty]
    · intro hp
      exact ⟨h, ∅, (Finmap.disjoint_empty h).symm, Finmap.union_empty.symm, hp, rfl⟩
  mul_comm P P' := by
    ext h
    exact ⟨sep_comm, sep_comm⟩

theorem sep_left_comm {P P' P'' : Assertion V} {h : Heap V} (hm : (P * (P' * P'')) h) :
    (P' * (P * P'')) h := by
  rwa [mul_left_comm]

theorem sep_mono {P P' F : Assertion V} {h : Heap V} (hp : ∀ h, P h → P' h) :
    (P * F) h → (P' * F) h := by
  rintro ⟨h₁, h₂, hd, rfl, hP, hF⟩
  exact ⟨h₁, h₂, hd, rfl, hp h₁ hP, hF⟩

/-- A fact that owns nothing. -/
def fact (φ : Prop) : Assertion V := fun h => φ ∧ h = ∅

/-- For some `x`. -/
def ex {X : Type} (P : X → Assertion V) : Assertion V := fun h => ∃ x, P x h

theorem fact_mul {φ : Prop} {P : Assertion V} {h : Heap V} :
    (fact φ * P : Assertion V) h ↔ φ ∧ P h := by
  constructor
  · rintro ⟨h₁, h₂, _, rfl, ⟨hφ, rfl⟩, hp⟩
    exact ⟨hφ, by rwa [Finmap.empty_union]⟩
  · rintro ⟨hφ, hp⟩
    exact ⟨∅, h, Finmap.disjoint_empty h, Finmap.empty_union.symm, ⟨hφ, rfl⟩, hp⟩

theorem fact_true {φ : Prop} (h : φ) : (fact φ : Assertion V) = 1 := by
  ext m
  exact ⟨fun hm => hm.2, fun hm => ⟨h, hm⟩⟩

theorem ex_mul {X : Type} {P : X → Assertion V} {F : Assertion V} :
    ex P * F = ex fun x => P x * F := by
  ext h
  constructor
  · rintro ⟨h₁, h₂, hd, rfl, ⟨x, hp⟩, hf⟩
    exact ⟨x, h₁, h₂, hd, rfl, hp, hf⟩
  · rintro ⟨x, h₁, h₂, hd, rfl, hp, hf⟩
    exact ⟨h₁, h₂, hd, rfl, ⟨x, hp⟩, hf⟩

/-- One part for each pair of two lists of one length. -/
def each {X Y : Type} (P : X → Y → Assertion V) : List X → List Y → Assertion V
  | [], [] => 1
  | x :: xs, y :: ys => P x y * each P xs ys
  | _, _ => fact False

theorem each_length {X Y : Type} {P : X → Y → Assertion V} :
    ∀ {xs : List X} {ys : List Y} {h : Heap V}, each P xs ys h → xs.length = ys.length
  | [], [], _, _ => rfl
  | _ :: _, _ :: _, _, ⟨_, _, _, _, _, h⟩ => congrArg (· + 1) (each_length h)
  | [], _ :: _, _, ⟨h, _⟩ => h.elim
  | _ :: _, [], _, ⟨h, _⟩ => h.elim

theorem each_append {X Y : Type} {P : X → Y → Assertion V} :
    ∀ {xs xs' : List X} {ys ys' : List Y}, xs.length = ys.length →
      each P (xs ++ xs') (ys ++ ys') = each P xs ys * each P xs' ys'
  | [], _, [], _, _ => (one_mul _).symm
  | x :: xs, xs', y :: ys, ys', h => by
    simp only [List.cons_append, each, each_append (Nat.succ.inj h), mul_assoc]

/-- `NULL`, or a pointer to a part for `y`. -/
def orNull {Y : Type} (P : Ptr → Y → Assertion V) (p : Ptr) : Option Y → Assertion V
  | some y => P p y
  | none => fact (p = 0)

@[simp] theorem orNull_some {Y : Type} (P : Ptr → Y → Assertion V) (p : Ptr) (y : Y) :
    orNull P p (some y) = P p y := rfl

/-- Exactly one live block. -/
def block (p : Ptr) (b : List (Option V)) : Assertion V := fun h =>
  p ≠ 0 ∧ h = Finmap.singleton p b

end Assertion

/-! ## One block next to the rest -/

section
variable {p : Ptr} {b : List (Option V)} {f : Heap V}

theorem singleton_disjoint : (Finmap.singleton p b).Disjoint f ↔ p ∉ f := by
  simp [Finmap.Disjoint]

theorem block_lookup : (Finmap.singleton p b ∪ f).lookup p = some b := by
  rw [Finmap.lookup_union_left (by simp), Finmap.lookup_singleton_eq]

theorem block_cells (hp : p ≠ 0) : cells (Finmap.singleton p b ∪ f) p = some b := by
  rw [cells, if_neg hp, block_lookup]

theorem block_insert (b' : List (Option V)) :
    (Finmap.singleton p b ∪ f).insert p b' = Finmap.singleton p b' ∪ f := by
  rw [Finmap.insert_union, Finmap.insert_singleton_eq]

theorem insert_eq_union (b : List (Option V)) :
    f.insert p b = Finmap.singleton p b ∪ f := by
  apply Finmap.ext_lookup
  intro q
  by_cases hq : q = p
  · subst hq
    rw [Finmap.lookup_insert, block_lookup]
  · rw [Finmap.lookup_insert_of_ne _ hq, Finmap.lookup_union_right (by simpa using hq)]

theorem block_erase (h : p ∉ f) : (Finmap.singleton p b ∪ f).erase p = f := by
  apply Finmap.ext_lookup
  intro q
  by_cases hq : q = p
  · subst hq
    rw [Finmap.lookup_erase, Finmap.lookup_eq_none.mpr h]
  · rw [Finmap.lookup_erase_ne hq, Finmap.lookup_union_right (by simpa using hq)]

theorem split_block (h : f.lookup p = some b) : f = Finmap.singleton p b ∪ f.erase p := by
  apply Finmap.ext_lookup
  intro q
  by_cases hq : q = p
  · subst hq
    rw [block_lookup, h]
  · rw [Finmap.lookup_union_right (by simpa using hq), Finmap.lookup_erase_ne hq]

end

end Memory
