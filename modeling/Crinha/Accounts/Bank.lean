import Mathlib.Algebra.BigOperators.Group.List.Basic
import Mathlib.Data.List.Infix
import Mathlib.Logic.Function.Basic

/-!
# Accounts with a floor

* `Account`: a history that was never below its floor;
* `Bank.post_update`: the bank after an entry that it allows.
-/

namespace Accounts

variable {K G α : Type}

/-- A signed amount, and what else is kept of it. -/
structure Entry (G α : Type) where
  amount : G
  note : α
  deriving DecidableEq

section
variable [AddMonoid G]

def balanceOf (entries : List (Entry G α)) : G := (entries.map Entry.amount).sum

@[simp] theorem balanceOf_nil : balanceOf ([] : List (Entry G α)) = 0 := rfl

@[simp] theorem balanceOf_cons (e : Entry G α) (l : List (Entry G α)) :
    balanceOf (e :: l) = e.amount + balanceOf l := List.sum_cons

end

variable [AddMonoid G] [LE G]

/-- The latest entry first. -/
structure Account (G α : Type) [AddMonoid G] [LE G] where
  floor : G
  entries : List (Entry G α)
  solvent : ∀ l, l <:+ entries → floor ≤ balanceOf l

namespace Account

def balance (a : Account G α) : G := balanceOf a.entries

def Allows (a : Account G α) (e : Entry G α) : Prop := a.floor ≤ e.amount + a.balance

instance [DecidableLE G] (a : Account G α) (e : Entry G α) : Decidable (a.Allows e) :=
  inferInstanceAs (Decidable (a.floor ≤ _))

/-- An account without entries. -/
def opened (floor : G) (h : floor ≤ 0) : Account G α where
  floor := floor
  entries := []
  solvent := fun _ hl => by rwa [List.suffix_nil.mp hl]

def post (a : Account G α) (e : Entry G α) (h : a.Allows e) : Account G α where
  floor := a.floor
  entries := e :: a.entries
  solvent := fun l hl => by
    rcases List.suffix_cons_iff.mp hl with rfl | hl
    · rw [balanceOf_cons]
      exact h
    · exact a.solvent l hl

@[simp] theorem post_balance (a : Account G α) (e : Entry G α) (h : a.Allows e) :
    (a.post e h).balance = e.amount + a.balance := balanceOf_cons _ _

end Account

abbrev Bank (K G α : Type) [AddMonoid G] [LE G] := K → Option (Account G α)

inductive Order (K G α : Type) where
  | post (k : K) (e : Entry G α)
  | statement (k : K)

inductive Outcome (G α : Type) where
  | unknown
  | refused
  | posted (floor balance : G)
  | statement (floor balance : G) (latest : List (Entry G α))

namespace Bank
variable [DecidableEq K] [DecidableLE G] {b b' : Bank K G α} {k : K} {e : Entry G α}

def post (b : Bank K G α) (k : K) (e : Entry G α) : Option (Bank K G α) :=
  (b k).bind fun a =>
    if h : a.Allows e then some (Function.update b k (some (a.post e h))) else none

/-- A statement shows the latest `n` entries. -/
def serve (n : Nat) (b : Bank K G α) : Order K G α → Bank K G α × Outcome G α
  | .post k e =>
    match b k with
    | none => (b, .unknown)
    | some a =>
      match b.post k e with
      | none => (b, .refused)
      | some b' => (b', .posted a.floor (e.amount + a.balance))
  | .statement k =>
    match b k with
    | none => (b, .unknown)
    | some a => (b, .statement a.floor a.balance (a.entries.take n))

theorem post_update {a : Account G α} (hk : b k = some a) (h : a.Allows e) :
    b.post k e = some (Function.update b k (some (a.post e h))) := by
  rw [post, hk, Option.bind_some, dif_pos h]

theorem post_eq_none {a : Account G α} (hk : b k = some a) (h : ¬a.Allows e) :
    b.post k e = none := by
  rw [post, hk, Option.bind_some, dif_neg h]

section
variable {n : Nat} {a : Account G α}

theorem serve_post_unknown (hk : b k = none) : b.serve n (.post k e) = (b, .unknown) := by
  simp only [serve, hk]

theorem serve_refused (hk : b k = some a) (h : ¬a.Allows e) :
    b.serve n (.post k e) = (b, .refused) := by
  simp only [serve, hk, post_eq_none hk h]

theorem serve_posted (hk : b k = some a) (h : b.post k e = some b') :
    b.serve n (.post k e) = (b', .posted a.floor (e.amount + a.balance)) := by
  simp only [serve, hk, h]

theorem serve_statement_unknown (hk : b k = none) : b.serve n (.statement k) = (b, .unknown) := by
  simp only [serve, hk]

theorem serve_statement (hk : b k = some a) :
    b.serve n (.statement k) = (b, .statement a.floor a.balance (a.entries.take n)) := by
  simp only [serve, hk]

end

end Bank

end Accounts
