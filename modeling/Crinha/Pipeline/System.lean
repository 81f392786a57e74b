import Mathlib.Logic.Function.Basic
import Crinha.Pipeline.Program

/-!
# Clients that pipeline their writes to one store

A read waits until the client's earlier writes have been executed; a write is sent without
waiting, and the store executes it later, at any time.
-/

namespace Pipeline

/-- `run t c d` executes the write `c` at time `t`: the new state, or `none` when
the write is rejected and leaves no effect. `tick` says when `t` is possible. -/
structure Store (D Q R C T : Type) where
  answer : D → Q → R
  run : T → C → D → Option D
  tick : D → T → Prop

structure Job (Q R C A J : Type) where
  id : Nat
  req : J
  prog : Prog Q R C A

structure Client (Q R C A J : Type) where
  job : Option (Job Q R C A J)
  inFlight : List (Nat × C)

structure State (P D Q R C A J : Type) where
  store : D
  client : P → Client Q R C A J
  next : Nat

inductive Deed (D Q R C A J : Type) where
  | accept (j : J)
  | read (q : Q) (r : R)
  | sent (c : C)
  | exec (c : C) (d : Option D)
  | answer (a : A)

/-- One step of a run: what happened, for request `id` of client `proc`. -/
structure Label (P D Q R C A J : Type) where
  proc : P
  id : Nat
  deed : Deed D Q R C A J

section
variable {P D Q R C A J T : Type}

def State.start (d : D) : State P D Q R C A J := ⟨d, fun _ => ⟨none, []⟩, 0⟩

variable [DecidableEq P]

def State.setClient (s : State P D Q R C A J) (p : P) (c : Client Q R C A J) :
    State P D Q R C A J :=
  { s with client := Function.update s.client p c }

@[simp] theorem setClient_store (s : State P D Q R C A J) (p : P) (c : Client Q R C A J) :
    (s.setClient p c).store = s.store := rfl

@[simp] theorem setClient_next (s : State P D Q R C A J) (p : P) (c : Client Q R C A J) :
    (s.setClient p c).next = s.next := rfl

@[simp] theorem setClient_client (s : State P D Q R C A J) (p : P) (c : Client Q R C A J) :
    (s.setClient p c).client = Function.update s.client p c := rfl

/-- Reads and sends wait for the connection to drain (`drained`; see `connRun_iff`); nothing else
orders the store's execution of a write against the clients' steps. -/
inductive Step (S : Store D Q R C T) (handler : J → Prog Q R C A) :
    State P D Q R C A J → Label P D Q R C A J → State P D Q R C A J → Prop where
  | accept {s p} (j : J) (idle : (s.client p).job = none) :
      Step S handler s ⟨p, s.next, .accept j⟩
        { s.setClient p { s.client p with job := some ⟨s.next, j, handler j⟩ } with
          next := s.next + 1 }
  | read {s p n j q k} (running : (s.client p).job = some ⟨n, j, .query q k⟩)
      (drained : (s.client p).inFlight = []) :
      Step S handler s ⟨p, n, .read q (S.answer s.store q)⟩
        (s.setClient p { s.client p with job := some ⟨n, j, k (S.answer s.store q)⟩ })
  | send {s p n j c k} (running : (s.client p).job = some ⟨n, j, .send c k⟩)
      (drained : (s.client p).inFlight = []) :
      Step S handler s ⟨p, n, .sent c⟩
        (s.setClient p ⟨some ⟨n, j, k true⟩, (s.client p).inFlight ++ [(n, c)]⟩)
  | exec {s p n c rest} (t : T) (pending : (s.client p).inFlight = (n, c) :: rest)
      (tick : S.tick s.store t) :
      Step S handler s ⟨p, n, .exec c (S.run t c s.store)⟩
        { s.setClient p { s.client p with inFlight := rest } with
          store := (S.run t c s.store).getD s.store }
  | answer {s p n j a} (running : (s.client p).job = some ⟨n, j, .done a⟩) :
      Step S handler s ⟨p, n, .answer a⟩ (s.setClient p { s.client p with job := none })

inductive Run (S : Store D Q R C T) (handler : J → Prog Q R C A) (s₀ : State P D Q R C A J) :
    List (Label P D Q R C A J) → State P D Q R C A J → Prop where
  | start : Run S handler s₀ [] s₀
  | next {tr s l t} : Run S handler s₀ tr s → Step S handler s l t →
      Run S handler s₀ (tr ++ [l]) t

variable {S : Store D Q R C T} {handler : J → Prog Q R C A} {s₀ s t : State P D Q R C A J}
  {tr : List (Label P D Q R C A J)}

theorem run_nil (h : Run S handler s₀ [] s) : s = s₀ := by
  generalize e : ([] : List (Label P D Q R C A J)) = tr at h
  cases h with
  | start => rfl
  | next => simp at e

theorem Run.split {a : List (Label P D Q R C A J)} (l : Label P D Q R C A J) :
    ∀ {b : List (Label P D Q R C A J)} {s : State P D Q R C A J},
      Run S handler s₀ (a ++ l :: b) s →
        ∃ s₁ s₂, Run S handler s₀ a s₁ ∧ Step S handler s₁ l s₂ ∧ Run S handler s₂ b s := by
  intro b s h
  generalize e : a ++ l :: b = tr at h
  induction h generalizing b with
  | start => simp at e
  | @next tr s m t hr hs ih =>
    rcases List.eq_nil_or_concat b with rfl | ⟨b', m', rfl⟩
    · have e' : a ++ [l] = tr ++ [m] := e
      obtain ⟨rfl, hm⟩ := List.append_inj' e' rfl
      obtain rfl : l = m := by simpa using hm
      exact ⟨s, t, hr, hs, .start⟩
    · have e' : (a ++ l :: b') ++ [m'] = tr ++ [m] := by simpa using e
      obtain ⟨rfl, hm⟩ := List.append_inj' e' rfl
      obtain rfl : m' = m := by simpa using hm
      obtain ⟨s₁, s₂, h₁, h₂, h₃⟩ := ih rfl
      exact ⟨s₁, s₂, h₁, h₂, by simpa using h₃.next hs⟩

theorem Run.head {l : Label P D Q R C A J} (h : Run S handler s₀ (l :: tr) s) :
    ∃ s₁, Step S handler s₀ l s₁ ∧ Run S handler s₁ tr s := by
  obtain ⟨_, s₁, h₀, hs, hr⟩ := Run.split (a := []) l h
  rw [run_nil h₀] at hs
  exact ⟨s₁, hs, hr⟩

theorem Run.append {a b : List (Label P D Q R C A J)} (ha : Run S handler s₀ a s)
    (hb : Run S handler s b t) : Run S handler s₀ (a ++ b) t := by
  induction hb with
  | start => simpa using ha
  | next _ hs ih => simpa using ih.next hs

/-- A step touches only the client it is a step of. -/
theorem Step.other {l : Label P D Q R C A J} (h : Step S handler s l t) {p : P}
    (hp : p ≠ l.proc) : t.client p = s.client p := by
  cases h <;> simp [Function.update_of_ne hp]

/-! ## What is in flight -/

def Deed.sent? : Deed D Q R C A J → Option C
  | .sent c => some c
  | _ => none

def Deed.exec? : Deed D Q R C A J → Option C
  | .exec c _ => some c
  | _ => none

/-- The writes client `p` sent, in order. -/
def sendsBy (tr : List (Label P D Q R C A J)) (p : P) : List (Nat × C) :=
  tr.filterMap fun l => if l.proc = p then l.deed.sent?.map (l.id, ·) else none

/-- The writes of client `p` that the store executed, in order. -/
def execsBy (tr : List (Label P D Q R C A J)) (p : P) : List (Nat × C) :=
  tr.filterMap fun l => if l.proc = p then l.deed.exec?.map (l.id, ·) else none

theorem sendsBy_snoc (tr : List (Label P D Q R C A J)) (l : Label P D Q R C A J) (p : P) :
    sendsBy (tr ++ [l]) p =
      sendsBy tr p ++ if l.proc = p then (l.deed.sent?.map (l.id, ·)).toList else [] := by
  by_cases hp : l.proc = p <;> cases h : l.deed.sent? <;> simp [sendsBy, hp, h]

theorem execsBy_snoc (tr : List (Label P D Q R C A J)) (l : Label P D Q R C A J) (p : P) :
    execsBy (tr ++ [l]) p =
      execsBy tr p ++ if l.proc = p then (l.deed.exec?.map (l.id, ·)).toList else [] := by
  by_cases hp : l.proc = p <;> cases h : l.deed.exec? <;> simp [execsBy, hp, h]

/-- A connection executes its client's writes in the order they were sent, each
one once: what was sent is what was executed and then what is in flight. -/
theorem sends_fifo {d : D} (h : Run S handler (.start d) tr s) (p : P) :
    sendsBy tr p = execsBy tr p ++ (s.client p).inFlight := by
  induction h with
  | start => rfl
  | @next tr s l t _ hs ih =>
    rw [sendsBy_snoc, execsBy_snoc, ih]
    by_cases hp : l.proc = p
    · subst hp
      cases hs with
      | accept | read | answer => simp [Deed.sent?, Deed.exec?]
      | send _ drained => simp [Deed.sent?, Deed.exec?, drained]
      | exec _ pending => simp [Deed.sent?, Deed.exec?, pending]
    · simp [hp, hs.other (Ne.symm hp)]

theorem inFlight_le_one {d : D} (h : Run S handler (.start d) tr s) (p : P) :
    (s.client p).inFlight.length ≤ 1 := by
  induction h with
  | start => exact Nat.zero_le _
  | @next tr s l t _ hs ih =>
    by_cases hp : l.proc = p
    · subst hp
      cases hs with
      | accept | read | answer => simpa using ih
      | send _ drained => simp [drained]
      | exec _ pending =>
        simp only [pending, List.length_cons] at ih
        simp only [setClient_client, Function.update_self]
        omega
    · rwa [hs.other (Ne.symm hp)]

end

end Pipeline
