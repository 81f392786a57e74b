import Mathlib.Data.List.Induction
import Crinha.Pipeline.Accounting

/-!
# What the store went through

* `run_store_inv`: invariants of the store;
* `observe_commits`: what the committed writes, in order, make of it.
-/

namespace Pipeline

section
variable {P D Q R C A J T X : Type}

def Deed.commit? : Deed D Q R C A J → Option C
  | .exec c (some _) => some c
  | _ => none

/-- The committed writes of a trace with the requests they belong to, in order. -/
def commits (tr : List (Label P D Q R C A J)) : List (P × Nat × C) :=
  tr.filterMap fun l => l.deed.commit?.map fun c => (l.proc, l.id, c)

@[simp] theorem commits_nil : commits ([] : List (Label P D Q R C A J)) = [] := rfl

theorem commits_append (a b : List (Label P D Q R C A J)) :
    commits (a ++ b) = commits a ++ commits b :=
  List.filterMap_append

theorem commits_cons (l : Label P D Q R C A J) (tr : List (Label P D Q R C A J)) :
    commits (l :: tr) = (l.deed.commit?.map fun c => (l.proc, l.id, c)).toList ++ commits tr := by
  cases h : l.deed.commit? <;> simp [commits, h]

variable [DecidableEq P]

/-- The committed writes of request `n` of client `p`, in order. -/
def commitsOf (tr : List (Label P D Q R C A J)) (p : P) (n : Nat) : List C :=
  (commits tr).filterMap fun e => if e.1 = p ∧ e.2.1 = n then some e.2.2 else none

/-- The commits of a request are its executions that succeeded. -/
theorem commitsOf_eq (tr : List (Label P D Q R C A J)) (p : P) (n : Nat) :
    commitsOf tr p n = (execsOf tr p n).filterMap fun e => e.2.map fun _ => e.1 := by
  simp only [commitsOf, commits, execsOf, List.filterMap_filterMap]
  congr 1
  funext l
  obtain ⟨q, m, deed⟩ := l
  by_cases hp : q = p <;> by_cases hn : m = n <;> rcases deed with _ | _ | _ | ⟨_, _ | _⟩ | _ <;>
    simp [hp, hn, Deed.commit?, Deed.outcome?]

variable {S : Store D Q R C T} {handler : J → Prog Q R C A} {s₀ s t : State P D Q R C A J}
  {l : Label P D Q R C A J} {tr : List (Label P D Q R C A J)}

/-- Only a commit changes the store. -/
theorem Step.store_cases (h : Step S handler s l t) :
    l.deed.commit? = none ∧ t.store = s.store ∨
    ∃ n c rest τ, (s.client l.proc).inFlight = (n, c) :: rest ∧ l.deed.commit? = some c ∧
      S.run τ c s.store = some t.store := by
  cases h with
  | accept | read | send | answer => exact .inl ⟨rfl, rfl⟩
  | @exec p n c rest τ pending _ =>
    cases hr : S.run τ c s.store with
    | none => exact .inl ⟨rfl, rfl⟩
    | some d => exact .inr ⟨n, c, rest, τ, pending, rfl, hr⟩

/-- If every write acts on an observation of the store in one way wherever it
commits, the observation is what the committed writes make of it. -/
theorem observe_commits (f : D → X) (act : X → C → X)
    (hact : ∀ {τ c d d'}, S.run τ c d = some d' → f d' = act (f d) c)
    (h : Run S handler s₀ tr s) :
    f s.store = (commits tr).foldl (fun x e => act x e.2.2) (f s₀.store) := by
  induction h with
  | start => rfl
  | next _ hs ih =>
    rw [commits_append, List.foldl_append, ← ih, commits_cons]
    rcases hs.store_cases with ⟨hc, hd⟩ | ⟨_, c, _, _, _, hc, hr⟩
    · simp [hc, hd]
    · simp [hc, hact hr]

variable {pre : J → List (Act Q R C) → Prop} {post : J → List (Act Q R C) → A → Prop}

/-- Every write in flight is one a program was allowed to send. -/
theorem Track.allowed (h : Track pre post tr s) {p : P} {n : Nat} {c : C}
    (hc : (n, c) ∈ (s.client p).inFlight) : ∃ j past, pre j (past ++ [.sent c]) := by
  obtain ⟨past, rest, he⟩ := List.append_of_mem (sent_mem_actsOf.mpr (h.pending hc))
  obtain ⟨j, _, hpre⟩ := h.sent he
  exact ⟨j, past, hpre⟩

/-- **Invariants of the store.** What holds at first and is kept by every write
that a program may send holds in every state of every run. -/
theorem run_store_inv (hh : ∀ j, (handler j).Meets (pre j) (post j) []) {inv : D → Prop} {d₀ : D}
    (h₀ : inv d₀) (keep : ∀ {j past c τ d d'}, pre j (past ++ [.sent c]) → inv d →
      S.run τ c d = some d' → inv d')
    (h : Run S handler (.start d₀) tr s) : inv s.store := by
  induction h with
  | start => exact h₀
  | next hr hs ih =>
    rcases hs.store_cases with ⟨_, hd⟩ | ⟨n, c, rest, τ, pending, _, hrun⟩
    · rwa [hd]
    · obtain ⟨j, past, hpre⟩ := (run_track hh hr).allowed
        (by rw [pending]; exact List.mem_cons_self)
      exact keep hpre ih hrun

/-! ## After an answer -/

theorem acts_after_answer (hh : ∀ j, (handler j).Meets (pre j) (post j) []) {d : D}
    {a : List (Label P D Q R C A J)} {p : P} {n : Nat} {x : A} (ha : ⟨p, n, .answer x⟩ ∈ a) :
    ∀ {b : List (Label P D Q R C A J)} {s : State P D Q R C A J},
      Run S handler (.start d) (a ++ b) s → actsOf (a ++ b) p n = actsOf a p n := by
  intro b
  induction b using List.reverseRecOn with
  | nil => simp
  | append_singleton b l ih =>
    intro s h
    obtain ⟨s₁, s₂, hr, hs, _⟩ := Run.split (a := a ++ b) (b := []) l (by simpa using h)
    rw [← List.append_assoc,
      (run_track hh hr).acts_of_answered hs (List.mem_append_left _ ha), ih hr]

theorem execsOf_append (a b : List (Label P D Q R C A J)) (p : P) (n : Nat) :
    execsOf (a ++ b) p n = execsOf a p n ++ execsOf b p n :=
  List.filterMap_append

/-- What a request sent before its connection drained is not executed later. -/
theorem execsOf_after {d : D} {a b : List (Label P D Q R C A J)} {s₁ : State P D Q R C A J}
    (h₁ : Run S handler (.start d) a s₁) (h : Run S handler (.start d) (a ++ b) s) {p : P} {n : Nat}
    (drained : (s₁.client p).inFlight = [])
    (same : (actsOf (a ++ b) p n).filterMap Act.sent? = (actsOf a p n).filterMap Act.sent?) :
    execsOf b p n = [] := by
  have hin := (execsOf_in_order h p n).length_le
  rw [same, ← execsOf_drained h₁ n drained, execsOf_append] at hin
  simp only [List.map_append, List.length_append, List.length_map] at hin
  exact List.eq_nil_of_length_eq_zero (by omega)

theorem Step.exec_inv {p : P} {n : Nat} {c : C} {o : Option D}
    (h : Step S handler s ⟨p, n, .exec c o⟩ t) :
    ∃ τ, o = S.run τ c s.store ∧ t.store = o.getD s.store := by
  cases h with
  | exec τ => exact ⟨τ, rfl, rfl⟩

theorem Step.read_inv {p : P} {n : Nat} {q : Q} {r : R} (h : Step S handler s ⟨p, n, .read q r⟩ t) :
    r = S.answer s.store q ∧ t.store = s.store := by
  cases h with
  | read => exact ⟨rfl, rfl⟩

theorem Step.drained (h : Step S handler s l t) (ha : l.deed.act? ≠ none) :
    (s.client l.proc).inFlight = [] := by
  cases h with
  | read _ drained | send _ drained => exact drained
  | accept | exec | answer => exact absurd rfl ha

/-- **A client's next read or write waits for its earlier writes**: what the store
ever executes of an answered request, it has executed by then. -/
theorem executed_before (hh : ∀ j, (handler j).Meets (pre j) (post j) []) {d : D}
    {a b : List (Label P D Q R C A J)} (h : Run S handler (.start d) (a ++ l :: b) s)
    (ha : l.deed.act? ≠ none) {n : Nat} {x : A} (answered : ⟨l.proc, n, .answer x⟩ ∈ a) {c : C}
    {o : Option D} (he : ⟨l.proc, n, .exec c o⟩ ∈ a ++ l :: b) : ⟨l.proc, n, .exec c o⟩ ∈ a := by
  obtain ⟨s₁, s₂, h₁, hs, _⟩ := h.split l
  have later : execsOf (l :: b) l.proc n = [] :=
    execsOf_after h₁ h (hs.drained ha) (by rw [acts_after_answer hh answered h])
  rcases List.mem_append.mp he with he | he
  · exact he
  · rw [← mem_execsOf, later] at he
    cases he

/-- An execution in a run is one of the store's, at a state the run went through. -/
theorem Run.exec_at {p : P} {n : Nat} {c : C} {o : Option D} (h : Run S handler s₀ tr s)
    (he : ⟨p, n, .exec c o⟩ ∈ tr) : ∃ a b s₁ τ, tr = a ++ ⟨p, n, .exec c o⟩ :: b ∧
      Run S handler s₀ a s₁ ∧ o = S.run τ c s₁.store := by
  obtain ⟨a, b, rfl⟩ := List.append_of_mem he
  obtain ⟨s₁, s₂, h₁, hs, _⟩ := h.split _
  obtain ⟨τ, ho, _⟩ := hs.exec_inv
  exact ⟨a, b, s₁, τ, rfl, h₁, ho⟩

end

end Pipeline
