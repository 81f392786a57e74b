import Crinha.Pipeline.Commits
import Crinha.Pipeline.Outcomes

/-!
# The path of a request, and its moments

* `run_paths`: an answered request has taken a path of its program;
* `Run.moment`: what it read, the store held between its accept and its answer.
-/

namespace Pipeline

section
variable {P D Q R C A J T : Type}

def Act.attempt : Act Q R C → Attempt Q R C
  | .asked q r => .asked q r
  | .sent c => .tried c true

/-- A read among the acts of a path. -/
theorem attempt_asked {acts : List (Act Q R C)} {q : Q} {r : R} {rest : List (Attempt Q R C)}
    (h : acts.map Act.attempt = .asked q r :: rest) :
    ∃ acts', acts = .asked q r :: acts' ∧ acts'.map Act.attempt = rest := by
  obtain ⟨act, acts', rfl, hact, hrest⟩ := List.map_eq_cons_iff.mp h
  cases act with
  | asked =>
    obtain ⟨rfl, rfl⟩ := Attempt.asked.inj hact
    exact ⟨acts', rfl, hrest⟩
  | sent => cases hact

theorem untaken_notMem (acts : List (Act Q R C)) (c : C) :
    .tried c false ∉ acts.map Act.attempt := by
  intro hm
  obtain ⟨act, _, hact⟩ := List.mem_map.mp hm
  cases act <;> cases hact

namespace Prog

variable {attempts : List (Attempt Q R C)} {result : Option A}

@[simp] theorem exec_done {a : A} :
    (done a : Prog Q R C A).Exec attempts result ↔ attempts = [] ∧ result = some a := by
  constructor
  · intro h
    cases h
    exact ⟨rfl, rfl⟩
  · rintro ⟨rfl, rfl⟩
    exact .done a

@[simp] theorem exec_halt :
    (halt : Prog Q R C A).Exec attempts result ↔ attempts = [] ∧ result = none := by
  constructor
  · intro h
    cases h
    exact ⟨rfl, rfl⟩
  · rintro ⟨rfl, rfl⟩
    exact .halt

theorem exec_query {q : Q} {k : R → Prog Q R C A} : (query q k).Exec attempts result ↔
    ∃ r rest, attempts = .asked q r :: rest ∧ (k r).Exec rest result := by
  constructor
  · intro h
    cases h with
    | query h => exact ⟨_, _, rfl, h⟩
  · rintro ⟨r, rest, rfl, h⟩
    exact .query h

theorem exec_send {c : C} {k : Bool → Prog Q R C A} : (send c k).Exec attempts result ↔
    ∃ taken rest, attempts = .tried c taken :: rest ∧ (k taken).Exec rest result := by
  constructor
  · intro h
    cases h with
    | send h => exact ⟨_, _, rfl, h⟩
  · rintro ⟨taken, rest, rfl, h⟩
    exact .send h

/-- After `past`, all that is left of the program `p` is `rest`. -/
def Leaves (p : Prog Q R C A) (past : List (Act Q R C)) (rest : Prog Q R C A) : Prop :=
  ∀ attempts result, rest.Exec attempts result → p.Exec (past.map Act.attempt ++ attempts) result

theorem Leaves.query {p : Prog Q R C A} {past : List (Act Q R C)} {q : Q} {k : R → Prog Q R C A}
    (h : p.Leaves past (.query q k)) (r : R) : p.Leaves (past ++ [.asked q r]) (k r) := by
  intro attempts result hx
  have hp := h _ _ (.query (r := r) hx)
  rwa [List.map_append, List.append_assoc]

theorem Leaves.send {p : Prog Q R C A} {past : List (Act Q R C)} {c : C}
    {k : Bool → Prog Q R C A} (h : p.Leaves past (.send c k)) :
    p.Leaves (past ++ [.sent c]) (k true) := by
  intro attempts result hx
  have hp := h (.tried c true :: attempts) result (.send hx)
  rwa [List.map_append, List.append_assoc]

theorem Leaves.done {p : Prog Q R C A} {past : List (Act Q R C)} {a : A}
    (h : p.Leaves past (.done a)) : p.Exec (past.map Act.attempt) (some a) := by
  have hp := h _ _ (.done a)
  rwa [List.append_nil] at hp

end Prog

variable [DecidableEq P] {S : Store D Q R C T} {handler : J → Prog Q R C A}
  {s t : State P D Q R C A J} {l : Label P D Q R C A J} {tr : List (Label P D Q R C A J)} {d : D}

/-! ## The path of each request -/

structure Paths (handler : J → Prog Q R C A) (tr : List (Label P D Q R C A J))
    (s : State P D Q R C A J) : Prop where
  running : ∀ {p n j prog}, (s.client p).job = some ⟨n, j, prog⟩ →
    (handler j).Leaves (actsOf tr p n) prog
  answered : ∀ {p n a}, ⟨p, n, .answer a⟩ ∈ tr → ∃ j, ⟨p, n, .accept j⟩ ∈ tr ∧
    (handler j).Exec ((actsOf tr p n).map Act.attempt) (some a)

/-- Every program meets what asks for nothing. -/
theorem run_known (h : Run S handler (.start d) tr s) :
    Track (fun _ _ => True) (fun _ _ _ => True) tr s :=
  run_track (fun j => Prog.Meets.of_true [] (handler j)) h

theorem Paths.running_step (h : Paths handler tr s)
    (known : Track (fun _ _ => True) (fun _ _ _ => True) tr s) (hs : Step S handler s l t) {p : P}
    {n : Nat} {j : J} {prog : Prog Q R C A} (hj : (t.client p).job = some ⟨n, j, prog⟩) :
    (handler j).Leaves (actsOf (tr ++ [l]) p n) prog := by
  by_cases hp : p = l.proc
  · subst hp
    cases hs with
    | accept j' idle =>
      simp only [setClient_client, Function.update_self, Option.some.injEq, Job.mk.injEq] at hj
      obtain ⟨rfl, rfl, rfl⟩ := hj
      intro attempts result hx
      rw [actsOf_snoc, actsOf_fresh known.ids]
      simpa [Deed.act?] using hx
    | read running _ =>
      have hleft := h.running running
      simp only [setClient_client, Function.update_self, Option.some.injEq, Job.mk.injEq] at hj
      obtain ⟨rfl, rfl, rfl⟩ := hj
      rw [actsOf_snoc, if_pos ⟨rfl, rfl⟩]
      exact hleft.query _
    | send running _ =>
      have hleft := h.running running
      simp only [setClient_client, Function.update_self, Option.some.injEq, Job.mk.injEq] at hj
      obtain ⟨rfl, rfl, rfl⟩ := hj
      rw [actsOf_snoc, if_pos ⟨rfl, rfl⟩]
      exact hleft.send
    | exec _ pending =>
      have hleft := h.running (by simpa using hj)
      simpa [actsOf_snoc, Deed.act?] using hleft
    | answer running => simp at hj
  · rw [hs.other hp] at hj
    have hleft := h.running hj
    simpa [actsOf_snoc, Ne.symm hp] using hleft

theorem Paths.answered_step (h : Paths handler tr s)
    (known : Track (fun _ _ => True) (fun _ _ _ => True) tr s) (hs : Step S handler s l t) {p : P}
    {n : Nat} {a : A} (ha : ⟨p, n, .answer a⟩ ∈ tr ++ [l]) : ∃ j, ⟨p, n, .accept j⟩ ∈ tr ++ [l] ∧
      (handler j).Exec ((actsOf (tr ++ [l]) p n).map Act.attempt) (some a) := by
  rcases List.mem_append.mp ha with ha | ha
  · obtain ⟨j, hj, hx⟩ := h.answered ha
    rw [known.acts_of_answered hs ha]
    exact ⟨j, List.mem_append_left _ hj, hx⟩
  · obtain rfl := List.mem_singleton.mp ha
    cases hs with
    | answer running =>
      have hacts : actsOf (tr ++ [⟨p, n, .answer a⟩]) p n = actsOf tr p n := by
        simp [actsOf_snoc, Deed.act?]
      rw [hacts]
      exact ⟨_, List.mem_append_left _ (known.running running).1, (h.running running).done⟩

/-- **The path of a request.** What an answered request did takes its program to that answer. -/
theorem run_paths (h : Run S handler (.start d) tr s) : Paths handler tr s := by
  induction h with
  | start => exact ⟨fun hj => (by cases hj), fun ha => absurd ha List.not_mem_nil⟩
  | next hr hs ih =>
    exact ⟨ih.running_step (run_known hr) hs, ih.answered_step (run_known hr) hs⟩

theorem run_exec {p : P} {n : Nat} {j : J} {a : A} (h : Run S handler (.start d) tr s)
    (ha : ⟨p, n, .accept j⟩ ∈ tr) (hr : ⟨p, n, .answer a⟩ ∈ tr) :
    (handler j).Exec ((actsOf tr p n).map Act.attempt) (some a) := by
  obtain ⟨j', ha', hx⟩ := (run_paths h).answered hr
  rwa [((run_known h).accepted ha ha').2]

/-! ## The moment of a read -/

/-- The first of the acts that are left of a trace. -/
theorem actsOf_cons {p : P} {n : Nat} {act : Act Q R C} {rest : List (Act Q R C)}
    (h : actsOf tr p n = act :: rest) : ∃ a l b, tr = a ++ l :: b ∧ l.proc = p ∧ l.id = n ∧
      l.deed.act? = some act ∧ actsOf b p n = rest := by
  obtain ⟨a, l, b, rfl, _, hl, hb⟩ := List.filterMap_eq_cons_iff.mp h
  split at hl
  · rename_i same
    exact ⟨a, l, b, rfl, same.1, same.2, hl, hb⟩
  · cases hl

theorem Deed.act?_asked {deed : Deed D Q R C A J} {q : Q} {r : R}
    (h : deed.act? = some (.asked q r)) : deed = .read q r := by
  cases deed with
  | read q' r' =>
    obtain ⟨rfl, rfl⟩ := Act.asked.inj (Option.some.inj h)
    rfl
  | sent | accept | exec | answer => cases h

theorem read_of_actsOf {p : P} {n : Nat} {q : Q} {r : R} {rest : List (Act Q R C)}
    (h : actsOf tr p n = .asked q r :: rest) :
    ∃ a b, tr = a ++ ⟨p, n, .read q r⟩ :: b ∧ actsOf b p n = rest := by
  obtain ⟨a, ⟨_, _, deed⟩, b, rfl, rfl, rfl, hact, hb⟩ := actsOf_cons h
  obtain rfl := Deed.act?_asked hact
  exact ⟨a, b, rfl, hb⟩

/-- A request reads after its accept and before its answer. -/
theorem Run.moment {p : P} {n : Nat} {q : Q} {r : R} {a b : List (Label P D Q R C A J)}
    (h : Run S handler (.start d) (a ++ ⟨p, n, .read q r⟩ :: b) s) : ∃ s₁ s₂,
      Run S handler (.start d) a s₁ ∧ Run S handler s₂ b s ∧ r = S.answer s₁.store q ∧
      s₂.store = s₁.store ∧
      (∀ j, ⟨p, n, .accept j⟩ ∈ a ++ ⟨p, n, .read q r⟩ :: b → ⟨p, n, .accept j⟩ ∈ a) ∧
      ∀ x, ⟨p, n, .answer x⟩ ∈ a ++ ⟨p, n, .read q r⟩ :: b → ⟨p, n, .answer x⟩ ∈ b := by
  obtain ⟨s₁, s₂, h₁, hs, h₂⟩ := h.split _
  obtain ⟨hr, hstore⟩ := hs.read_inv
  cases hs with
  | read running drained =>
    obtain ⟨haccept, _, hanswer⟩ := (run_known h₁).running running
    refine ⟨s₁, _, h₁, h₂, rfl, rfl, fun j ha => ?_, fun x hx => ?_⟩
    · rw [((run_known h).accepted ha (List.mem_append_left _ haccept)).2]
      exact haccept
    · rcases List.mem_append.mp hx with hx | hx
      · exact absurd hx (hanswer x)
      · simpa using hx

/-- It is accepted before it is answered. -/
theorem Run.before_answer {p : P} {n : Nat} {x : A} {a b : List (Label P D Q R C A J)}
    (h : Run S handler (.start d) (a ++ ⟨p, n, .answer x⟩ :: b) s) :
    ∃ s₁, Run S handler (.start d) a s₁ ∧
      ∀ j, ⟨p, n, .accept j⟩ ∈ a ++ ⟨p, n, .answer x⟩ :: b → ⟨p, n, .accept j⟩ ∈ a := by
  obtain ⟨s₁, s₂, h₁, hs, _⟩ := h.split _
  cases hs with
  | answer running =>
    obtain ⟨haccept, _⟩ := (run_known h₁).running running
    refine ⟨s₁, h₁, fun j ha => ?_⟩
    rw [((run_known h).accepted ha (List.mem_append_left _ haccept)).2]
    exact haccept

end

end Pipeline
