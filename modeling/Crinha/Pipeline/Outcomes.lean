import Crinha.Pipeline.Program

/-!
# Outcomes

* `ends_iff`: what holds of every run of a program, whatever its reads are answered.
-/

namespace Pipeline

variable {Q R C A B : Type}

/-- A read with its answer, or a write and whether it was taken. -/
inductive Attempt (Q R C : Type) where
  | asked (q : Q) (r : R)
  | tried (c : C) (taken : Bool)

namespace Prog

/-- A run of a program: what it tries, in order, and its result. A crash has none. -/
inductive Exec : Prog Q R C A → List (Attempt Q R C) → Option A → Prop where
  | done (a : A) : Exec (.done a) [] (some a)
  | halt : Exec .halt [] none
  | query {q : Q} {k : R → Prog Q R C A} {r : R} {attempts : List (Attempt Q R C)}
      {result : Option A} (rest : Exec (k r) attempts result) :
      Exec (.query q k) (.asked q r :: attempts) result
  | send {c : C} {k : Bool → Prog Q R C A} {taken : Bool} {attempts : List (Attempt Q R C)}
      {result : Option A} (rest : Exec (k taken) attempts result) :
      Exec (.send c k) (.tried c taken :: attempts) result

/-- On every path, after the attempts `past`: all attempts and the result satisfy `post`. -/
def Ends (post : List (Attempt Q R C) → Option A → Prop) :
    List (Attempt Q R C) → Prog Q R C A → Prop
  | past, done a => post past (some a)
  | past, halt => post past none
  | past, query q k => ∀ r, (k r).Ends post (past ++ [.asked q r])
  | past, send c k => ∀ taken, (k taken).Ends post (past ++ [.tried c taken])

theorem Ends.bind {mid : List (Attempt Q R C) → Option A → Prop}
    {post : List (Attempt Q R C) → Option B → Prop} {f : A → Prog Q R C B}
    (hsome : ∀ attempts a, mid attempts (some a) → (f a).Ends post attempts)
    (hnone : ∀ attempts, mid attempts none → post attempts none) :
    ∀ {past : List (Attempt Q R C)} {p : Prog Q R C A}, p.Ends mid past → (p >>= f).Ends post past
  | _, done a, h => hsome _ a h
  | _, halt, h => hnone _ h
  | _, query _ k, h => fun r => Ends.bind hsome hnone (p := k r) (h r)
  | _, send _ k, h => fun taken => Ends.bind hsome hnone (p := k taken) (h taken)

theorem ends_iff {post : List (Attempt Q R C) → Option A → Prop} {past : List (Attempt Q R C)}
    {p : Prog Q R C A} :
    p.Ends post past ↔
      ∀ attempts result, p.Exec attempts result → post (past ++ attempts) result := by
  constructor
  · intro h attempts result hx
    induction hx generalizing past with
    | done a => simpa [Ends] using h
    | halt => simpa [Ends] using h
    | query rest ih => simpa using ih (h _)
    | send rest ih => simpa using ih (h _)
  · intro h
    induction p generalizing past with
    | done a => simpa [Ends] using h [] (some a) (.done a)
    | halt => simpa [Ends] using h [] none .halt
    | query q k ih =>
      intro r
      apply ih r
      intro attempts result hx
      simpa using h _ _ (.query hx)
    | send c k ih =>
      intro taken
      apply ih taken
      intro attempts result hx
      simpa using h _ _ (.send hx)

end Prog

/-! ## What a run has done -/

/-- A write that is not taken leaves no act. -/
def Attempt.act? : Attempt Q R C → Option (Act Q R C)
  | asked q r => some (.asked q r)
  | tried c true => some (.sent c)
  | tried _ false => none

theorem asked_mem_acts {attempts : List (Attempt Q R C)} {q : Q} {r : R} :
    .asked q r ∈ attempts.filterMap Attempt.act? ↔ .asked q r ∈ attempts := by
  rw [List.mem_filterMap]
  constructor
  · rintro ⟨attempt, hm, hact⟩
    match attempt with
    | .asked q' r' =>
      cases hact
      exact hm
    | .tried c true => cases hact
    | .tried c false => cases hact
  · intro hm
    exact ⟨_, hm, rfl⟩

namespace Prog

/-- What holds on every path holds of a run that returns. -/
theorem Meets.exec {pre : List (Act Q R C) → Prop} {post : List (Act Q R C) → A → Prop}
    {past : List (Act Q R C)} {p : Prog Q R C A} {attempts : List (Attempt Q R C)} {a : A}
    (h : p.Meets pre post past) (hx : p.Exec attempts (some a)) :
    post (past ++ attempts.filterMap Attempt.act?) a := by
  generalize hresult : some a = result at hx
  induction hx generalizing past with
  | done b =>
    obtain rfl := Option.some.inj hresult
    rw [List.filterMap_nil, List.append_nil]
    exact h
  | halt => cases hresult
  | query rest ih =>
    have hrest := ih (h _) hresult
    rwa [List.append_assoc] at hrest
  | @send c k taken attempts result rest ih =>
    cases taken with
    | true =>
      have hrest := ih h.2.1 hresult
      rwa [List.append_assoc] at hrest
    | false => exact ih h.2.2 hresult

theorem Meets.mono {pre : List (Act Q R C) → Prop} {post post' : List (Act Q R C) → A → Prop}
    {past : List (Act Q R C)} {p : Prog Q R C A} (h : p.Meets pre post past)
    (hpost : ∀ acts a, post acts a → post' acts a) : p.Meets pre post' past :=
  h.after [] (fun _ => id) hpost

/-- The results of a program are those of its runs. -/
theorem Meets.and_exec {pre : List (Act Q R C) → Prop} {post : List (Act Q R C) → A → Prop}
    {past : List (Act Q R C)} {p : Prog Q R C A} (h : p.Meets pre post past) :
    p.Meets pre (fun acts a => post acts a ∧ ∃ attempts, p.Exec attempts (some a)) past := by
  induction p generalizing past with
  | done a => exact ⟨h, [], .done a⟩
  | halt => trivial
  | query q k ih =>
    intro r
    exact (ih r (h r)).mono fun _ _ ⟨hpost, _, hx⟩ => ⟨hpost, _, .query hx⟩
  | send c k ih =>
    obtain ⟨hpre, htrue, hfalse⟩ := h
    exact ⟨hpre, (ih true htrue).mono fun _ _ ⟨hpost, _, hx⟩ => ⟨hpost, _, .send hx⟩,
      (ih false hfalse).mono fun _ _ ⟨hpost, _, hx⟩ => ⟨hpost, _, .send hx⟩⟩

end Prog

end Pipeline
