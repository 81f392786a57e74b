import Crinha.Pipeline.Outcomes
import Crinha.Pipeline.Sync

/-!
# Refinement of a specification

* `Serve.refines`: if every request is served as specified, so are requests one after
  another.
-/

namespace Pipeline

variable {D Q R C A J T B O : Type} {S : Store D Q R C T} {d d' : D} {o : Option A}

@[simp] theorem eval_done {a : A} : Eval S d (.done a) o d' ↔ o = some a ∧ d' = d := by
  constructor
  · intro h
    cases h
    exact ⟨rfl, rfl⟩
  · rintro ⟨rfl, rfl⟩
    exact .done _ _

@[simp] theorem eval_query {q : Q} {k : R → Prog Q R C A} :
    Eval S d (.query q k) o d' ↔ Eval S d (k (S.answer d q)) o d' := by
  constructor
  · intro h
    cases h
    assumption
  · exact .query

@[simp] theorem eval_send {c : C} {k : Bool → Prog Q R C A} :
    Eval S d (.send c k) o d' ↔ ∃ t, S.tick d t ∧ Eval S ((S.run t c d).getD d) (k true) o d' := by
  constructor
  · intro h
    cases h with
    | send t tick h => exact ⟨t, tick, h⟩
  · rintro ⟨t, tick, h⟩
    exact .send t tick h

/-- One program after another. -/
theorem eval_bind {X : Type} {f : A → Prog Q R C X} : ∀ {p : Prog Q R C A} {d : D} {o : Option X},
    Eval S d (p >>= f) o d' → (∃ a d₁, Eval S d p (some a) d₁ ∧ Eval S d₁ (f a) o d') ∨
      o = none ∧ Eval S d p none d'
  | .done a, d, o, h => .inl ⟨a, d, .done _ _, h⟩
  | .halt, d, o, h => by
    cases h
    exact .inr ⟨rfl, .halt _⟩
  | .query q k, d, o, h => by
    rcases eval_bind (eval_query.mp h) with ⟨a, d₁, hp, hf⟩ | ⟨ho, hp⟩
    · exact .inl ⟨a, d₁, .query hp, hf⟩
    · exact .inr ⟨ho, .query hp⟩
  | .send c k, d, o, h => by
    obtain ⟨t, tick, h⟩ := eval_send.mp h
    rcases eval_bind h with ⟨a, d₁, hp, hf⟩ | ⟨ho, hp⟩
    · exact .inl ⟨a, d₁, .send t tick hp, hf⟩
    · exact .inr ⟨ho, .send t tick hp⟩

/-- A program that always comes to its result, and another after it. -/
theorem Eval.of_bind {X : Type} {f : A → Prog Q R C X} {p : Prog Q R C A} {good : A → D → Prop}
    {o : Option X} (hp : ∀ {o d₁}, Eval S d p o d₁ → ∃ a, o = some a ∧ good a d₁)
    (h : Eval S d (p >>= f) o d') : ∃ a d₁, good a d₁ ∧ Eval S d₁ (f a) o d' := by
  rcases eval_bind h with ⟨a, d₁, hfirst, hrest⟩ | ⟨_, hfirst⟩
  · obtain ⟨_, ha, hgood⟩ := hp hfirst
    obtain rfl := Option.some.inj ha
    exact ⟨a, d₁, hgood, hrest⟩
  · obtain ⟨_, ha, _⟩ := hp hfirst
    cases ha

theorem Prog.bind_done : ∀ p : Prog Q R C A, p.bind .done = p
  | .done _ => rfl
  | .halt => rfl
  | .query q k => congrArg (Prog.query q) (funext fun r => bind_done (k r))
  | .send c k => congrArg (Prog.send c) (funext fun b => bind_done (k b))

theorem Prog.bind_bind {X : Type} (f : A → Prog Q R C B) (g : B → Prog Q R C X) :
    ∀ p : Prog Q R C A, (p.bind f).bind g = p.bind fun a => (f a).bind g
  | .done _ => rfl
  | .halt => rfl
  | .query q k => congrArg (Prog.query q) (funext fun r => bind_bind f g (k r))
  | .send c k => congrArg (Prog.send c) (funext fun b => bind_bind f g (k b))

instance : LawfulMonad (Prog Q R C) :=
  LawfulMonad.mk' _ Prog.bind_done (fun _ _ => rfl) fun p f g => Prog.bind_bind f g p

/-- One program for each element of a list: what each of them keeps, when it comes to its
turn, all of them keep. -/
theorem Prog.Meets.mapM_from {X : Type} {pre : List (Act Q R C) → Prop}
    {inv : List X → List (Act Q R C) → Prop} {φ : X → A → Prop} {f : X → Prog Q R C A} {l : List X}
    (hstep : ∀ {before x later}, l = before ++ x :: later → ∀ {past}, inv before past →
      (f x).Meets pre (fun acts a => inv (before ++ [x]) acts ∧ φ x a) past) :
    ∀ {before later past}, l = before ++ later → inv before past →
      (later.mapM f).Meets pre (fun acts as => inv l acts ∧ List.Forall₂ φ later as) past
  | before, [], past, hl, h => by
    rw [hl, List.append_nil]
    exact ⟨h, .nil⟩
  | before, x :: later, past, hl, h => by
    rw [List.mapM_cons]
    apply Prog.Meets.bind (hstep hl h)
    intro acts a ha
    have hl' : l = before ++ [x] ++ later := by rw [hl, List.append_cons]
    have hrest := mapM_from hstep hl' ha.1
    apply Prog.Meets.bind hrest
    intro acts' as has
    exact ⟨has.1, .cons ha.2 has.2⟩

theorem Prog.Meets.mapM {X : Type} (inv : List X → List (Act Q R C) → Prop)
    {pre : List (Act Q R C) → Prop} {φ : X → A → Prop} {f : X → Prog Q R C A} {l : List X}
    {past : List (Act Q R C)}
    (hstep : ∀ {before x later}, l = before ++ x :: later → ∀ {past}, inv before past →
      (f x).Meets pre (fun acts a => inv (before ++ [x]) acts ∧ φ x a) past) (h : inv [] past) :
    (l.mapM f).Meets pre (fun acts as => inv l acts ∧ List.Forall₂ φ l as) past :=
  mapM_from hstep rfl h

/-- A path on which the store answers every read and executes every write at once. -/
inductive Plays (S : Store D Q R C T) : D → List (Attempt Q R C) → D → Prop where
  | nil (d : D) : Plays S d [] d
  | asked {d d' : D} {q : Q} {rest : List (Attempt Q R C)} (h : Plays S d rest d') :
      Plays S d (.asked q (S.answer d q) :: rest) d'
  | tried {d d' : D} {c : C} {rest : List (Attempt Q R C)} (t : T) (tick : S.tick d t)
      (h : Plays S ((S.run t c d).getD d) rest d') : Plays S d (.tried c true :: rest) d'

theorem Eval.path {p : Prog Q R C A} (h : Eval S d p o d') :
    ∃ attempts, p.Exec attempts o ∧ Plays S d attempts d' := by
  induction h with
  | done d a => exact ⟨[], .done a, .nil d⟩
  | halt d => exact ⟨[], .halt, .nil d⟩
  | query _ ih =>
    obtain ⟨attempts, hx, hp⟩ := ih
    exact ⟨_, .query hx, .asked hp⟩
  | send t tick _ ih =>
    obtain ⟨attempts, hx, hp⟩ := ih
    exact ⟨_, .send hx, .tried t tick hp⟩

section
variable {rest : List (Attempt Q R C)}

@[simp] theorem plays_nil : Plays S d ([] : List (Attempt Q R C)) d' ↔ d' = d := by
  constructor
  · intro h
    cases h
    rfl
  · rintro rfl
    exact .nil _

@[simp] theorem plays_asked {q : Q} {r : R} :
    Plays S d (.asked q r :: rest) d' ↔ r = S.answer d q ∧ Plays S d rest d' := by
  constructor
  · intro h
    cases h with
    | asked h => exact ⟨rfl, h⟩
  · rintro ⟨rfl, h⟩
    exact .asked h

@[simp] theorem plays_tried {c : C} {taken : Bool} : Plays S d (.tried c taken :: rest) d' ↔
    taken = true ∧ ∃ t, S.tick d t ∧ Plays S ((S.run t c d).getD d) rest d' := by
  constructor
  · intro h
    cases h with
    | tried t tick h => exact ⟨rfl, t, tick, h⟩
  · rintro ⟨rfl, t, tick, h⟩
    exact .tried t tick h

end

/-- The requests as specified, one after another. -/
def replay (spec : B → J → B × O) (b : B) : List J → B × List O
  | [] => (b, [])
  | j :: js => ((replay spec (spec b j).1 js).1, (spec b j).2 :: (replay spec (spec b j).1 js).2)

theorem length_replay (spec : B → J → B × O) : ∀ (b : B) (js : List J),
    (replay spec b js).2.length = js.length
  | _, [] => rfl
  | b, j :: js => congrArg (· + 1) (length_replay spec (spec b j).1 js)

theorem replay_append (spec : B → J → B × O) (js' : List J) : ∀ (b : B) (js : List J),
    replay spec b (js ++ js') = ((replay spec (replay spec b js).1 js').1,
      (replay spec b js).2 ++ (replay spec (replay spec b js).1 js').2)
  | _, [] => rfl
  | b, j :: js => by
    simp only [List.cons_append, replay, replay_append spec js']

/-- **Refinement of a loop.** `rel n` relates the store and the specification before `n`
more elements. -/
theorem Eval.mapM_refines {f : J → Prog Q R C A} {spec : B → J → B × O} {rel : Nat → D → B → Prop}
    {ok : J → Prop} {shows : O → A → Prop}
    (hstep : ∀ {n j d d' b o}, ok j → rel (n + 1) d b → Eval S d (f j) o d' →
      ∃ a, o = some a ∧ shows (spec b j).2 a ∧ rel n d' (spec b j).1) {n : Nat} :
    ∀ {js : List J} {d d' b} {o : Option (List A)}, (∀ j ∈ js, ok j) → rel (js.length + n) d b →
      Eval S d (js.mapM f) o d' →
      ∃ as, o = some as ∧ List.Forall₂ shows (replay spec b js).2 as ∧ rel n d' (replay spec b js).1
  | [], _, _, _, _, _, hrel, h => by
    obtain ⟨rfl, rfl⟩ := eval_done.mp h
    rw [List.length_nil, Nat.zero_add] at hrel
    exact ⟨[], rfl, .nil, hrel⟩
  | j :: js, _, _, _, _, hok, hrel, h => by
    rw [List.mapM_cons] at h
    rw [List.length_cons, Nat.add_right_comm] at hrel
    obtain ⟨a, d₁, ⟨hshows, hrel₁⟩, hrest⟩ := Eval.of_bind (hstep (hok j List.mem_cons_self) hrel) h
    obtain ⟨as, d₂, ⟨hall, hend⟩, hpure⟩ :=
      Eval.of_bind (mapM_refines hstep (fun j hj => hok j (List.mem_cons_of_mem _ hj)) hrel₁) hrest
    obtain ⟨rfl, rfl⟩ := eval_done.mp hpure
    exact ⟨_, rfl, .cons hshows hall, hend⟩

/-- **Refinement of a service.** `rel n` relates the store and the specification before
`n` more requests. -/
theorem Serve.refines {handler : J → Prog Q R C A} {spec : B → J → B × O} {rel : Nat → D → B → Prop}
    {ok : J → Prop} {shows : O → A → Prop}
    (hstep : ∀ {n j d d' b o}, ok j → rel (n + 1) d b → Eval S d (handler j) o d' →
      ∃ a, o = some a ∧ shows (spec b j).2 a ∧ rel n d' (spec b j).1)
    {js : List J} {as : List A} (h : Serve S handler d js as d') :
    ∀ {b : B}, (∀ j ∈ js, ok j) → rel js.length d b →
      List.Forall₂ shows (replay spec b js).2 as ∧ rel 0 d' (replay spec b js).1 := by
  induction h with
  | nil d => exact fun _ hrel => ⟨.nil, hrel⟩
  | cons he _ ih =>
    intro b hok hrel
    obtain ⟨a, ha, hshows, hrel'⟩ := hstep (hok _ List.mem_cons_self) hrel he
    obtain rfl := Option.some.inj ha
    obtain ⟨hall, hend⟩ := ih (fun j hj => hok j (List.mem_cons_of_mem _ hj)) hrel'
    exact ⟨.cons hshows hall, hend⟩
  | crash he =>
    intro b hok hrel
    obtain ⟨_, ha, _⟩ := hstep (hok _ List.mem_cons_self) hrel he
    cases ha

end Pipeline
