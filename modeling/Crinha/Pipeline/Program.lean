/-!
# Programs that talk to a store

A request handler is a tree of store operations: it waits for the answer of a
read (`query`), but only hands a write over (`send`) and goes on.
-/

namespace Pipeline

variable {Q R C A B A' B' : Type}

/-- A program with reads `Q` answered in `R`, writes `C` and result `A`.
`halt` is a crash: the program neither goes on nor returns. -/
inductive Prog (Q R C A : Type) where
  | done (a : A)
  | halt
  | query (q : Q) (k : R → Prog Q R C A)
  | send (c : C) (k : Bool → Prog Q R C A)

/-- What a program did so far: a read with its answer, or a write. -/
inductive Act (Q R C : Type) where
  | asked (q : Q) (r : R)
  | sent (c : C)

namespace Prog

def bind : Prog Q R C A → (A → Prog Q R C B) → Prog Q R C B
  | done a, f => f a
  | halt, _ => halt
  | query q k, f => query q fun r => (k r).bind f
  | send c k, f => send c fun b => (k b).bind f

instance : Monad (Prog Q R C) where
  pure := done
  bind := bind

/-- Read and return the answer. -/
def ask (q : Q) : Prog Q R C R := query q done

/-- Hand a write over and return whether it was taken. -/
def submit (c : C) : Prog Q R C Bool := send c done

@[simp] theorem pure_eq (a : A) : (pure a : Prog Q R C A) = done a := rfl

@[simp] theorem done_bind (a : A) (f : A → Prog Q R C B) : (done a >>= f) = f a := rfl

@[simp] theorem halt_bind (f : A → Prog Q R C B) : (halt >>= f) = halt := rfl

@[simp] theorem query_bind (q : Q) (k : R → Prog Q R C A) (f : A → Prog Q R C B) :
    (query q k >>= f) = query q fun r => k r >>= f := rfl

@[simp] theorem send_bind (c : C) (k : Bool → Prog Q R C A) (f : A → Prog Q R C B) :
    (send c k >>= f) = send c fun b => k b >>= f := rfl

@[simp] theorem ask_bind (q : Q) (f : R → Prog Q R C B) : (ask q >>= f) = query q f := rfl

@[simp] theorem submit_bind (c : C) (f : Bool → Prog Q R C B) :
    (submit c >>= f) = send c f := rfl

/-! ## What holds on every path -/

/-- On every path, after the acts `past`: each write leaves acts that satisfy
`pre`, and the result with the acts before it satisfies `post`. A write that is
not taken leaves no act. -/
def Meets (pre : List (Act Q R C) → Prop) (post : List (Act Q R C) → A → Prop) :
    List (Act Q R C) → Prog Q R C A → Prop
  | past, done a => post past a
  | _, halt => True
  | past, query q k => ∀ r, (k r).Meets pre post (past ++ [.asked q r])
  | past, send c k =>
      pre (past ++ [.sent c]) ∧ (k true).Meets pre post (past ++ [.sent c]) ∧
      (k false).Meets pre post past

theorem Meets.bind {pre : List (Act Q R C) → Prop} {mid : List (Act Q R C) → A → Prop}
    {post : List (Act Q R C) → B → Prop} {f : A → Prog Q R C B} :
    ∀ {past : List (Act Q R C)} {p : Prog Q R C A}, p.Meets pre mid past →
      (∀ acts a, mid acts a → (f a).Meets pre post acts) → (p >>= f).Meets pre post past
  | _, done a, h, hf => hf _ a h
  | _, halt, _, _ => trivial
  | _, query _ k, h, hf => fun r => Meets.bind (p := k r) (h r) hf
  | _, send _ k, ⟨h, ht, hn⟩, hf =>
      ⟨h, Meets.bind (p := k true) ht hf, Meets.bind (p := k false) hn hf⟩

theorem Meets.of_true : ∀ (past : List (Act Q R C)) (p : Prog Q R C A),
    p.Meets (fun _ => True) (fun _ _ => True) past
  | _, done _ => trivial
  | _, halt => trivial
  | _, query _ k => fun r => Meets.of_true _ (k r)
  | _, send _ k => ⟨trivial, Meets.of_true _ (k true), Meets.of_true _ (k false)⟩

/-- What holds of a program on its own holds of it after other acts. -/
theorem Meets.after {pre pre' : List (Act Q R C) → Prop} {post post' : List (Act Q R C) → A → Prop}
    (before : List (Act Q R C)) (hpre : ∀ acts, pre acts → pre' (before ++ acts))
    (hpost : ∀ acts a, post acts a → post' (before ++ acts) a) :
    ∀ {past : List (Act Q R C)} {p : Prog Q R C A}, p.Meets pre post past →
      p.Meets pre' post' (before ++ past)
  | _, done a, h => hpost _ a h
  | _, halt, _ => trivial
  | past, query q k, h => fun r => by
      rw [List.append_assoc]
      exact Meets.after before hpre hpost (p := k r) (h r)
  | past, send c k, ⟨h, ht, hn⟩ => by
      rw [Meets, List.append_assoc]
      exact ⟨hpre _ h, Meets.after before hpre hpost (p := k true) ht,
        Meets.after before hpre hpost (p := k false) hn⟩

/-! ## Programs that act alike -/

/-- The same reads and writes in the same order, each write one of `writes`, and
related results, as long as the reads get related answers. -/
def Alike (writes : C → Prop) (answers : R → R → Prop) (results : A → A' → Prop) :
    Prog Q R C A → Prog Q R C A' → Prop
  | done a, done a' => results a a'
  | halt, halt => True
  | query q k, query q' k' =>
      q = q' ∧ ∀ r r', answers r r' → (k r).Alike writes answers results (k' r')
  | send c k, send c' k' => c = c' ∧ writes c ∧ ∀ b, (k b).Alike writes answers results (k' b)
  | _, _ => False

theorem Alike.bind {writes : C → Prop} {answers : R → R → Prop} {mid : A → A' → Prop}
    {results : B → B' → Prop} {f : A → Prog Q R C B} {f' : A' → Prog Q R C B'}
    (hf : ∀ a a', mid a a' → (f a).Alike writes answers results (f' a')) :
    ∀ (p : Prog Q R C A) (p' : Prog Q R C A'), p.Alike writes answers mid p' →
      (p >>= f).Alike writes answers results (p' >>= f')
  | done a, done a', h => hf a a' h
  | halt, halt, _ => trivial
  | query _ k, query _ k', ⟨hq, h⟩ =>
      ⟨hq, fun r r' hr => Alike.bind hf (k r) (k' r') (h r r' hr)⟩
  | send _ k, send _ k', ⟨hc, hw, h⟩ =>
      ⟨hc, hw, fun b => Alike.bind hf (k b) (k' b) (h b)⟩

end Prog

end Pipeline
