import Mathlib.Algebra.GroupWithZero.Nat
import Crinha.Pipeline.Refinement

/-!
# Progress

* `exists_step`: a client with a running request is never stuck;
* `Run.answered`: a bounded number of its steps answers the request.
-/

namespace Pipeline

variable {P D Q R C A B J T : Type}

namespace Prog

/-- The program returns, after at most so many calls, if its reads get legal answers. -/
def Returns (legal : Q → R → Prop) : Nat → Prog Q R C A → Prop
  | _, done _ => True
  | _, halt => False
  | 0, query .. => False
  | 0, send .. => False
  | n + 1, query q k => ∀ r, legal q r → (k r).Returns legal n
  | n + 1, send _ k => ∀ taken, (k taken).Returns legal n

variable {legal : Q → R → Prop}

theorem not_returns_halt {n : Nat} : ¬(halt : Prog Q R C A).Returns legal n := by
  cases n <;> exact id

theorem Returns.mono {m n : Nat} {p : Prog Q R C A} (h : p.Returns legal m) (hmn : m ≤ n) :
    p.Returns legal n := by
  induction p generalizing m n with
  | done => cases n <;> trivial
  | halt => cases m <;> exact h.elim
  | query _ _ ih | send _ _ ih =>
    cases m with
    | zero => exact h.elim
    | succ m =>
      obtain ⟨n, rfl⟩ := Nat.exists_eq_add_of_le' hmn
      first
      | exact fun r hr => ih r (h r hr) (Nat.le_add_left m n)
      | exact fun b => ih b (h b) (Nat.le_add_left m n)

theorem Returns.bind {f : A → Prog Q R C B} {m n : Nat} (hf : ∀ a, (f a).Returns legal n)
    {p : Prog Q R C A} (h : p.Returns legal m) : (p >>= f).Returns legal (m + n) := by
  induction p generalizing m with
  | done a => exact (hf a).mono (Nat.le_add_left n m)
  | halt => cases m <;> exact h.elim
  | query _ _ ih | send _ _ ih =>
    cases m with
    | zero => exact h.elim
    | succ m =>
      rw [Nat.add_right_comm]
      first
      | exact fun r hr => ih r (h r hr)
      | exact fun b => ih b (h b)

theorem Returns.of_bind {f : A → Prog Q R C B} {n : Nat} {p : Prog Q R C A}
    (h : (p >>= f).Returns legal n) : p.Returns legal n := by
  induction p generalizing n with
  | done a => cases n <;> trivial
  | halt => cases n <;> exact h.elim
  | query _ _ ih | send _ _ ih =>
    cases n with
    | zero => exact h.elim
    | succ n =>
      first
      | exact fun r hr => ih r (h r hr)
      | exact fun b => ih b (h b)

theorem Returns.pure_bind {g : A → B} {n : Nat} {p : Prog Q R C A} (h : p.Returns legal n) :
    (p >>= fun a => pure (g a)).Returns legal n := by
  have hg : ∀ a, (pure (g a) : Prog Q R C B).Returns legal 0 := fun _ => trivial
  exact h.bind hg

/-- Some run of the first part comes to its end. -/
theorem Returns.exists_of_bind (hlegal : ∀ q, ∃ r, legal q r) {f : A → Prog Q R C B} {n : Nat}
    {p : Prog Q R C A} (h : (p >>= f).Returns legal n) : ∃ a, (f a).Returns legal n := by
  induction p generalizing n with
  | done a => exact ⟨a, h⟩
  | halt => cases n <;> exact h.elim
  | query q _ ih =>
    cases n with
    | zero => exact h.elim
    | succ n =>
      obtain ⟨r, hr⟩ := hlegal q
      obtain ⟨a, ha⟩ := ih r (h r hr)
      exact ⟨a, ha.mono (Nat.le_succ n)⟩
  | send _ _ ih =>
    cases n with
    | zero => exact h.elim
    | succ n =>
      obtain ⟨a, ha⟩ := ih true (h true)
      exact ⟨a, ha.mono (Nat.le_succ n)⟩

theorem Returns.mapM {f : A → Prog Q R C B} {w : A → Nat} : ∀ {l : List A},
    (∀ a ∈ l, (f a).Returns legal (w a)) → (l.mapM f).Returns legal (l.map w).sum
  | [], _ => trivial
  | a :: l, h => by
    rw [List.mapM_cons, List.map_cons, List.sum_cons]
    apply Returns.bind _ (h a List.mem_cons_self)
    intro b
    have hrest := Returns.mapM fun a' ha' => h a' (List.mem_cons_of_mem _ ha')
    exact hrest.pure_bind

theorem Returns.of_mapM (hlegal : ∀ q, ∃ r, legal q r) {f : A → Prog Q R C B} {n : Nat} :
    ∀ {l : List A}, (l.mapM f).Returns legal n → ∀ a ∈ l, (f a).Returns legal n
  | a :: l, h, a', ha' => by
    rw [List.mapM_cons] at h
    rcases List.mem_cons.mp ha' with rfl | hl
    · exact h.of_bind
    · obtain ⟨_, hrest⟩ := h.exists_of_bind hlegal
      exact Returns.of_mapM hlegal hrest.of_bind a' hl

end Prog

section
variable [DecidableEq P] {legal : Q → R → Prop} {S : Store D Q R C T} {handler : J → Prog Q R C A}
  {s t : State P D Q R C A J} {l : Label P D Q R C A J} {tr : List (Label P D Q R C A J)} {p : P}
  {n m : Nat} {j : J} {prog : Prog Q R C A}

/-! ## Never stuck -/

/-- **A running request that does not crash can go on, or its connection can.** -/
theorem exists_step (htick : ∀ d, ∃ τ, S.tick d τ) (running : (s.client p).job = some ⟨n, j, prog⟩)
    (hr : prog.Returns legal m) : ∃ l t, Step S handler s l t ∧ l.proc = p := by
  cases prog with
  | done a => exact ⟨_, _, .answer running, rfl⟩
  | halt => cases m <;> exact hr.elim
  | query q k | send c k =>
    cases hf : (s.client p).inFlight with
    | nil => first
      | exact ⟨_, _, .read running hf, rfl⟩
      | exact ⟨_, _, .send running hf, rfl⟩
    | cons e rest =>
      obtain ⟨τ, hτ⟩ := htick s.store
      exact ⟨_, _, .exec τ hf hτ, rfl⟩

/-! ## Bounded -/

/-- Request `n` of client `p` is running, and at most `bound` steps of the client and
its connection are left before its answer. -/
def Within (legal : Q → R → Prop) (s : State P D Q R C A J) (p : P) (n bound : Nat) : Prop :=
  ∃ j prog m, (s.client p).job = some ⟨n, j, prog⟩ ∧ prog.Returns legal m ∧
    2 * m + (s.client p).inFlight.length ≤ bound

theorem Within.other (h : Within legal s p n m) (hs : Step S handler s l t) (hp : l.proc ≠ p) :
    Within legal t p n m := by
  unfold Within at h ⊢
  rwa [hs.other (Ne.symm hp)]

theorem Within.step (hl : ∀ d q, legal q (S.answer d q)) (h : Within legal s p n m)
    (hs : Step S handler s l t) (hp : l.proc = p) :
    (∃ a, l = ⟨p, n, .answer a⟩) ∨ ∃ k, m = k + 1 ∧ Within legal t p n k := by
  subst hp
  obtain ⟨j, prog, m', running, hr, hm⟩ := h
  cases hs with
  | accept _ idle => rw [idle] at running; cases running
  | answer running' =>
    rw [running'] at running
    cases running
    exact .inl ⟨_, rfl⟩
  | @read p _ _ q k running' drained =>
    rw [running'] at running
    cases running
    cases m' with
    | zero => exact hr.elim
    | succ m' =>
      refine .inr ⟨m - 1, by omega, j, k (S.answer s.store q), m', by simp, hr _ (hl _ _), ?_⟩
      simp only [drained, List.length_nil] at hm
      simp only [setClient_client, Function.update_self, drained, List.length_nil]
      omega
  | @send p _ _ c k running' drained =>
    rw [running'] at running
    cases running
    cases m' with
    | zero => exact hr.elim
    | succ m' =>
      refine .inr ⟨m - 1, by omega, j, k true, m', by simp, hr true, ?_⟩
      simp only [drained, List.length_nil] at hm
      simp only [setClient_client, Function.update_self, drained, List.nil_append,
        List.length_singleton]
      omega
  | exec _ pending =>
    rw [pending, List.length_cons] at hm
    refine .inr ⟨m - 1, by omega, j, prog, m', by simpa using running, hr, ?_⟩
    simp only [setClient_client, Function.update_self]
    omega

omit [DecidableEq P] in
theorem Within.mono {bound bound' : Nat} (h : Within legal s p n bound) (hb : bound ≤ bound') :
    Within legal s p n bound' := by
  obtain ⟨j, prog, m, running, hr, hm⟩ := h
  exact ⟨j, prog, m, running, hr, Nat.le_trans hm hb⟩

/-- Two steps for each call of the handler, and one for what was in flight before it. -/
theorem run_within {ok : J → Prop} (hh : ∀ j, ok j → (handler j).Returns legal m)
    (hl : ∀ d q, legal q (S.answer d q)) {d : D} (h : Run S handler (.start d) tr s)
    (running : (s.client p).job = some ⟨n, j, prog⟩) (hj : ok j) :
    Within legal s p n (2 * m + 1) := by
  induction h generalizing prog with
  | start => cases running
  | @next tr s l t hr hs ih =>
    by_cases hp : l.proc = p
    · have hcases : (∃ prog', (s.client p).job = some ⟨n, j, prog'⟩) ∨
          (∃ j', l.deed = .accept j') := by
        subst hp
        cases hs with
        | accept j' => exact .inr ⟨j', rfl⟩
        | answer => simp at running
        | exec => exact .inl ⟨prog, by simpa using running⟩
        | read running' | send running' =>
          simp only [setClient_client, Function.update_self, Option.some.injEq,
            Job.mk.injEq] at running
          obtain ⟨rfl, rfl, -⟩ := running
          exact .inl ⟨_, running'⟩
      rcases hcases with ⟨prog', hrun⟩ | ⟨j', hd⟩
      · rcases (ih hrun).step hl hs hp with ⟨a, rfl⟩ | ⟨k, hk, hw⟩
        · cases hs with
          | answer => simp at running
        · exact hw.mono (by omega)
      · have hone := inFlight_le_one hr p
        subst hp
        cases hs with
        | @accept _ j' =>
          simp only [setClient_client, Function.update_self, Option.some.injEq,
            Job.mk.injEq] at running
          obtain ⟨rfl, rfl, rfl⟩ := running
          refine ⟨j', handler j', m, by simp, hh j' hj, ?_⟩
          dsimp only at hone
          simp only [setClient_client, Function.update_self]
          omega
        | read | send | exec | answer => cases hd
    · exact (ih (by rwa [hs.other (Ne.symm hp)] at running)).other hs hp

/-- The steps of client `p` and its connection. -/
def stepsOf (tr : List (Label P D Q R C A J)) (p : P) : List (Label P D Q R C A J) :=
  tr.filter fun l => l.proc = p

/-- **More steps of the client and its connection than are left, and the request is
answered**, whatever the other clients do. -/
theorem Run.answered (hl : ∀ d q, legal q (S.answer d q)) (h : Within legal s p n m)
    (hrun : Run S handler s tr t) (hm : m < (stepsOf tr p).length) :
    ∃ a, ⟨p, n, .answer a⟩ ∈ tr := by
  have hgo : (∃ a, ⟨p, n, .answer a⟩ ∈ tr) ∨
      ∃ k, m = k + (stepsOf tr p).length ∧ Within legal t p n k := by
    clear hm
    induction hrun with
    | start => exact .inr ⟨m, rfl, h⟩
    | @next tr s l t _ hs ih =>
      rcases ih with ⟨a, ha⟩ | ⟨k, hk, hw⟩
      · exact .inl ⟨a, List.mem_append_left _ ha⟩
      · by_cases hp : l.proc = p
        · rcases hw.step hl hs hp with ⟨a, rfl⟩ | ⟨k, rfl, hw'⟩
          · exact .inl ⟨a, by simp⟩
          · refine .inr ⟨k, ?_, hw'⟩
            simp only [stepsOf, List.filter_append, List.length_append] at hk ⊢
            simp only [hp, decide_true, List.filter_cons_of_pos, List.filter_nil,
              List.length_singleton]
            omega
        · exact .inr ⟨k, by simpa [stepsOf, List.filter_append, hp] using hk, hw.other hs hp⟩
  rcases hgo with ha | ⟨k, hk, _⟩
  · exact ha
  · omega

end

end Pipeline
