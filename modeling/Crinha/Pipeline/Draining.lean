import Crinha.Pipeline.System

/-!
# Programs that drain their connection

* `ConnRun.not_refused`: if a program drains its connection before each write, none of its
  writes is refused;
* `connRun_iff`: its runs are those of clients whose writes wait.
-/

namespace Pipeline

section
variable {P D Q R C A B J T : Type}

/-- A program that says itself when it waits: `none` is a drain, which returns when nothing is
in flight. -/
abbrev ConnProg (Q R C A : Type) := Prog (Option Q) (Option R) C A

def drain : ConnProg Q R C Unit := .query none fun _ => .done ()

/-- The program with a drain before each write. -/
def Prog.draining : Prog Q R C A → ConnProg Q R C A
  | done a => .done a
  | halt => .halt
  | query q k => .query (some q) fun r => r.elim .halt fun r => (k r).draining
  | send c k => .query none fun _ => .send c fun b => (k b).draining

variable [DecidableEq P]

/-- The steps of clients over connections that refuse a write while another is in flight. A read
waits for what is in flight; a drain and a refused write do not show. -/
inductive ConnStep (S : Store D Q R C T) (handler : J → ConnProg Q R C A) :
    State P D (Option Q) (Option R) C A J → Option (Label P D Q R C A J) →
      State P D (Option Q) (Option R) C A J → Prop where
  | accept {s p} (j : J) (idle : (s.client p).job = none) :
      ConnStep S handler s (some ⟨p, s.next, .accept j⟩)
        { s.setClient p { s.client p with job := some ⟨s.next, j, handler j⟩ } with
          next := s.next + 1 }
  | drain {s p n j k} (running : (s.client p).job = some ⟨n, j, .query none k⟩)
      (drained : (s.client p).inFlight = []) :
      ConnStep S handler s none
        (s.setClient p { s.client p with job := some ⟨n, j, k none⟩ })
  | read {s p n j q k} (running : (s.client p).job = some ⟨n, j, .query (some q) k⟩)
      (drained : (s.client p).inFlight = []) :
      ConnStep S handler s (some ⟨p, n, .read q (S.answer s.store q)⟩)
        (s.setClient p { s.client p with job := some ⟨n, j, k (some (S.answer s.store q))⟩ })
  | send {s p n j c k} (running : (s.client p).job = some ⟨n, j, .send c k⟩)
      (idle : (s.client p).inFlight = []) :
      ConnStep S handler s (some ⟨p, n, .sent c⟩)
        (s.setClient p ⟨some ⟨n, j, k true⟩, (s.client p).inFlight ++ [(n, c)]⟩)
  | refuse {s p n j c k} (running : (s.client p).job = some ⟨n, j, .send c k⟩)
      (busy : (s.client p).inFlight ≠ []) :
      ConnStep S handler s none
        (s.setClient p { s.client p with job := some ⟨n, j, k false⟩ })
  | exec {s p n c rest} (t : T) (pending : (s.client p).inFlight = (n, c) :: rest)
      (tick : S.tick s.store t) :
      ConnStep S handler s (some ⟨p, n, .exec c (S.run t c s.store)⟩)
        { s.setClient p { s.client p with inFlight := rest } with
          store := (S.run t c s.store).getD s.store }
  | answer {s p n j a} (running : (s.client p).job = some ⟨n, j, .done a⟩) :
      ConnStep S handler s (some ⟨p, n, .answer a⟩)
        (s.setClient p { s.client p with job := none })

inductive ConnRun (S : Store D Q R C T) (handler : J → ConnProg Q R C A)
    (s₀ : State P D (Option Q) (Option R) C A J) :
    List (Label P D Q R C A J) → State P D (Option Q) (Option R) C A J → Prop where
  | start : ConnRun S handler s₀ [] s₀
  | silent {tr s t} : ConnRun S handler s₀ tr s → ConnStep S handler s none t →
      ConnRun S handler s₀ tr t
  | next {tr s l t} : ConnRun S handler s₀ tr s → ConnStep S handler s (some l) t →
      ConnRun S handler s₀ (tr ++ [l]) t

/-! ## Without the drains -/

/-- A client that drains its connection, and one whose writes wait. -/
inductive Drains : Client (Option Q) (Option R) C A J → Client Q R C A J → Prop where
  | idle (fl : List (Nat × C)) : Drains ⟨none, fl⟩ ⟨none, fl⟩
  | running (n : Nat) (j : J) (p : Prog Q R C A) (fl : List (Nat × C)) :
      Drains ⟨some ⟨n, j, p.draining⟩, fl⟩ ⟨some ⟨n, j, p⟩, fl⟩
  | drained (n : Nat) (j : J) (c : C) (k : Bool → Prog Q R C A) :
      Drains ⟨some ⟨n, j, .send c fun b => (k b).draining⟩, []⟩ ⟨some ⟨n, j, .send c k⟩, []⟩

structure Corresponds (s' : State P D (Option Q) (Option R) C A J) (s : State P D Q R C A J) :
    Prop where
  store : s'.store = s.store
  next : s'.next = s.next
  client : ∀ p, Drains (s'.client p) (s.client p)

section
variable {c' : Client (Option Q) (Option R) C A J} {c : Client Q R C A J} {n : Nat} {j : J}

theorem Drains.inFlight (h : Drains c' c) : c'.inFlight = c.inFlight := by
  cases h <;> rfl

theorem Drains.start (h : Drains c' c) (n : Nat) (j : J) (p : Prog Q R C A) :
    Drains { c' with job := some ⟨n, j, p.draining⟩ } { c with job := some ⟨n, j, p⟩ } := by
  rw [h.inFlight]
  exact .running n j p c.inFlight

theorem Drains.stop (h : Drains c' c) :
    Drains (⟨none, c'.inFlight⟩ : Client (Option Q) (Option R) C A J) ⟨none, c.inFlight⟩ := by
  rw [h.inFlight]
  exact .idle c.inFlight

theorem Drains.exec {w : Nat × C} {rest : List (Nat × C)} (h : Drains c' c)
    (pending : c'.inFlight = w :: rest) :
    Drains { c' with inFlight := rest } { c with inFlight := rest } := by
  cases h with
  | idle => exact .idle rest
  | running n j p => exact .running n j p rest
  | drained => cases pending

theorem Drains.idle_inv (h : Drains c' c) (idle : c'.job = none) : c.job = none := by
  cases h with
  | idle => rfl
  | running | drained => cases idle

/-- A drain is that before a write. -/
theorem Drains.drain_inv {k : Option R → ConnProg Q R C A} (h : Drains c' c)
    (running : c'.job = some ⟨n, j, .query none k⟩) : ∃ w k₀, c.job = some ⟨n, j, .send w k₀⟩ ∧
      k none = .send w fun b => (k₀ b).draining := by
  cases h with
  | idle | drained => cases running
  | running n j p =>
    cases p with
    | send w k₀ =>
      cases running
      exact ⟨w, k₀, rfl, rfl⟩
    | done | halt | query => cases running

theorem Drains.read_inv {q : Q} {k : Option R → ConnProg Q R C A} (h : Drains c' c)
    (running : c'.job = some ⟨n, j, .query (some q) k⟩) :
    ∃ k₀, c.job = some ⟨n, j, .query q k₀⟩ ∧ ∀ r, k (some r) = (k₀ r).draining := by
  cases h with
  | idle | drained => cases running
  | running n j p =>
    cases p with
    | query q k₀ =>
      cases running
      exact ⟨k₀, rfl, fun _ => rfl⟩
    | done | halt | send => cases running

/-- A write comes right after its drain. -/
theorem Drains.send_inv {w : C} {k : Bool → ConnProg Q R C A} (h : Drains c' c)
    (running : c'.job = some ⟨n, j, .send w k⟩) : c'.inFlight = [] ∧
      ∃ k₀, c.job = some ⟨n, j, .send w k₀⟩ ∧ k = fun b => (k₀ b).draining := by
  cases h with
  | idle => cases running
  | running n j p => cases p <;> cases running
  | drained n j w k₀ =>
    cases running
    exact ⟨rfl, k₀, rfl, rfl⟩

theorem Drains.done_inv {a : A} (h : Drains c' c) (running : c'.job = some ⟨n, j, .done a⟩) :
    c.job = some ⟨n, j, .done a⟩ := by
  cases h with
  | idle | drained => cases running
  | running n j p =>
    cases p with
    | done a =>
      cases running
      rfl
    | halt | query | send => cases running

end

variable {S : Store D Q R C T} {handler : J → Prog Q R C A} {d : D}
  {s t : State P D Q R C A J} {s' t' : State P D (Option Q) (Option R) C A J}
  {l : Option (Label P D Q R C A J)} {tr : List (Label P D Q R C A J)}

theorem Corresponds.setClient (h : Corresponds s' s) (p : P)
    {c' : Client (Option Q) (Option R) C A J}
    {c : Client Q R C A J} (hc : Drains c' c) :
    Corresponds (s'.setClient p c') (s.setClient p c) where
  store := h.store
  next := h.next
  client := fun q => by
    by_cases hq : q = p
    · subst hq
      simpa using hc
    · simpa [hq] using h.client q

/-- A drain is no step of a client whose writes wait, and the other steps are its own. -/
theorem Corresponds.step (h : Corresponds s' s)
    (hs : ConnStep S (fun j => (handler j).draining) s' l t') :
    (l = none ∧ Corresponds t' s) ∨
      ∃ l' t, l = some l' ∧ Step S handler s l' t ∧ Corresponds t' t := by
  cases hs with
  | @accept p j idle =>
    have hc := h.setClient p ((h.client p).start s.next j (handler j))
    rw [h.next]
    exact .inr ⟨_, _, rfl, .accept j ((h.client p).idle_inv idle),
      ⟨hc.store, rfl, hc.client⟩⟩
  | @drain p n j k running drained =>
    obtain ⟨w, k₀, hjob, hk⟩ := (h.client p).drain_inv running
    have hfl := (h.client p).inFlight.symm.trans drained
    refine .inl ⟨rfl, h.store, h.next, fun q => ?_⟩
    by_cases hq : q = p
    · subst hq
      have hclient : s.client q = ⟨some ⟨n, j, .send w k₀⟩, []⟩ := by rw [← hjob, ← hfl]
      simpa [hclient, hk, drained] using Drains.drained n j w k₀
    · simpa [hq] using h.client q
  | @read p n j q k running drained =>
    obtain ⟨k₀, hjob, hk⟩ := (h.client p).read_inv running
    have hfl := (h.client p).inFlight.symm.trans drained
    have hstep : Step S handler s _ _ := .read hjob hfl
    rw [h.store, hk]
    exact .inr ⟨_, _, rfl, hstep, h.setClient p ((h.client p).start n j _)⟩
  | @send p n j w k running idle =>
    obtain ⟨_, k₀, hjob, rfl⟩ := (h.client p).send_inv running
    have hfl := (h.client p).inFlight
    have hstep : Step S handler s _ _ := .send hjob (hfl.symm.trans idle)
    refine .inr ⟨_, _, rfl, hstep, h.setClient p ?_⟩
    rw [hfl]
    exact .running n j (k₀ true) _
  | @refuse p n j w k running busy =>
    -- the client has drained its connection
    exact absurd ((h.client p).send_inv running).1 busy
  | @exec p n w rest t pending tick =>
    have hfl := (h.client p).inFlight
    have hstep : Step S handler s _ _ := .exec t (hfl.symm.trans pending) (h.store ▸ tick)
    have hc := h.setClient p ((h.client p).exec pending)
    rw [h.store]
    exact .inr ⟨_, _, rfl, hstep, ⟨rfl, hc.next, hc.client⟩⟩
  | @answer p n j a running =>
    have hjob := (h.client p).done_inv running
    exact .inr ⟨_, _, rfl, .answer hjob, h.setClient p (h.client p).stop⟩

/-- What clients that drain their connections do, clients do whose writes wait. -/
theorem ConnRun.sound (h : ConnRun S (fun j => (handler j).draining) (.start d) tr s') :
    ∃ s, Run S handler (.start d) tr s ∧ Corresponds s' s := by
  induction h with
  | start => exact ⟨_, .start, rfl, rfl, fun _ => .idle []⟩
  | silent _ hs ih =>
    obtain ⟨s, hr, hc⟩ := ih
    rcases hc.step hs with ⟨_, hc⟩ | ⟨_, _, hl, _⟩
    · exact ⟨s, hr, hc⟩
    · cases hl
  | next _ hs ih =>
    obtain ⟨s, hr, hc⟩ := ih
    rcases hc.step hs with ⟨hl, _⟩ | ⟨_, t, hl, hstep, hc⟩
    · cases hl
    · cases hl
      exact ⟨t, hr.next hstep, hc⟩

/-- **No write is refused** of a client that drains its connection. -/
theorem ConnRun.not_refused {p : P} {n : Nat} {j : J} {w : C} {k : Bool → ConnProg Q R C A}
    (h : ConnRun S (fun j => (handler j).draining) (.start d) tr s')
    (running : (s'.client p).job = some ⟨n, j, .send w k⟩) : (s'.client p).inFlight = [] := by
  obtain ⟨_, _, hc⟩ := h.sound
  exact ((hc.client p).send_inv running).1

/-! ## With the drains -/

def Client.draining (c : Client Q R C A J) : Client (Option Q) (Option R) C A J :=
  ⟨c.job.map fun job => ⟨job.id, job.req, job.prog.draining⟩, c.inFlight⟩

def State.draining (s : State P D Q R C A J) : State P D (Option Q) (Option R) C A J :=
  ⟨s.store, fun p => (s.client p).draining, s.next⟩

theorem setClient_setClient (s : State P D Q R C A J) (p : P) (c c' : Client Q R C A J) :
    (s.setClient p c).setClient p c' = s.setClient p c' := by
  simp [State.setClient]

theorem draining_setClient (s : State P D Q R C A J) (p : P) (c : Client Q R C A J) :
    (s.setClient p c).draining = s.draining.setClient p c.draining := by
  simp only [State.draining, State.setClient, State.mk.injEq, true_and, and_true]
  funext q
  by_cases hq : q = p
  · subst hq
    simp
  · simp [hq]

theorem draining_job {c : Client Q R C A J} {n : Nat} {j : J} {prog : Prog Q R C A}
    (h : c.job = some ⟨n, j, prog⟩) : c.draining.job = some ⟨n, j, prog.draining⟩ := by
  rw [Client.draining, h]
  rfl

/-- A step of a client whose writes wait, with its drain before it if it is a write. -/
theorem ConnRun.step {s₀ : State P D (Option Q) (Option R) C A J} {l : Label P D Q R C A J}
    (h : ConnRun S (fun j => (handler j).draining) s₀ tr s.draining) (hs : Step S handler s l t) :
    ConnRun S (fun j => (handler j).draining) s₀ (tr ++ [l]) t.draining := by
  cases hs with
  | @accept p j idle =>
    show ConnRun S _ s₀ _ { (s.setClient p _).draining with next := s.next + 1 }
    rw [draining_setClient]
    exact h.next (.accept j (by simp [State.draining, Client.draining, idle]))
  | @read p n j q k running drained =>
    have hread : ConnStep S (fun j => (handler j).draining) s.draining _ _ :=
      .read (q := q) (draining_job running) drained
    rw [draining_setClient]
    exact h.next hread
  | @send p n j c k running drained =>
    have hdrain := h.silent (.drain (draining_job running) drained)
    have hsend := hdrain.next (.send (p := p) (n := n) (j := j) (c := c)
      (k := fun b => (k b).draining) (by rw [setClient_client, Function.update_self])
      (by simpa [State.draining, Client.draining] using drained))
    rw [setClient_setClient, setClient_client, Function.update_self] at hsend
    rw [draining_setClient]
    exact hsend
  | @exec p n c rest t pending tick =>
    show ConnRun S _ s₀ _ { (s.setClient p _).draining with store := _ }
    rw [draining_setClient]
    exact h.next (.exec t pending tick)
  | answer running =>
    rw [draining_setClient]
    exact h.next (.answer (draining_job running))

/-- What clients do whose writes wait, clients do that drain their connections. -/
theorem ConnRun.complete (h : Run S handler (.start d) tr s) :
    ConnRun S (fun j => (handler j).draining) (.start d) tr s.draining := by
  induction h with
  | start => exact .start
  | next _ hs ih => exact ih.step hs

/-- **Draining is waiting.** -/
theorem connRun_iff {d' : D} :
    (∃ s', ConnRun S (fun j => (handler j).draining) (.start d) tr s' ∧ s'.store = d') ↔
      ∃ s, Run S handler (.start d) tr s ∧ s.store = d' := by
  constructor
  · rintro ⟨s', h, rfl⟩
    obtain ⟨s, hr, hc⟩ := h.sound
    exact ⟨s, hr, hc.store.symm⟩
  · rintro ⟨s, h, rfl⟩
    exact ⟨s.draining, .complete h, rfl⟩

end

end Pipeline
