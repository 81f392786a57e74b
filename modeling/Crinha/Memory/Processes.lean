import Crinha.Memory.Refine
import Crinha.Pipeline.System
import Mathlib.Data.List.Forall2

/-!
# Processes with a memory of their own

* `LocalRun.sound`, `LocalRun.complete`: if every request mirrors one without memory and
  gives the memory back, the runs are those without memory.
-/

namespace Memory
open Pipeline

variable {P D Q R C A A' J J' T : Type}

/-! ## Systems that mirror each other -/

/-- The same deed, up to how requests and answers are related. -/
def SameDeed (jobs : J → J' → Prop) (results : A → A' → Prop) :
    Deed D Q R C A J → Deed D Q R C A' J' → Prop
  | .accept j, .accept j' => jobs j j'
  | .read q r, .read q' r' => q = q' ∧ r = r'
  | .sent c, .sent c' => c = c'
  | .exec c d, .exec c' d' => c = c' ∧ d = d'
  | .answer a, .answer a' => results a a'
  | _, _ => False

theorem SameDeed.of_accept {jobs : J → J' → Prop} {results : A → A' → Prop} {j : J} :
    ∀ {deed : Deed D Q R C A' J'}, SameDeed jobs results (.accept j : Deed D Q R C A J) deed →
      ∃ j', deed = .accept j' ∧ jobs j j'
  | .accept j', h => ⟨j', rfl, h⟩

theorem SameDeed.of_answer {jobs : J → J' → Prop} {results : A → A' → Prop} {a : A} :
    ∀ {deed : Deed D Q R C A' J'}, SameDeed jobs results (.answer a : Deed D Q R C A J) deed →
      ∃ a', deed = .answer a' ∧ results a a'
  | .answer a', h => ⟨a', rfl, h⟩

structure SameLabel (jobs : P → J → J' → Prop) (results : P → A → A' → Prop)
    (l : Label P D Q R C A J) (l' : Label P D Q R C A' J') : Prop where
  proc : l.proc = l'.proc
  id : l.id = l'.id
  deed : SameDeed (jobs l.proc) (results l.proc) l.deed l'.deed

structure SameJob (legal : Q → R → Prop) (results : A → A' → Prop) (job : Job Q R C A J)
    (job' : Job Q R C A' J') : Prop where
  id : job.id = job'.id
  prog : Mirrors legal results job.prog job'.prog

/-- The same store, and the same left to do for every client. -/
structure SameState (legal : Q → R → Prop) (results : P → A → A' → Prop)
    (s : State P D Q R C A J) (s' : State P D Q R C A' J') : Prop where
  store : s.store = s'.store
  next : s.next = s'.next
  inFlight : ∀ p, (s.client p).inFlight = (s'.client p).inFlight
  job : ∀ p, Option.Rel (SameJob legal (results p)) (s.client p).job (s'.client p).job

section
variable {legal : Q → R → Prop} {jobs : P → J → J' → Prop} {results : P → A → A' → Prop}
  {S : Store D Q R C T} {handler : J → Prog Q R C A} {handler' : J' → Prog Q R C A'}
  {s t : State P D Q R C A J} {s' : State P D Q R C A' J'}

theorem SameLabel.symm {l : Label P D Q R C A J} {l' : Label P D Q R C A' J'}
    (h : SameLabel jobs results l l') :
    SameLabel (fun p j' j => jobs p j j') (fun p a' a => results p a a') l' l := by
  obtain ⟨hp, hi, hd⟩ := h
  refine ⟨hp.symm, hi.symm, ?_⟩
  rw [hp] at hd
  revert hd
  cases l.deed <;> cases l'.deed <;> simp [SameDeed, eq_comm]

theorem SameState.start (d : D) :
    SameState legal results (.start d : State P D Q R C A J) (.start d : State P D Q R C A' J') :=
  ⟨rfl, rfl, fun _ => rfl, fun _ => .none⟩

theorem SameState.symm (h : SameState legal results s s') :
    SameState legal (fun p a' a => results p a a') s' s := by
  refine ⟨h.store.symm, h.next.symm, fun p => (h.inFlight p).symm, fun p => ?_⟩
  have hj := h.job p
  generalize (s.client p).job = o, (s'.client p).job = o' at hj
  cases hj with
  | some hs => exact .some ⟨hs.id.symm, hs.prog.symm⟩
  | none => exact .none

theorem SameState.setClient [DecidableEq P] (h : SameState legal results s s') {p : P}
    {c : Client Q R C A J} {d : Client Q R C A' J'} (hf : c.inFlight = d.inFlight)
    (hj : Option.Rel (SameJob legal (results p)) c.job d.job) :
    SameState legal results (s.setClient p c) (s'.setClient p d) := by
  refine ⟨h.store, h.next, fun p' => ?_, fun p' => ?_⟩
  · by_cases hp : p' = p
    · subst hp
      simpa using hf
    · simpa [Function.update_of_ne hp] using h.inFlight p'
  · by_cases hp : p' = p
    · subst hp
      simpa using hj
    · simpa [Function.update_of_ne hp] using h.job p'

/-- What a client's running request mirrors. -/
theorem SameState.running (h : SameState legal results s s') {p : P} {job : Job Q R C A J}
    (hj : (s.client p).job = some job) :
    ∃ job', (s'.client p).job = some job' ∧ SameJob legal (results p) job job' := by
  have hrel := h.job p
  rw [hj] at hrel
  generalize (s'.client p).job = o at hrel
  cases hrel with
  | some hs => exact ⟨_, rfl, hs⟩

theorem SameState.idle (h : SameState legal results s s') {p : P} (hj : (s.client p).job = none) :
    (s'.client p).job = none := by
  have hrel := h.job p
  rw [hj] at hrel
  generalize (s'.client p).job = o at hrel
  cases hrel
  rfl

theorem SameState.step [DecidableEq P] (hh : ∀ p j j', jobs p j j' →
      Mirrors legal (results p) (handler j) (handler' j')) (h : SameState legal results s s')
    (hl : ∀ q, legal q (S.answer s.store q)) {l : Label P D Q R C A J}
    (hs : Step S handler s l t) (hj : ∀ j, l.deed = .accept j → ∃ j', jobs l.proc j j') :
    ∃ l' t', Step S handler' s' l' t' ∧ SameLabel jobs results l l' ∧
      SameState legal results t t' := by
  cases hs with
  | @accept p j idle =>
    obtain ⟨j', hjobs⟩ := hj j rfl
    have ht := h.setClient (p := p) (c := { s.client p with job := some ⟨s.next, j, handler j⟩ })
      (d := { s'.client p with job := some ⟨s'.next, j', handler' j'⟩ }) (h.inFlight p)
      (.some ⟨h.next, hh p j j' hjobs⟩)
    exact ⟨⟨p, s'.next, .accept j'⟩, _, .accept j' (h.idle idle), ⟨rfl, h.next, hjobs⟩,
      ⟨ht.store, congrArg (· + 1) h.next, ht.inFlight, ht.job⟩⟩
  | @read p n j q k running drained =>
    obtain ⟨⟨n', j', prog'⟩, hr, ⟨rfl, hprog⟩⟩ := h.running running
    cases prog' with
    | query q' k' =>
      obtain ⟨rfl, hk⟩ := hprog
      have hl := hl q
      rw [h.store] at hl ⊢
      exact ⟨_, _, .read hr (h.inFlight p ▸ drained), ⟨rfl, rfl, rfl, rfl⟩,
        h.setClient (h.inFlight p) (.some ⟨rfl, hk _ hl⟩)⟩
    | done | halt | send => exact hprog.elim
  | @send p n j c k running drained =>
    obtain ⟨⟨n', j', prog'⟩, hr, ⟨rfl, hprog⟩⟩ := h.running running
    cases prog' with
    | send c' k' =>
      obtain ⟨rfl, hk⟩ := hprog
      exact ⟨_, _, .send hr (h.inFlight p ▸ drained), ⟨rfl, rfl, rfl⟩,
        h.setClient (by rw [h.inFlight p]) (.some ⟨rfl, hk true⟩)⟩
    | done | halt | query => exact hprog.elim
  | @exec p n c rest τ pending tick =>
    have ht := h.setClient (p := p) (c := { s.client p with inFlight := rest })
      (d := { s'.client p with inFlight := rest }) rfl (h.job p)
    rw [h.store] at tick ⊢
    exact ⟨⟨p, n, .exec c (S.run τ c s'.store)⟩, _, .exec τ (h.inFlight p ▸ pending) tick,
      ⟨rfl, rfl, rfl, rfl⟩, ⟨rfl, ht.next, ht.inFlight, ht.job⟩⟩
  | @answer p n j a running =>
    obtain ⟨⟨n', j', prog'⟩, hr, ⟨rfl, hprog⟩⟩ := h.running running
    cases prog' with
    | done a' => exact ⟨_, _, .answer hr, ⟨rfl, rfl, hprog⟩, h.setClient (h.inFlight p) .none⟩
    | halt | query | send => exact hprog.elim

end

/-! ## Clients with a memory -/

variable {M : Type} [DecidableEq P]

/-- Whether a step is one between a request's acceptance and its answer. -/
def Between : Deed D Q R C A J → Prop
  | .accept _ | .answer _ => False
  | .read .. | .sent _ | .exec .. => True

/-- `m₀` is the memory each client starts with; the requests and answers of the trace
are given with the memory they start from and leave. -/
inductive LocalRun (S : Store D Q R C T) (handler : J → M → Prog Q R C (A × M)) (d : D)
    (m₀ : P → M) : List (Label P D Q R C (A × M) (J × M)) →
      State P D Q R C (A × M) (J × M) → (P → M) → Prop where
  | start : LocalRun S handler d m₀ [] (.start d) m₀
  | accept {tr s m t} (p : P) (j : J) : LocalRun S handler d m₀ tr s m →
      Step S (fun x => handler x.1 x.2) s ⟨p, s.next, .accept (j, m p)⟩ t →
      LocalRun S handler d m₀ (tr ++ [⟨p, s.next, .accept (j, m p)⟩]) t m
  | between {tr s m l t} : LocalRun S handler d m₀ tr s m →
      Step S (fun x => handler x.1 x.2) s l t → Between l.deed →
      LocalRun S handler d m₀ (tr ++ [l]) t m
  | answer {tr s m t p n a x} : LocalRun S handler d m₀ tr s m →
      Step S (fun x => handler x.1 x.2) s ⟨p, n, .answer (a, x)⟩ t →
      LocalRun S handler d m₀ (tr ++ [⟨p, n, .answer (a, x)⟩]) t (Function.update m p x)

/-- A request on the memory `m₀` of its client. -/
def StartsWith (m₀ : P → M) (p : P) (x : J × M) (j : J) : Prop := x = (j, m₀ p)

/-- An answer that is related and gives `m₀` back. -/
def GivesBack (φ : A → A' → Prop) (m₀ : P → M) (p : P) (x : A × M) (a' : A') : Prop :=
  φ x.1 a' ∧ x.2 = m₀ p

variable {legal : Q → R → Prop} {φ : A → A' → Prop} {m₀ m : P → M} {S : Store D Q R C T}
  {handler : J → M → Prog Q R C (A × M)} {handler' : J → Prog Q R C A'} {d : D}
  {tr : List (Label P D Q R C (A × M) (J × M))} {s : State P D Q R C (A × M) (J × M)}
  {tr' : List (Label P D Q R C A' J)} {s' : State P D Q R C A' J}

/-- **Requests that mirror requests without memory, and give the memory back, run as
they do**: the same steps, the same store, related answers; and each client's memory is
always the one it started with. -/
theorem LocalRun.sound
    (hh : ∀ j p, Mirrors legal (GivesBack φ m₀ p) (handler j (m₀ p)) (handler' j))
    (hl : ∀ {tr'} {s' : State P D Q R C A' J}, Run S handler' (.start d) tr' s' →
      ∀ q, legal q (S.answer s'.store q)) (h : LocalRun S handler d m₀ tr s m) :
    m = m₀ ∧ ∃ tr' s', Run S handler' (.start d) tr' s' ∧
      List.Forall₂ (SameLabel (StartsWith m₀) (GivesBack φ m₀)) tr tr' ∧
      SameState legal (GivesBack φ m₀) s s' := by
  have hm : ∀ p x j, StartsWith m₀ p x j →
      Mirrors legal (GivesBack φ m₀ p) (handler x.1 x.2) (handler' j) := by
    rintro p _ j rfl
    exact hh j p
  induction h with
  | start => exact ⟨rfl, [], .start d, .start, .nil, .start d⟩
  | accept p j _ hs ih =>
    obtain ⟨rfl, tr', s', hr, htr, hsame⟩ := ih
    obtain ⟨l', t', hs', hlabel, ht⟩ := hsame.step hm (hsame.store ▸ hl hr) hs
      (fun _ hd => ⟨j, by cases hd; rfl⟩)
    exact ⟨rfl, _, t', hr.next hs', List.rel_append htr (.cons hlabel .nil), ht⟩
  | between _ hs hb ih =>
    obtain ⟨rfl, tr', s', hr, htr, hsame⟩ := ih
    obtain ⟨l', t', hs', hlabel, ht⟩ := hsame.step hm (hsame.store ▸ hl hr) hs
      (fun _ hd => by rw [hd] at hb; exact hb.elim)
    exact ⟨rfl, _, t', hr.next hs', List.rel_append htr (.cons hlabel .nil), ht⟩
  | @answer _ _ m _ p _ a x _ hs ih =>
    obtain ⟨rfl, tr', s', hr, htr, hsame⟩ := ih
    obtain ⟨l', t', hs', hlabel, ht⟩ := hsame.step hm (hsame.store ▸ hl hr) hs
      (fun _ hd => by cases hd)
    obtain ⟨_, -, -, hx⟩ := hlabel.deed.of_answer
    obtain rfl : x = m p := hx
    exact ⟨Function.update_eq_self p m, _, t', hr.next hs', List.rel_append htr (.cons hlabel .nil),
      ht⟩

/-- **And every run without memory is one of them**, whatever the memories. -/
theorem LocalRun.complete
    (hh : ∀ j p, Mirrors legal (GivesBack φ m₀ p) (handler j (m₀ p)) (handler' j))
    (hl : ∀ {tr'} {s' : State P D Q R C A' J}, Run S handler' (.start d) tr' s' →
      ∀ q, legal q (S.answer s'.store q)) (h : Run S handler' (.start d) tr' s') :
    ∃ tr s, LocalRun S handler d m₀ tr s m₀ ∧
      List.Forall₂ (SameLabel (StartsWith m₀) (GivesBack φ m₀)) tr tr' ∧
      SameState legal (GivesBack φ m₀) s s' := by
  have hm : ∀ p j x, StartsWith m₀ p x j →
      Mirrors legal (fun a' x => GivesBack φ m₀ p x a') (handler' j) (handler x.1 x.2) := by
    rintro p j _ rfl
    exact (hh j p).symm
  induction h with
  | start => exact ⟨[], .start d, .start, .nil, .start d⟩
  | @next tr' s' l' t' hr hs ih =>
    obtain ⟨tr, s, hlocal, htr, hsame⟩ := ih
    obtain ⟨l, t, hs', hlabel, ht⟩ := hsame.symm.step
      hm (hl hr) hs (fun j _ => ⟨(j, m₀ l'.proc), rfl⟩)
    refine ⟨tr ++ [l], t, ?_, List.rel_append htr (.cons hlabel.symm .nil), ht.symm⟩
    obtain ⟨p, n, deed⟩ := l
    cases deed with
    | accept x =>
      obtain ⟨j, -, hx⟩ := hlabel.symm.deed.of_accept
      obtain rfl : x = (j, m₀ p) := hx
      cases hs' with
      | accept _ idle => exact hlocal.accept p _ (.accept _ idle)
    | read | sent | exec => exact hlocal.between hs' trivial
    | answer x =>
      obtain ⟨a, x⟩ := x
      obtain ⟨_, -, -, hx⟩ := hlabel.symm.deed.of_answer
      obtain rfl : x = m₀ p := hx
      simpa using hlocal.answer hs'

end Memory
