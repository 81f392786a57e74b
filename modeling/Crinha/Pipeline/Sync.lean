import Mathlib.Data.List.Forall2
import Crinha.Pipeline.System

/-!
# Synchronous execution, and pipelining by a single client

* `run_serve`: a single client at rest was served as if every write were executed at once;
* `Serve.alike`: such services on similar stores give similar results.
-/

namespace Pipeline

section
variable {D Q R C A J T : Type}

/-- A program run to its end with every write executed at once; `none` is a crash. -/
inductive Eval (S : Store D Q R C T) : D → Prog Q R C A → Option A → D → Prop where
  | done (d : D) (a : A) : Eval S d (.done a) (some a) d
  | halt (d : D) : Eval S d .halt none d
  | query {d d' q k o} : Eval S d (k (S.answer d q)) o d' → Eval S d (.query q k) o d'
  | send {d d' c k o} (t : T) : S.tick d t → Eval S ((S.run t c d).getD d) (k true) o d' →
      Eval S d (.send c k) o d'

/-- Requests served one after another. A crash ends the service. -/
inductive Serve (S : Store D Q R C T) (handler : J → Prog Q R C A) :
    D → List J → List A → D → Prop where
  | nil (d : D) : Serve S handler d [] [] d
  | cons {d d₁ d' j js a as} : Eval S d (handler j) (some a) d₁ → Serve S handler d₁ js as d' →
      Serve S handler d (j :: js) (a :: as) d'
  | crash {d d' j} : Eval S d (handler j) none d' → Serve S handler d [j] [] d'

variable {S : Store D Q R C T} {handler : J → Prog Q R C A}

/-! ## One pipelining client -/

/-- The requests accepted in a trace. -/
def requests (tr : List (Label Unit D Q R C A J)) : List J :=
  tr.filterMap fun l => match l.deed with | .accept j => some j | _ => none

theorem mem_requests {tr : List (Label Unit D Q R C A J)} {l : Label Unit D Q R C A J} {j : J}
    (h : l ∈ tr) (hj : l.deed = .accept j) : j ∈ requests tr :=
  List.mem_filterMap.mpr ⟨l, h, by rw [hj]⟩

/-- The answers given in a trace. -/
def answers (tr : List (Label Unit D Q R C A J)) : List A :=
  tr.filterMap fun l => match l.deed with | .answer a => some a | _ => none

/-- At rest: nothing in flight, and no request running unless it has crashed. -/
def AtRest (c : Client Q R C A J) : Prop :=
  c.inFlight = [] ∧ ∀ n j prog, c.job = some ⟨n, j, prog⟩ → prog = .halt

/-- `d'` is `d` once the write in flight, if any, is executed. -/
def Flush (S : Store D Q R C T) (fl : List (Nat × C)) (d d' : D) : Prop :=
  match fl with
  | [] => d' = d
  | (_, c) :: _ => ∃ t, S.tick d t ∧ d' = (S.run t c d).getD d

/-- The rest of a service, synchronously: the running request, then those to come. -/
def Finish (S : Store D Q R C T) (handler : J → Prog Q R C A) (d : D) (js : List J) (as : List A)
    (d' : D) : Option (Job Q R C A J) → Prop
  | none => Serve S handler d js as d'
  | some job => (∃ a as' d₁, as = a :: as' ∧ Eval S d job.prog (some a) d₁ ∧
      Serve S handler d₁ js as' d') ∨ js = [] ∧ as = [] ∧ Eval S d job.prog none d'

theorem finish_of_eval {d d₀ d' : D} {js : List J} {as : List A} {job job' : Job Q R C A J}
    (h : ∀ o d₁, Eval S d job.prog o d₁ → Eval S d₀ job'.prog o d₁)
    (hf : Finish S handler d js as d' (some job)) : Finish S handler d₀ js as d' (some job') := by
  rcases hf with ⟨a, as', d₁, rfl, he, hs⟩ | ⟨rfl, rfl, he⟩
  · exact .inl ⟨a, as', d₁, rfl, h _ _ he, hs⟩
  · exact .inr ⟨rfl, rfl, h _ _ he⟩

/-- Whatever a single client has left to do, from any of its states, it does as a
synchronous service would once the write in flight is executed. -/
theorem run_finish {s : State Unit D Q R C A J} (rest : AtRest (s.client ())) :
    ∀ {tr : List (Label Unit D Q R C A J)} {s₀ : State Unit D Q R C A J},
      Run S handler s₀ tr s → (s₀.client ()).inFlight.length ≤ 1 →
        ∃ d, Flush S (s₀.client ()).inFlight s₀.store d ∧
          Finish S handler d (requests tr) (answers tr) s.store (s₀.client ()).job
  | [], s₀, h, _ => by
    obtain rfl := run_nil h
    refine ⟨s.store, by rw [rest.1]; rfl, ?_⟩
    cases hj : (s.client ()).job with
    | none => exact .nil _
    | some job => exact .inr ⟨rfl, rfl, by rw [rest.2 _ _ _ hj]; exact .halt _⟩
  | l :: tr, s₀, h, hle => by
    obtain ⟨s₁, hs, hr⟩ := h.head
    cases hs with
    | accept j idle =>
      obtain ⟨d, hd, hf⟩ := run_finish rest hr (by simpa using hle)
      refine ⟨d, by simpa using hd, ?_⟩
      simp only [setClient_client, Function.update_self] at hf
      rw [idle]
      show Serve S handler d (j :: requests tr) (answers tr) s.store
      rcases hf with ⟨a, as, d₁, ha, he, hserve⟩ | ⟨hj, ha, he⟩
      · rw [ha]
        exact .cons he hserve
      · rw [hj, ha]
        exact .crash he
    | read running drained =>
      obtain ⟨d, hd, hf⟩ := run_finish rest hr (by simpa using hle)
      simp only [setClient_client, setClient_store, Function.update_self, drained, Flush] at hd hf
      subst hd
      exact ⟨_, by rw [drained]; rfl, by rw [running]; exact finish_of_eval (fun _ _ => .query) hf⟩
    | send running drained =>
      obtain ⟨d, hd, hf⟩ := run_finish rest hr (by simp [drained])
      simp only [setClient_client, setClient_store, Function.update_self, drained,
        List.nil_append, Flush] at hd hf
      obtain ⟨t, tick, rfl⟩ := hd
      exact ⟨_, by rw [drained]; rfl,
        by rw [running]; exact finish_of_eval (fun _ _ => .send t tick) hf⟩
    | exec t pending tick =>
      rename_i n c fl
      simp only [pending, List.length_cons] at hle
      obtain rfl : fl = [] := List.eq_nil_of_length_eq_zero (by omega)
      obtain ⟨d, hd, hf⟩ := run_finish rest hr (by simp)
      simp only [setClient_client, Function.update_self, Flush] at hd hf
      subst hd
      exact ⟨_, by rw [pending]; exact ⟨t, tick, rfl⟩, hf⟩
    | answer running =>
      obtain ⟨d, hd, hf⟩ := run_finish rest hr (by simpa using hle)
      simp only [setClient_client, Function.update_self] at hf
      refine ⟨d, by simpa using hd, ?_⟩
      rw [running]
      exact .inl ⟨_, _, d, rfl, .done _ _, hf⟩

/-- **Pipelining by a single client is invisible.** A run that has come to rest
is a synchronous service with the same requests, answers and final store. -/
theorem run_serve {d : D} {tr : List (Label Unit D Q R C A J)} {s : State Unit D Q R C A J}
    (h : Run S handler (.start d) tr s) (rest : AtRest (s.client ())) :
    Serve S handler d (requests tr) (answers tr) s.store := by
  obtain ⟨d', hd, hf⟩ := run_finish rest h (Nat.zero_le _)
  obtain rfl : d' = d := hd
  exact hf

/-! ## Similar stores give similar services -/

/-- A relation of stores that reads, and the writes in `writes`, respect. -/
structure Similar (S : Store D Q R C T) (writes : C → Prop) (stores : D → D → Prop)
    (reads : R → R → Prop) : Prop where
  answer : ∀ {d d'} (q : Q), stores d d' → reads (S.answer d q) (S.answer d' q)
  run : ∀ {d d' t t' c}, writes c → stores d d' → S.tick d t → S.tick d' t' →
    stores ((S.run t c d).getD d) ((S.run t' c d').getD d')

variable {writes : C → Prop} {stores : D → D → Prop} {reads : R → R → Prop} {results : A → A → Prop}

theorem Eval.alike (hs : Similar S writes stores reads) {d d' d₁ d₁' : D} {p p' : Prog Q R C A}
    {o o' : Option A} (h : Eval S d p o d₁) (h' : Eval S d' p' o' d₁') (hd : stores d d')
    (hp : p.Alike writes reads results p') : Option.Rel results o o' ∧ stores d₁ d₁' := by
  induction h generalizing d' p' with
  | done d a =>
    cases h' <;> simp only [Prog.Alike] at hp
    exact ⟨.some hp, hd⟩
  | halt d =>
    cases h' <;> simp only [Prog.Alike] at hp
    exact ⟨.none, hd⟩
  | query _ ih =>
    cases h' <;> simp only [Prog.Alike] at hp
    rename_i he'
    obtain ⟨rfl, hk⟩ := hp
    exact ih he' hd (hk _ _ (hs.answer _ hd))
  | send t tick _ ih =>
    cases h' <;> simp only [Prog.Alike] at hp
    rename_i t' tick' he'
    obtain ⟨rfl, hw, hk⟩ := hp
    exact ih he' (hs.run hw hd tick tick') (hk true)

/-- Two synchronous services of alike requests on similar stores give related
answers and leave similar stores. -/
theorem Serve.alike (hs : Similar S writes stores reads) {reqs : J → J → Prop}
    (hh : ∀ j j', reqs j j' → (handler j).Alike writes reads results (handler j'))
    {d d' d₁ d₁' : D} {js js' : List J} {as as' : List A} (h : Serve S handler d js as d₁)
    (h' : Serve S handler d' js' as' d₁') (hd : stores d d') (hj : List.Forall₂ reqs js js') :
    List.Forall₂ results as as' ∧ stores d₁ d₁' := by
  induction h generalizing d' js' as' with
  | nil d =>
    cases hj
    cases h'
    exact ⟨.nil, hd⟩
  | cons he _ ih =>
    cases hj with
    | cons hj hjs =>
      cases h' with
      | cons he' hs' =>
        obtain ⟨hr, hd₁⟩ := he.alike hs he' hd (hh _ _ hj)
        obtain ⟨hrs, hd'⟩ := ih hs' hd₁ hjs
        cases hr with
        | some hr => exact ⟨.cons hr hrs, hd'⟩
      | crash he' => cases (he.alike hs he' hd (hh _ _ hj)).1
  | crash he =>
    cases hj with
    | cons hj hjs =>
      cases h' with
      | cons he' _ => cases (he.alike hs he' hd (hh _ _ hj)).1
      | crash he' => exact ⟨.nil, (he.alike hs he' hd (hh _ _ hj)).2⟩

end

end Pipeline
