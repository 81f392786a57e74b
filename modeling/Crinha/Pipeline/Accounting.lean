import Crinha.Pipeline.System

/-!
# What each request did

* `run_track`: its acts are those that its program allows;
* `execsOf_drained`: each write is executed once, when its connection has drained.
-/

namespace Pipeline

section
variable {P D Q R C A J T : Type} [DecidableEq P]

def Deed.act? : Deed D Q R C A J → Option (Act Q R C)
  | .read q r => some (.asked q r)
  | .sent c => some (.sent c)
  | _ => none

def Deed.outcome? : Deed D Q R C A J → Option (C × Option D)
  | .exec c d => some (c, d)
  | _ => none

def Deed.answer? : Deed D Q R C A J → Option A
  | .answer a => some a
  | _ => none

def Act.sent? : Act Q R C → Option C
  | .sent c => some c
  | .asked _ _ => none

/-- The reads and writes of request `n` of client `p`, in order. -/
def actsOf (tr : List (Label P D Q R C A J)) (p : P) (n : Nat) : List (Act Q R C) :=
  tr.filterMap fun l => if l.proc = p ∧ l.id = n then l.deed.act? else none

/-- The executions of writes of request `n` of client `p`, with their outcomes. -/
def execsOf (tr : List (Label P D Q R C A J)) (p : P) (n : Nat) : List (C × Option D) :=
  tr.filterMap fun l => if l.proc = p ∧ l.id = n then l.deed.outcome? else none

/-- The answers to request `n` of client `p`. -/
def answersOf (tr : List (Label P D Q R C A J)) (p : P) (n : Nat) : List A :=
  tr.filterMap fun l => if l.proc = p ∧ l.id = n then l.deed.answer? else none

@[simp] theorem actsOf_nil (p : P) (n : Nat) :
    actsOf ([] : List (Label P D Q R C A J)) p n = [] := rfl

theorem actsOf_snoc (tr : List (Label P D Q R C A J)) (l : Label P D Q R C A J) (p : P) (n : Nat) :
    actsOf (tr ++ [l]) p n =
      actsOf tr p n ++ if l.proc = p ∧ l.id = n then l.deed.act?.toList else [] := by
  by_cases hp : l.proc = p ∧ l.id = n <;> cases h : l.deed.act? <;> simp [actsOf, hp, h]

theorem actsOf_append (a b : List (Label P D Q R C A J)) (p : P) (n : Nat) :
    actsOf (a ++ b) p n = actsOf a p n ++ actsOf b p n :=
  List.filterMap_append

/-- What is recorded of the deeds of a request, if only one kind of deed is recorded so. -/
theorem mem_recorded {X : Type} {f : Deed D Q R C A J → Option X} {x : X} {deed : Deed D Q R C A J}
    (hf : ∀ e, f e = some x ↔ e = deed) {tr : List (Label P D Q R C A J)} {p : P} {n : Nat} :
    (x ∈ tr.filterMap fun l => if l.proc = p ∧ l.id = n then f l.deed else none) ↔
      ⟨p, n, deed⟩ ∈ tr := by
  rw [List.mem_filterMap]
  constructor
  · rintro ⟨⟨q, m, e⟩, hl, h⟩
    split at h
    · rename_i same
      obtain ⟨rfl, rfl⟩ := same
      obtain rfl := (hf e).mp h
      exact hl
    · cases h
  · intro hl
    exact ⟨_, hl, by rw [if_pos ⟨rfl, rfl⟩, (hf deed).mpr rfl]⟩

theorem sent_mem_actsOf {tr : List (Label P D Q R C A J)} {p : P} {n : Nat} {c : C} :
    .sent c ∈ actsOf tr p n ↔ ⟨p, n, .sent c⟩ ∈ tr :=
  mem_recorded fun e => by cases e <;> simp [Deed.act?]

theorem asked_mem_actsOf {tr : List (Label P D Q R C A J)} {p : P} {n : Nat} {q : Q} {r : R} :
    .asked q r ∈ actsOf tr p n ↔ ⟨p, n, .read q r⟩ ∈ tr :=
  mem_recorded fun e => by cases e <;> simp [Deed.act?]

theorem mem_execsOf {tr : List (Label P D Q R C A J)} {p : P} {n : Nat} {c : C} {d : Option D} :
    (c, d) ∈ execsOf tr p n ↔ ⟨p, n, .exec c d⟩ ∈ tr :=
  mem_recorded fun e => by cases e <;> simp [Deed.outcome?]

theorem mem_answersOf {tr : List (Label P D Q R C A J)} {p : P} {n : Nat} {a : A} :
    a ∈ answersOf tr p n ↔ ⟨p, n, .answer a⟩ ∈ tr :=
  mem_recorded fun e => by cases e <;> simp [Deed.answer?]

/-- Nothing is recorded for a request number that no label carries. -/
theorem actsOf_fresh {tr : List (Label P D Q R C A J)} {p : P} {n : Nat}
    (h : ∀ l ∈ tr, l.id < n) : actsOf tr p n = [] := by
  apply List.filterMap_eq_nil_iff.mpr
  intro l hl
  have := h l hl
  simp [show l.id ≠ n by omega]

variable {S : Store D Q R C T} {handler : J → Prog Q R C A} {s : State P D Q R C A J}
  {tr : List (Label P D Q R C A J)}

/-! ## Requests follow their programs -/

/-- What the acts recorded so far say about the requests of a run, given what
their programs meet. -/
structure Track (pre : J → List (Act Q R C) → Prop) (post : J → List (Act Q R C) → A → Prop)
    (tr : List (Label P D Q R C A J)) (s : State P D Q R C A J) : Prop where
  ids : ∀ l ∈ tr, l.id < s.next
  accepted : ∀ {p p' n j j'}, ⟨p, n, .accept j⟩ ∈ tr → ⟨p', n, .accept j'⟩ ∈ tr → p = p' ∧ j = j'
  pending : ∀ {p n c}, (n, c) ∈ (s.client p).inFlight → ⟨p, n, .sent c⟩ ∈ tr
  running : ∀ {p n j prog}, (s.client p).job = some ⟨n, j, prog⟩ →
    ⟨p, n, .accept j⟩ ∈ tr ∧ prog.Meets (pre j) (post j) (actsOf tr p n) ∧
    ∀ a, ⟨p, n, .answer a⟩ ∉ tr
  answered : ∀ {p n a}, ⟨p, n, .answer a⟩ ∈ tr →
    ∃ j, ⟨p, n, .accept j⟩ ∈ tr ∧ post j (actsOf tr p n) a
  sent : ∀ {p n past c rest}, actsOf tr p n = past ++ .sent c :: rest →
    ∃ j, ⟨p, n, .accept j⟩ ∈ tr ∧ pre j (past ++ [.sent c])

variable {pre : J → List (Act Q R C) → Prop} {post : J → List (Act Q R C) → A → Prop}
  {t : State P D Q R C A J} {l : Label P D Q R C A J}

theorem track_start (d : D) : Track pre post [] (.start d : State P D Q R C A J) := by
  constructor <;> intros <;> simp_all [State.start]

/-- An accept takes a new number; every other label is one of a request
accepted before. -/
theorem Track.known (h : Track pre post tr s) (hs : Step S handler s l t) :
    l.id = s.next ∧ (∃ j, l.deed = .accept j) ∨ l.id < s.next ∧ ∀ j, l.deed ≠ .accept j := by
  cases hs with
  | accept j => exact .inl ⟨rfl, j, rfl⟩
  | read running => exact .inr ⟨by simpa using h.ids _ (h.running running).1, by simp⟩
  | send running => exact .inr ⟨by simpa using h.ids _ (h.running running).1, by simp⟩
  | exec _ pending =>
    have hm := h.pending (by rw [pending]; exact List.mem_cons_self)
    exact .inr ⟨by simpa using h.ids _ hm, by simp⟩
  | answer running => exact .inr ⟨by simpa using h.ids _ (h.running running).1, by simp⟩

theorem Step.next_eq (hs : Step S handler s l t) :
    t.next = s.next ∨ t.next = s.next + 1 := by
  cases hs <;> simp

theorem Track.ids_step (h : Track pre post tr s) (hs : Step S handler s l t) :
    ∀ m ∈ tr ++ [l], m.id < t.next := by
  intro m hm
  have hn := hs.next_eq
  rcases List.mem_append.mp hm with hm | hm
  · have := h.ids m hm
    omega
  · obtain rfl := List.mem_singleton.mp hm
    rcases h.known hs with ⟨hk, j, hj⟩ | ⟨hk, _⟩
    · cases hs <;> simp_all
    · omega

theorem Track.accepted_step (h : Track pre post tr s) (hs : Step S handler s l t)
    {p p' : P} {n : Nat} {j j' : J} (ha : ⟨p, n, .accept j⟩ ∈ tr ++ [l])
    (ha' : ⟨p', n, .accept j'⟩ ∈ tr ++ [l]) : p = p' ∧ j = j' := by
  simp only [List.mem_append, List.mem_singleton] at ha ha'
  have fresh {q : P} {i : J} (e : ⟨q, n, .accept i⟩ = l) : n = s.next := by
    subst e
    rcases h.known hs with ⟨hk, _⟩ | ⟨_, hk⟩
    · exact hk
    · exact absurd rfl (hk i)
  rcases ha with ha | ha <;> rcases ha' with ha' | ha'
  · exact h.accepted ha ha'
  · have := h.ids _ ha
    have := fresh ha'
    simp_all
  · have := h.ids _ ha'
    have := fresh ha
    simp_all
  · have e := ha.trans ha'.symm
    simp only [Label.mk.injEq, Deed.accept.injEq, true_and] at e
    exact e

theorem Track.pending_step (h : Track pre post tr s) (hs : Step S handler s l t)
    {p : P} {n : Nat} {c : C} (hc : (n, c) ∈ (t.client p).inFlight) :
    ⟨p, n, .sent c⟩ ∈ tr ++ [l] := by
  by_cases hp : p = l.proc
  · subst hp
    cases hs with
    | accept | read | answer => exact List.mem_append_left _ (h.pending (by simpa using hc))
    | send _ drained => simp_all
    | exec _ pending =>
      refine List.mem_append_left _ (h.pending ?_)
      rw [pending]
      exact List.mem_cons_of_mem _ (by simpa using hc)
  · rw [hs.other hp] at hc
    exact List.mem_append_left _ (h.pending hc)

/-- Only the running request of the stepping client gains acts. -/
theorem Step.acts (hs : Step S handler s l t) :
    l.deed.act? = none ∨ ∃ j prog, (s.client l.proc).job = some ⟨l.id, j, prog⟩ := by
  cases hs with
  | accept | exec | answer => exact .inl rfl
  | read running | send running => exact .inr ⟨_, _, running⟩

theorem Track.acts_of_answered (h : Track pre post tr s) (hs : Step S handler s l t)
    {p : P} {n : Nat} {a : A} (ha : ⟨p, n, .answer a⟩ ∈ tr) :
    actsOf (tr ++ [l]) p n = actsOf tr p n := by
  rw [actsOf_snoc]
  split
  · rename_i e
    obtain ⟨rfl, rfl⟩ := e
    rcases hs.acts with hn | ⟨j, prog, hj⟩
    · simp [hn]
    · exact absurd ha ((h.running hj).2.2 a)
  · simp

theorem Track.running_step (hh : ∀ j, (handler j).Meets (pre j) (post j) [])
    (h : Track pre post tr s) (hs : Step S handler s l t)
    {p : P} {n : Nat} {j : J} {prog : Prog Q R C A} (hj : (t.client p).job = some ⟨n, j, prog⟩) :
    ⟨p, n, .accept j⟩ ∈ tr ++ [l] ∧ prog.Meets (pre j) (post j) (actsOf (tr ++ [l]) p n) ∧
    ∀ a, ⟨p, n, .answer a⟩ ∉ tr ++ [l] := by
  by_cases hp : p = l.proc
  · subst hp
    cases hs with
    | accept j' idle =>
      simp only [setClient_client, Function.update_self, Option.some.injEq, Job.mk.injEq] at hj
      obtain ⟨rfl, rfl, rfl⟩ := hj
      refine ⟨by simp, ?_, ?_⟩
      · rw [actsOf_snoc, actsOf_fresh h.ids]
        simpa [Deed.act?] using hh j'
      · intro a ha
        have := h.ids ⟨_, s.next, .answer a⟩ (by simpa using ha)
        simp at this
    | read running _ =>
      obtain ⟨ha, hm, hn⟩ := h.running running
      simp only [setClient_client, Function.update_self, Option.some.injEq, Job.mk.injEq] at hj
      obtain ⟨rfl, rfl, rfl⟩ := hj
      refine ⟨by simp [ha], ?_, by simpa using hn⟩
      rw [actsOf_snoc]
      simpa [Deed.act?] using hm _
    | send running _ =>
      obtain ⟨ha, hm, hn⟩ := h.running running
      simp only [setClient_client, Function.update_self, Option.some.injEq, Job.mk.injEq] at hj
      obtain ⟨rfl, rfl, rfl⟩ := hj
      refine ⟨by simp [ha], ?_, by simpa using hn⟩
      rw [actsOf_snoc]
      simpa [Deed.act?] using hm.2.1
    | exec _ pending =>
      obtain ⟨ha, hm, hn⟩ := h.running (by simpa using hj)
      exact ⟨by simp [ha], by simpa [actsOf_snoc, Deed.act?] using hm, by simpa using hn⟩
    | answer running => simp at hj
  · rw [hs.other hp] at hj
    obtain ⟨ha, hm, hn⟩ := h.running hj
    refine ⟨by simp [ha], by simpa [actsOf_snoc, Ne.symm hp] using hm, ?_⟩
    intro a ha'
    rcases List.mem_append.mp ha' with ha' | ha'
    · exact hn a ha'
    · exact hp (by rw [← List.mem_singleton.mp ha'])

theorem Track.answered_step (h : Track pre post tr s) (hs : Step S handler s l t)
    {p : P} {n : Nat} {a : A} (ha : ⟨p, n, .answer a⟩ ∈ tr ++ [l]) :
    ∃ j, ⟨p, n, .accept j⟩ ∈ tr ++ [l] ∧ post j (actsOf (tr ++ [l]) p n) a := by
  rcases List.mem_append.mp ha with ha | ha
  · obtain ⟨j, hj, hpost⟩ := h.answered ha
    exact ⟨j, List.mem_append_left _ hj, by rwa [h.acts_of_answered hs ha]⟩
  · obtain rfl := List.mem_singleton.mp ha
    cases hs with
    | answer running =>
      obtain ⟨hj, hm, _⟩ := h.running running
      exact ⟨_, List.mem_append_left _ hj, by simpa [actsOf_snoc, Deed.act?, Prog.Meets] using hm⟩

theorem Track.sent_step (h : Track pre post tr s) (hs : Step S handler s l t)
    {p : P} {n : Nat} {past rest : List (Act Q R C)} {c : C}
    (hc : actsOf (tr ++ [l]) p n = past ++ .sent c :: rest) :
    ∃ j, ⟨p, n, .accept j⟩ ∈ tr ++ [l] ∧ pre j (past ++ [.sent c]) := by
  have earlier {rest : List (Act Q R C)} (he : actsOf tr p n = past ++ .sent c :: rest) :
      ∃ j, ⟨p, n, .accept j⟩ ∈ tr ++ [l] ∧ pre j (past ++ [.sent c]) := by
    obtain ⟨j, hj, hpre⟩ := h.sent he
    exact ⟨j, List.mem_append_left _ hj, hpre⟩
  rw [actsOf_snoc] at hc
  split at hc
  · rename_i e
    obtain ⟨rfl, rfl⟩ := e
    cases ha : l.deed.act? with
    | none => exact earlier (by simpa [ha] using hc)
    | some a =>
      -- the new act comes last: it is the write, or the write came before
      rw [ha, Option.toList_some] at hc
      rcases List.eq_nil_or_concat rest with rfl | ⟨rest, b, rfl⟩
      · obtain ⟨hp, hb⟩ := List.append_inj' hc rfl
        obtain rfl : a = .sent c := by simpa using hb
        subst hp
        cases hs with
        | send running =>
          obtain ⟨hj, hm, _⟩ := h.running running
          obtain rfl := Act.sent.inj (Option.some.inj ha)
          exact ⟨_, List.mem_append_left _ hj, hm.1⟩
        | read | accept | exec | answer => cases ha
      · have hc' : actsOf tr l.proc l.id ++ [a] = (past ++ .sent c :: rest) ++ [b] := by
          simpa using hc
        exact earlier (List.append_inj' hc' rfl).1
  · exact earlier (by simpa using hc)

/-- In every run, every request did what its program allows. -/
theorem run_track (hh : ∀ j, (handler j).Meets (pre j) (post j) []) {d : D}
    (h : Run S handler (.start d) tr s) : Track pre post tr s := by
  induction h with
  | start => exact track_start d
  | next _ hs ih =>
    exact ⟨ih.ids_step hs, ih.accepted_step hs, ih.pending_step hs, ih.running_step hh hs,
      ih.answered_step hs, ih.sent_step hs⟩

/-! ## Every write is executed once -/

theorem execsOf_fst (tr : List (Label P D Q R C A J)) (p : P) (n : Nat) :
    (execsOf tr p n).map Prod.fst =
      (execsBy tr p).filterMap fun e => if e.1 = n then some e.2 else none := by
  simp only [execsOf, execsBy, List.map_filterMap, List.filterMap_filterMap]
  congr 1
  funext l
  obtain ⟨q, m, deed⟩ := l
  by_cases hp : q = p <;> by_cases hn : m = n <;> cases deed <;>
    simp [hp, hn, Deed.exec?, Deed.outcome?]

theorem sents_actsOf (tr : List (Label P D Q R C A J)) (p : P) (n : Nat) :
    (actsOf tr p n).filterMap Act.sent? =
      (sendsBy tr p).filterMap fun e => if e.1 = n then some e.2 else none := by
  simp only [actsOf, sendsBy, List.filterMap_filterMap]
  congr 1
  funext l
  obtain ⟨q, m, deed⟩ := l
  by_cases hp : q = p <;> by_cases hn : m = n <;> cases deed <;>
    simp [hp, hn, Deed.act?, Deed.sent?, Act.sent?]

/-- The executed writes of a request are the first ones it sent. -/
theorem execsOf_in_order {d : D} (h : Run S handler (.start d) tr s) (p : P) (n : Nat) :
    (execsOf tr p n).map Prod.fst <+: (actsOf tr p n).filterMap Act.sent? := by
  rw [execsOf_fst, sents_actsOf, sends_fifo h p, List.filterMap_append]
  exact List.prefix_append _ _

/-- On a drained connection, the executed writes of a request are those it sent. -/
theorem execsOf_drained {d : D} (h : Run S handler (.start d) tr s) {p : P} (n : Nat)
    (drained : (s.client p).inFlight = []) :
    (execsOf tr p n).map Prod.fst = (actsOf tr p n).filterMap Act.sent? := by
  rw [execsOf_fst, sents_actsOf, sends_fifo h p, drained, List.append_nil]

end

end Pipeline
