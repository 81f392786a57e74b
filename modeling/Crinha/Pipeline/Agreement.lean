import Crinha.Pipeline.Faults

/-!
# Stores that agree on what is sent

* `Agree.run`, `Agree.faultyRun`: the runs over a store are runs over any other that
  executes alike the writes which the programs of the accepted requests may send.
-/

namespace Pipeline

variable {P D Q R C A J T : Type}

/-- What `S` does with `good` writes, `S'` does too. -/
structure Agree (S S' : Store D Q R C T) (good : C → Prop) : Prop where
  answer : S.answer = S'.answer
  tick : ∀ {d t}, S.tick d t → S'.tick d t
  exec : ∀ {c}, good c → ∀ t d, S.run t c d = S'.run t c d

/-- A write that a request of the run may send. -/
def Sent (pre : J → List (Act Q R C) → Prop) (tr : List (Label P D Q R C A J)) (c : C) : Prop :=
  ∃ p n j past, ⟨p, n, .accept j⟩ ∈ tr ∧ pre j (past ++ [.sent c])

theorem Sent.mono {pre : J → List (Act Q R C) → Prop} {tr tr' : List (Label P D Q R C A J)}
    {c : C} (h : Sent pre tr c) (hsub : ∀ l ∈ tr, l ∈ tr') : Sent pre tr' c := by
  obtain ⟨p, n, j, past, hj, hpre⟩ := h
  exact ⟨p, n, j, past, hsub _ hj, hpre⟩

section
variable [DecidableEq P] {S S' : Store D Q R C T} {good : C → Prop} {handler : J → Prog Q R C A}
  {pre : J → List (Act Q R C) → Prop} {post : J → List (Act Q R C) → A → Prop} {failed : R} {d : D}

theorem Track.sent_of_mem {tr : List (Label P D Q R C A J)} {s : State P D Q R C A J} {p : P}
    {n : Nat} {c : C} (h : Track pre post tr s) (hc : ⟨p, n, .sent c⟩ ∈ tr) : Sent pre tr c := by
  obtain ⟨past, rest, he⟩ := List.append_of_mem (sent_mem_actsOf.mpr hc)
  obtain ⟨j, hj, hpre⟩ := h.sent he
  exact ⟨p, n, j, past, hj, hpre⟩

theorem Agree.step (h : Agree S S' good) {s t : State P D Q R C A J} {l : Label P D Q R C A J}
    (hgood : ∀ {p n c}, (n, c) ∈ (s.client p).inFlight → good c) (hs : Step S handler s l t) :
    Step S' handler s l t := by
  cases hs with
  | accept j idle => exact .accept j idle
  | read running drained =>
    rw [h.answer]
    exact .read running drained
  | send running drained => exact .send running drained
  | exec τ pending tick =>
    rw [h.exec (hgood (pending ▸ List.mem_cons_self))]
    exact .exec τ pending (h.tick tick)
  | answer running => exact .answer running

/-- The runs over one store are runs over the other. -/
theorem Agree.run (h : Agree S S' good) (hh : ∀ j, (handler j).Meets (pre j) (post j) [])
    {tr : List (Label P D Q R C A J)} {s : State P D Q R C A J}
    (hgood : ∀ {c}, Sent pre tr c → good c) (hr : Run S handler (.start d) tr s) :
    Run S' handler (.start d) tr s := by
  induction hr with
  | start => exact .start
  | @next tr _ _ _ hr hs ih =>
    have hbefore {c : C} (hc : Sent pre tr c) : good c :=
      hgood (hc.mono fun _ => List.mem_append_left _)
    have htrack := run_track hh hr
    exact (ih hbefore).next
      (h.step (fun hc => hbefore (htrack.sent_of_mem (htrack.pending hc))) hs)

theorem Agree.faultyStep (h : Agree S S' good) {s t : FaultyState P D Q R C A J}
    {e : Event P D Q R C A J} (hgood : ∀ {p n c}, (n, c) ∈ (s.client p).inFlight → good c)
    (horphan : ∀ {p n c}, (p, n, c) ∈ s.orphans → good c)
    (hs : FaultyStep S handler failed s e t) : FaultyStep S' handler failed s e t := by
  cases hs with
  | base hs hl => exact .base (h.step hgood hs) hl
  | cut hl => exact .cut hl
  | lateExec τ orphan tick =>
    rw [h.exec (horphan (orphan ▸ List.mem_append_right _ List.mem_cons_self))]
    exact .lateExec τ orphan (h.tick tick)
  | readFails running hl => exact .readFails running hl
  | sendLost running hl => exact .sendLost running hl
  | sendFails running hl => exact .sendFails running hl
  | reset running calls hl => exact .reset running calls hl

/-- So they are if connections break. -/
theorem Agree.faultyRun (h : Agree S S' good) (hh : ∀ j, (handler j).Meets (pre j) (post j) [])
    {tr : List (Event P D Q R C A J)} {s : FaultyState P D Q R C A J}
    (hgood : ∀ {c}, Sent pre (labels tr) c → good c)
    (hr : FaultyRun S handler failed (.start d) tr s) :
    FaultyRun S' handler failed (.start d) tr s := by
  induction hr with
  | start => exact .start
  | @next tr _ _ _ hr hs ih =>
    have hbefore {c : C} (hc : Sent pre (labels tr) c) : good c := by
      apply hgood
      rw [labels_append]
      exact hc.mono fun _ => List.mem_append_left _
    have htrack := faultyRun_track hh hr
    exact (ih hbefore).next (h.faultyStep
      (fun hc => hbefore (htrack.track.sent_of_mem (htrack.track.pending hc)))
      (fun hc => hbefore (htrack.track.sent_of_mem (htrack.orphan hc))) hs)

end

end Pipeline
