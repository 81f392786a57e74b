import Crinha.Pipeline.Commits

/-!
# A single client's write meets the state it was decided on

When one client is alone with the store, a write in flight is executed in the very
state from which the reads of its request were answered (`write_sees_reads`).
-/

namespace Pipeline

section
variable {D Q R C A J T : Type} {S : Store D Q R C T} {handler : J → Prog Q R C A}
  {tr : List (Label Unit D Q R C A J)} {s t : State Unit D Q R C A J}
  {l : Label Unit D Q R C A J}

/-- The reads of a request that has not written yet, and those of a request whose
only write is in flight, were answered from the present state. -/
structure Snapshot (S : Store D Q R C T) (tr : List (Label Unit D Q R C A J))
    (s : State Unit D Q R C A J) : Prop where
  running : ∀ {n j prog q r}, (s.client ()).job = some ⟨n, j, prog⟩ →
    (actsOf tr () n).filterMap Act.sent? = [] → .asked q r ∈ actsOf tr () n →
    (s.client ()).inFlight = [] ∧ r = S.answer s.store q
  pending : ∀ {n c q r}, (n, c) ∈ (s.client ()).inFlight →
    (actsOf tr () n).filterMap Act.sent? = [c] → .asked q r ∈ actsOf tr () n →
    r = S.answer s.store q

theorem snapshot_start (d : D) : Snapshot S [] (.start d : State Unit D Q R C A J) := by
  constructor <;> intros <;> simp_all [State.start]

variable {pre : J → List (Act Q R C) → Prop} {post : J → List (Act Q R C) → A → Prop}

theorem Snapshot.step (h : Snapshot S tr s) (track : Track pre post tr s)
    (one : (s.client ()).inFlight.length ≤ 1) (hs : Step S handler s l t) :
    Snapshot S (tr ++ [l]) t := by
  cases hs with
  | accept j idle =>
    constructor
    · intro n j' prog q r hj _ ha
      simp only [setClient_client, Function.update_self, Option.some.injEq, Job.mk.injEq] at hj
      obtain ⟨rfl, rfl, rfl⟩ := hj
      rw [actsOf_snoc, actsOf_fresh track.ids] at ha
      simp [Deed.act?] at ha
    · intro n c q r hc hsent ha
      simp only [actsOf_snoc, Deed.act?, Option.toList_none, ite_self, List.append_nil] at hsent ha
      exact h.pending (by simpa using hc) hsent ha
  | @read _ n j q k running drained =>
    constructor
    · intro n' j' prog q' r' hj hsent ha
      simp only [setClient_client, Function.update_self, Option.some.injEq, Job.mk.injEq] at hj
      obtain ⟨rfl, rfl, rfl⟩ := hj
      refine ⟨by simpa using drained, ?_⟩
      simp only [actsOf_snoc, Deed.act?, and_self, if_true, List.filterMap_append,
        List.append_eq_nil_iff, List.mem_append, Option.toList_some, List.mem_singleton,
        Act.asked.injEq] at hsent ha
      rcases ha with ha | ⟨rfl, rfl⟩
      · exact (h.running running hsent.1 ha).2
      · rfl
    · intro n' c q' r' hc
      simp [drained] at hc
  | @send _ n j c k running drained =>
    constructor
    · intro n' j' prog q r hj hsent
      simp only [setClient_client, Function.update_self, Option.some.injEq, Job.mk.injEq] at hj
      obtain ⟨rfl, rfl, rfl⟩ := hj
      simp [actsOf_snoc, Deed.act?, Act.sent?] at hsent
    · intro n' c' q r hc hsent ha
      simp only [setClient_client, Function.update_self, drained, List.nil_append,
        List.mem_singleton, Prod.mk.injEq] at hc
      obtain ⟨rfl, rfl⟩ := hc
      simp only [actsOf_snoc, Deed.act?, and_self, if_true, Option.toList_some,
        List.filterMap_append, List.mem_append, List.mem_singleton, reduceCtorEq, or_false]
        at hsent ha
      exact (h.running running (by simpa [Act.sent?] using hsent) ha).2
  | @exec _ n c rest τ pending _ =>
    simp only [pending, List.length_cons] at one
    obtain rfl : rest = [] := List.eq_nil_of_length_eq_zero (by omega)
    constructor
    · intro n' j' prog q r hj hsent ha
      simp only [actsOf_snoc, Deed.act?, Option.toList_none, ite_self, List.append_nil] at hsent ha
      have hn := (h.running (by simpa using hj) hsent ha).1
      rw [pending] at hn
      cases hn
    · intro n' c' q r hc
      simp at hc
  | answer running =>
    constructor
    · intro n' j' prog q r hj
      simp at hj
    · intro n' c q r hc hsent ha
      simp only [actsOf_snoc, Deed.act?, Option.toList_none, ite_self, List.append_nil] at hsent ha
      exact h.pending (by simpa using hc) hsent ha

theorem run_snapshot (hh : ∀ j, (handler j).Meets (pre j) (post j) []) {d : D}
    (h : Run S handler (.start d) tr s) : Snapshot S tr s := by
  induction h with
  | start => exact snapshot_start d
  | next hr hs ih => exact ih.step (run_track hh hr) (inFlight_le_one hr ()) hs

/-- **The write of a request meets the state its reads saw**, if it is its only one. -/
theorem write_sees_reads (hh : ∀ j, (handler j).Meets (pre j) (post j) []) {d : D}
    (h : Run S handler (.start d) tr s) {n : Nat} {c : C} {q : Q} {r : R}
    (hc : (n, c) ∈ (s.client ()).inFlight)
    (once : (actsOf tr () n).filterMap Act.sent? = [c])
    (ha : .asked q r ∈ actsOf tr () n) : r = S.answer s.store q :=
  (run_snapshot hh h).pending hc once ha

end

end Pipeline
