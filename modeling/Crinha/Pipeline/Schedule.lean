import Crinha.Pipeline.Sync

/-!
# Running a schedule

`play` runs a list of moves of the clients and the store, and `play_run` shows
that what it returns is a run, so that a run can be computed.
-/

namespace Pipeline

section
variable {P D Q R C A J T : Type} [DecidableEq P]

/-- `go p` is the next step of the running request of client `p`, `exec p t` the
execution of its oldest write in flight at time `t`. -/
inductive Move (P J T : Type) where
  | accept (p : P) (j : J)
  | go (p : P)
  | exec (p : P) (t : T)

def State.move (S : Store D Q R C T) (handler : J → Prog Q R C A)
    [∀ d t, Decidable (S.tick d t)] (s : State P D Q R C A J) :
    Move P J T → Option (Label P D Q R C A J × State P D Q R C A J)
  | .accept p j =>
    match (s.client p).job with
    | none => some (⟨p, s.next, .accept j⟩,
        { s.setClient p { s.client p with job := some ⟨s.next, j, handler j⟩ } with
          next := s.next + 1 })
    | some _ => none
  | .go p =>
    match (s.client p).job, (s.client p).inFlight with
    | some ⟨n, j, .query q k⟩, [] => some (⟨p, n, .read q (S.answer s.store q)⟩,
        s.setClient p { s.client p with job := some ⟨n, j, k (S.answer s.store q)⟩ })
    | some ⟨n, j, .send c k⟩, [] => some (⟨p, n, .sent c⟩,
        s.setClient p ⟨some ⟨n, j, k true⟩, (s.client p).inFlight ++ [(n, c)]⟩)
    | some ⟨n, _, .done a⟩, _ =>
        some (⟨p, n, .answer a⟩, s.setClient p { s.client p with job := none })
    | _, _ => none
  | .exec p t =>
    match (s.client p).inFlight with
    | (n, c) :: rest =>
      if S.tick s.store t then
        some (⟨p, n, .exec c (S.run t c s.store)⟩,
          { s.setClient p { s.client p with inFlight := rest } with
            store := (S.run t c s.store).getD s.store })
      else none
    | [] => none

def State.play (S : Store D Q R C T) (handler : J → Prog Q R C A)
    [∀ d t, Decidable (S.tick d t)] (s : State P D Q R C A J) :
    List (Move P J T) → Option (List (Label P D Q R C A J) × State P D Q R C A J)
  | [] => some ([], s)
  | m :: ms => (s.move S handler m).bind fun r =>
      (r.2.play S handler ms).map fun r' => (r.1 :: r'.1, r'.2)

variable {S : Store D Q R C T} {handler : J → Prog Q R C A} [∀ d t, Decidable (S.tick d t)]

theorem move_step {s t : State P D Q R C A J} {m : Move P J T} {l : Label P D Q R C A J}
    (h : s.move S handler m = some (l, t)) : Step S handler s l t := by
  cases m with
  | accept p j =>
    simp only [State.move] at h
    split at h
    · cases h; exact .accept j ‹_›
    · cases h
  | go p =>
    simp only [State.move] at h
    split at h
    · cases h; exact .read ‹_› ‹_›
    · cases h; exact .send ‹_› ‹_›
    · cases h; exact .answer ‹_›
    · cases h
  | exec p t =>
    simp only [State.move] at h
    split at h
    · split at h
      · cases h; exact .exec t ‹_› ‹_›
      · cases h
    · cases h

theorem play_run {s₀ : State P D Q R C A J} : ∀ {ms : List (Move P J T)}
    {s t : State P D Q R C A J} {tr tr' : List (Label P D Q R C A J)},
    Run S handler s₀ tr s → s.play S handler ms = some (tr', t) →
      Run S handler s₀ (tr ++ tr') t
  | [], s, t, tr, tr', hr, h => by
    cases h
    simpa using hr
  | m :: ms, s, t, tr, tr', hr, h => by
    simp only [State.play, Option.bind_eq_some_iff, Option.map_eq_some_iff, Prod.mk.injEq] at h
    obtain ⟨⟨l, s₁⟩, hm, ⟨tr₁, t₁⟩, hp, rfl, rfl⟩ := h
    simpa using play_run (hr.next (move_step hm)) hp

/-- A property of the computed trace and state of a schedule is one of a run. -/
theorem exists_run_of_play {s₀ : State P D Q R C A J} (ms : List (Move P J T))
    (p : List (Label P D Q R C A J) → State P D Q R C A J → Bool)
    (h : (s₀.play S handler ms).map (fun r => p r.1 r.2) = some true) :
    ∃ tr s, Run S handler s₀ tr s ∧ p tr s = true := by
  obtain ⟨⟨tr, s⟩, hp, hb⟩ := Option.map_eq_some_iff.mp h
  exact ⟨tr, s, by simpa using play_run .start hp, hb⟩

end

section
variable {D Q R C A J T : Type} {S : Store D Q R C T} {handler : J → Prog Q R C A}
  [∀ d t, Decidable (S.tick d t)]

def Move.accept? {P : Type} : Move P J T → Option J
  | .accept _ j => some j
  | _ => none

theorem move_requests {s t : State Unit D Q R C A J} {m : Move Unit J T}
    {l : Label Unit D Q R C A J} (h : s.move S handler m = some (l, t)) :
    requests [l] = m.accept?.toList := by
  cases m with
  | accept p j =>
    simp only [State.move] at h
    split at h
    · cases h; rfl
    · cases h
  | go p =>
    simp only [State.move] at h
    split at h
    · cases h; rfl
    · cases h; rfl
    · cases h; rfl
    · cases h
  | exec p t =>
    simp only [State.move] at h
    split at h
    · split at h
      · cases h; rfl
      · cases h
    · cases h

/-- The requests of a run that is computed are those of its schedule. -/
theorem play_requests : ∀ {ms : List (Move Unit J T)} {s t : State Unit D Q R C A J}
    {tr : List (Label Unit D Q R C A J)}, s.play S handler ms = some (tr, t) →
      requests tr = ms.filterMap Move.accept?
  | [], _, _, _, h => by
    cases h
    rfl
  | m :: ms, _, _, _, h => by
    simp only [State.play, Option.bind_eq_some_iff, Option.map_eq_some_iff, Prod.mk.injEq] at h
    obtain ⟨⟨l, s₁⟩, hm, ⟨tr₁, t₁⟩, hp, rfl, rfl⟩ := h
    have hcons : requests (l :: tr₁) = requests [l] ++ requests tr₁ :=
      List.filterMap_append (l := [l])
    rw [hcons, move_requests hm, play_requests hp, List.filterMap_cons]
    cases m.accept? <;> rfl

/-- A property of the computed state of a schedule is one of a run with its requests. -/
theorem exists_run_of_requests {s₀ : State Unit D Q R C A J} (ms : List (Move Unit J T))
    (p : State Unit D Q R C A J → Bool)
    (h : (s₀.play S handler ms).map (fun r => p r.2) = some true) :
    ∃ tr s, Run S handler s₀ tr s ∧ requests tr = ms.filterMap Move.accept? ∧ p s = true := by
  obtain ⟨⟨tr, s⟩, hp, hb⟩ := Option.map_eq_some_iff.mp h
  exact ⟨tr, s, by simpa using play_run .start hp, play_requests hp, hb⟩

end

end Pipeline
