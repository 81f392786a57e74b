import Crinha.Pipeline.Commits
import Mathlib.Algebra.Order.Group.Multiset
import Mathlib.Tactic.Abel

/-!
# Connections that break

* `faultyRun_track`: every request still does only what its program allows;
* `execsOf_unexecuted`: every write sent is executed, in flight or an orphan;
* `faultyRun_simulates`, `faultyRun_store_inv`: the commits keep to a specification.
-/

namespace Pipeline

/-- `cut` is a broken connection that its client takes for a good one, `bad` one that
it knows to be broken. -/
inductive Link where
  | up
  | cut
  | bad
  deriving DecidableEq

/-- The orphans are the writes that broken connections left in flight. -/
structure FaultyState (P D Q R C A J : Type) extends State P D Q R C A J where
  link : P → Link
  orphans : List (P × Nat × C)

/-- Whether the next thing a program does is a call over its connection. -/
def Prog.Calls {Q R C A : Type} : Prog Q R C A → Prop
  | .query .. | .send .. => True
  | .done _ | .halt => False

inductive Event (P D Q R C A J : Type) where
  | step (l : Label P D Q R C A J)
  | untaken (p : P) (n : Nat) (c : C)
  | cut (p : P)
  | reset (p : P)

/-- Whether a step needs the connection of its client. -/
def Deed.OverLink {D Q R C A J : Type} : Deed D Q R C A J → Prop
  | .accept _ | .answer _ => False
  | .read .. | .sent _ | .exec .. => True

section
variable {P D Q R C A J T : Type}

def FaultyState.start (d : D) : FaultyState P D Q R C A J := ⟨.start d, fun _ => .up, []⟩

def Event.label? : Event P D Q R C A J → Option (Label P D Q R C A J)
  | .step l => some l
  | .untaken .. | .cut _ | .reset _ => none

/-- The steps among the events. -/
def labels (tr : List (Event P D Q R C A J)) : List (Label P D Q R C A J) :=
  tr.filterMap Event.label?

theorem labels_snoc (tr : List (Event P D Q R C A J)) (e : Event P D Q R C A J) :
    labels (tr ++ [e]) = labels tr ++ e.label?.toList := by
  cases h : e.label? <;> simp [labels, h]

theorem labels_append (a b : List (Event P D Q R C A J)) :
    labels (a ++ b) = labels a ++ labels b :=
  List.filterMap_append

theorem mem_labels {tr : List (Event P D Q R C A J)} {l : Label P D Q R C A J} :
    l ∈ labels tr ↔ .step l ∈ tr := by
  rw [labels, List.mem_filterMap]
  constructor
  · rintro ⟨e, he, h⟩
    cases e with
    | step => rwa [Option.some.inj h] at he
    | untaken | cut | reset => cases h
  · exact fun h => ⟨_, h, rfl⟩

variable [DecidableEq P]

/-- The orphans that client `p` sent. -/
def orphansOf (orphans : List (P × Nat × C)) (p : P) : List (Nat × C) :=
  orphans.filterMap fun e => if e.1 = p then some e.2 else none

/-- `failed` is what a read returns whose connection is broken. A write over a
connection that is not known to be broken may get lost without notice. -/
inductive FaultyStep (S : Store D Q R C T) (handler : J → Prog Q R C A) (failed : R) :
    FaultyState P D Q R C A J → Event P D Q R C A J → FaultyState P D Q R C A J → Prop where
  | base {s l t} (hs : Step S handler s.toState l t)
      (hl : l.deed.OverLink → s.link l.proc = .up) :
      FaultyStep S handler failed s (.step l) ⟨t, s.link, s.orphans⟩
  | cut {s p} (hl : s.link p = .up) :
      FaultyStep S handler failed s (.cut p)
        ⟨s.setClient p { s.client p with inFlight := [] }, Function.update s.link p .cut,
          s.orphans ++ (s.client p).inFlight.map (p, ·)⟩
  | lateExec {s p n c a b} (τ : T) (orphan : s.orphans = a ++ (p, n, c) :: b)
      (tick : S.tick s.store τ) :
      FaultyStep S handler failed s (.step ⟨p, n, .exec c (S.run τ c s.store)⟩)
        ⟨{ s.toState with store := (S.run τ c s.store).getD s.store }, s.link, a ++ b⟩
  | readFails {s p n j q k} (running : (s.client p).job = some ⟨n, j, .query q k⟩)
      (hl : s.link p ≠ .up) :
      FaultyStep S handler failed s (.step ⟨p, n, .read q failed⟩)
        ⟨s.setClient p { s.client p with job := some ⟨n, j, k failed⟩ },
          Function.update s.link p .bad, s.orphans⟩
  | sendLost {s p n j c k} (running : (s.client p).job = some ⟨n, j, .send c k⟩)
      (hl : s.link p = .cut) :
      FaultyStep S handler failed s (.step ⟨p, n, .sent c⟩)
        ⟨s.setClient p { s.client p with job := some ⟨n, j, k true⟩ }, s.link,
          s.orphans ++ [(p, n, c)]⟩
  | sendFails {s p n j c k} (running : (s.client p).job = some ⟨n, j, .send c k⟩)
      (hl : s.link p ≠ .up) :
      FaultyStep S handler failed s (.untaken p n c)
        ⟨s.setClient p { s.client p with job := some ⟨n, j, k false⟩ },
          Function.update s.link p .bad, s.orphans⟩
  | reset {s p n j prog} (running : (s.client p).job = some ⟨n, j, prog⟩) (calls : prog.Calls)
      (hl : s.link p = .bad) :
      FaultyStep S handler failed s (.reset p)
        ⟨s.toState, Function.update s.link p .up, s.orphans⟩

inductive FaultyRun (S : Store D Q R C T) (handler : J → Prog Q R C A) (failed : R)
    (s₀ : FaultyState P D Q R C A J) :
    List (Event P D Q R C A J) → FaultyState P D Q R C A J → Prop where
  | start : FaultyRun S handler failed s₀ [] s₀
  | next {tr s e t} : FaultyRun S handler failed s₀ tr s → FaultyStep S handler failed s e t →
      FaultyRun S handler failed s₀ (tr ++ [e]) t

variable {S : Store D Q R C T} {handler : J → Prog Q R C A} {failed : R}
  {s t : FaultyState P D Q R C A J} {tr : List (Event P D Q R C A J)} {e : Event P D Q R C A J}
  {p : P}

/-- The runs in which nothing breaks are the runs of before. -/
theorem FaultyRun.of_run (failed : R) {d : D} {tr : List (Label P D Q R C A J)}
    {s : State P D Q R C A J} (h : Run S handler (.start d) tr s) :
    FaultyRun S handler failed (.start d) (tr.map .step) ⟨s, fun _ => .up, []⟩ := by
  induction h with
  | start => exact .start
  | next _ hs ih =>
    rw [List.map_append]
    exact ih.next (.base hs fun _ => rfl)

/-- Nothing is in flight on a connection that is broken. -/
theorem FaultyStep.drained (hs : FaultyStep S handler failed s e t)
    (h : ∀ p, s.link p ≠ .up → (s.client p).inFlight = []) :
    ∀ p, t.link p ≠ .up → (t.client p).inFlight = [] := by
  intro p hp
  cases hs with
  | @base l t hs hl =>
    by_cases he : p = l.proc
    · subst he
      cases hs with
      | accept | answer => simpa using h _ hp
      | read | send | exec => exact absurd (hl trivial) hp
    · show (t.client p).inFlight = []
      rw [hs.other he]
      exact h p hp
  | lateExec => exact h p hp
  | @cut p' | @readFails p' | @sendLost p' | @sendFails p' | @reset p' =>
    by_cases he : p = p'
    · subst he
      simp_all
    · simpa [Function.update_of_ne he] using h p (by simpa [Function.update_of_ne he] using hp)

/-! ## Requests follow their programs -/

variable {pre : J → List (Act Q R C) → Prop} {post : J → List (Act Q R C) → A → Prop}

theorem Track.step (hh : ∀ j, (handler j).Meets (pre j) (post j) [])
    {tr : List (Label P D Q R C A J)} {s t : State P D Q R C A J} {l : Label P D Q R C A J}
    (h : Track pre post tr s) (hs : Step S handler s l t) : Track pre post (tr ++ [l]) t :=
  ⟨h.ids_step hs, h.accepted_step hs, h.pending_step hs, h.running_step hh hs,
    h.answered_step hs, h.sent_step hs⟩

/-- Whatever was sent may be in flight. -/
theorem Track.of_jobs {tr : List (Label P D Q R C A J)} {s t : State P D Q R C A J}
    (h : Track pre post tr s) (hn : t.next = s.next)
    (hj : ∀ p, (t.client p).job = (s.client p).job)
    (hf : ∀ {p n c}, (n, c) ∈ (t.client p).inFlight → ⟨p, n, .sent c⟩ ∈ tr) :
    Track pre post tr t :=
  ⟨fun l hl => hn ▸ h.ids l hl, h.accepted, hf, fun hr => h.running (hj _ ▸ hr), h.answered,
    h.sent⟩

theorem Track.setInFlight {tr : List (Label P D Q R C A J)} {s : State P D Q R C A J} {p : P}
    (h : Track pre post tr s) (inFlight : List (Nat × C))
    (hf : ∀ {n c}, (n, c) ∈ inFlight → ⟨p, n, .sent c⟩ ∈ tr) :
    Track pre post tr (s.setClient p { s.client p with inFlight := inFlight }) := by
  refine h.of_jobs rfl (fun p' => ?_) fun {p' n c} hc => ?_ <;> by_cases hp : p' = p
  · subst hp
    simp
  · simp [Function.update_of_ne hp]
  · subst hp
    exact hf (by simpa using hc)
  · exact h.pending (by simpa [Function.update_of_ne hp] using hc)

/-- What was sent may be executed at any time. -/
theorem Track.exec {tr : List (Label P D Q R C A J)} {s : State P D Q R C A J} {p : P} {n : Nat}
    {c : C} {o : Option D} (h : Track pre post tr s) (hc : ⟨p, n, .sent c⟩ ∈ tr) :
    Track pre post (tr ++ [⟨p, n, .exec c o⟩]) s := by
  have hacts (p' : P) (n' : Nat) : actsOf (tr ++ [⟨p, n, .exec c o⟩]) p' n' = actsOf tr p' n' := by
    simp [actsOf_snoc, Deed.act?]
  refine ⟨fun l hl => ?_, fun ha ha' => ?_, fun hc => List.mem_append_left _ (h.pending hc),
    fun hj => ?_, fun ha => ?_, fun hp => ?_⟩
  · rcases List.mem_append.mp hl with hl | hl
    · exact h.ids l hl
    · rw [List.mem_singleton.mp hl]
      exact h.ids ⟨p, n, .sent c⟩ hc
  · exact h.accepted (by simpa using ha) (by simpa using ha')
  · obtain ⟨ha, hm, hn⟩ := h.running hj
    exact ⟨List.mem_append_left _ ha, by rwa [hacts], by simpa using hn⟩
  · obtain ⟨j, hj, hpost⟩ := h.answered (by simpa using ha)
    exact ⟨j, List.mem_append_left _ hj, by rwa [hacts]⟩
  · obtain ⟨j, hj, hpre⟩ := h.sent (by rwa [hacts] at hp)
    exact ⟨j, List.mem_append_left _ hj, hpre⟩

/-- A write that is not taken leaves no act. -/
theorem Track.untaken {tr : List (Label P D Q R C A J)} {s : State P D Q R C A J}
    (h : Track pre post tr s) {p : P} {n : Nat} {j : J} {c : C} {k : Bool → Prog Q R C A}
    (running : (s.client p).job = some ⟨n, j, .send c k⟩) :
    Track pre post tr (s.setClient p { s.client p with job := some ⟨n, j, k false⟩ }) := by
  refine ⟨h.ids, h.accepted, fun hc => ?_, fun hj => ?_, h.answered, h.sent⟩
  · rename_i p' n' c'
    by_cases hp : p' = p
    · subst hp
      exact h.pending (by simpa using hc)
    · exact h.pending (by simpa [Function.update_of_ne hp] using hc)
  · rename_i p' n' j' prog
    by_cases hp : p' = p
    · subst hp
      obtain ⟨ha, hm, hn⟩ := h.running running
      simp only [setClient_client, Function.update_self, Option.some.injEq, Job.mk.injEq] at hj
      obtain ⟨rfl, rfl, rfl⟩ := hj
      exact ⟨ha, hm.2.2, hn⟩
    · exact h.running (by simpa [Function.update_of_ne hp] using hj)

/-- The acts up to the last write. -/
theorem eq_append_last_sent (acts : List (Act Q R C)) : acts.filterMap Act.sent? = [] ∨
    ∃ past c rest, acts = past ++ .sent c :: rest ∧
      acts.filterMap Act.sent? = (past ++ [.sent c]).filterMap Act.sent? := by
  induction acts using List.reverseRecOn with
  | nil => exact .inl rfl
  | append_singleton acts act ih =>
    cases act with
    | sent c => exact .inr ⟨acts, c, [], rfl, rfl⟩
    | asked q r =>
      have hasked : (acts ++ [Act.asked q r]).filterMap Act.sent? = acts.filterMap Act.sent? := by
        simp [Act.sent?]
      rw [hasked]
      rcases ih with hn | ⟨past, c, rest, he, hlast⟩
      · exact .inl hn
      · exact .inr ⟨past, c, rest ++ [Act.asked q r], by simp [he], hlast⟩

/-- What a request has sent is what it had when it sent last. -/
theorem Track.sent_last {tr : List (Label P D Q R C A J)} {s : State P D Q R C A J}
    (h : Track pre post tr s) (p : P) (n : Nat) : (actsOf tr p n).filterMap Act.sent? = [] ∨
    ∃ j past c, ⟨p, n, .accept j⟩ ∈ tr ∧ pre j (past ++ [.sent c]) ∧
      (actsOf tr p n).filterMap Act.sent? = (past ++ [.sent c]).filterMap Act.sent? := by
  rcases eq_append_last_sent (actsOf tr p n) with hn | ⟨past, c, rest, he, hlast⟩
  · exact .inl hn
  · obtain ⟨j, hj, hpre⟩ := h.sent he
    exact .inr ⟨j, past, c, hj, hpre, hlast⟩

/-- If programs only send what nothing was sent before, a request sends at most once. -/
theorem Track.sent_once {tr : List (Label P D Q R C A J)} {s : State P D Q R C A J}
    (h : Track pre post tr s)
    (honce : ∀ {j past c}, pre j (past ++ [.sent c]) → past.filterMap Act.sent? = []) (p : P)
    (n : Nat) : (actsOf tr p n).filterMap Act.sent? = [] ∨ ∃ j past c, ⟨p, n, .accept j⟩ ∈ tr ∧
      pre j (past ++ [.sent c]) ∧ (actsOf tr p n).filterMap Act.sent? = [c] := by
  rcases h.sent_last p n with hn | ⟨j, past, c, hj, hpre, hlast⟩
  · exact .inl hn
  · refine .inr ⟨j, past, c, hj, hpre, ?_⟩
    rw [hlast, List.filterMap_append, honce hpre]
    rfl

structure FaultyTrack (pre : J → List (Act Q R C) → Prop)
    (post : J → List (Act Q R C) → A → Prop) (tr : List (Event P D Q R C A J))
    (s : FaultyState P D Q R C A J) : Prop where
  track : Track pre post (labels tr) s.toState
  orphan : ∀ {p n c}, (p, n, c) ∈ s.orphans → ⟨p, n, .sent c⟩ ∈ labels tr
  drained : ∀ p, s.link p ≠ .up → (s.client p).inFlight = []

theorem FaultyTrack.track_step (hh : ∀ j, (handler j).Meets (pre j) (post j) [])
    (h : FaultyTrack pre post tr s) (hs : FaultyStep S handler failed s e t) :
    Track pre post (labels (tr ++ [e])) t.toState := by
  rw [labels_snoc]
  cases hs with
  | base hs => exact h.track.step hh hs
  | cut =>
    rw [Event.label?, Option.toList_none, List.append_nil]
    exact h.track.setInFlight [] (by simp)
  | lateExec _ orphan =>
    exact (h.track.exec (h.orphan (by rw [orphan]; simp))).of_jobs rfl (fun _ => rfl)
      fun hc => List.mem_append_left _ (h.track.pending hc)
  | readFails running hl =>
    exact h.track.step hh (S := { S with answer := fun _ _ => failed })
      (.read running (h.drained _ hl))
  | @sendLost p n j c k running hl =>
    have hd := h.drained p (by simp [hl])
    have ht := (h.track.step hh (S := S) (.send running hd)).setInFlight (p := p) [] (by simp)
    simpa [State.setClient, Event.label?, hd] using ht
  | sendFails running =>
    rw [Event.label?, Option.toList_none, List.append_nil]
    exact h.track.untaken running
  | reset =>
    rw [Event.label?, Option.toList_none, List.append_nil]
    exact h.track

theorem FaultyTrack.orphan_step (h : FaultyTrack pre post tr s)
    (hs : FaultyStep S handler failed s e t) {p : P} {n : Nat} {c : C}
    (ho : (p, n, c) ∈ t.orphans) : ⟨p, n, .sent c⟩ ∈ labels (tr ++ [e]) := by
  rw [labels_append]
  cases hs with
  | base | readFails | sendFails | reset => exact List.mem_append_left _ (h.orphan ho)
  | lateExec _ orphan =>
    refine List.mem_append_left _ (h.orphan ?_)
    rw [orphan]
    rcases List.mem_append.mp ho with ho | ho <;> simp [ho]
  | cut =>
    rcases List.mem_append.mp ho with ho | ho
    · exact List.mem_append_left _ (h.orphan ho)
    · obtain ⟨_, hf, hp⟩ := List.mem_map.mp ho
      cases hp
      exact List.mem_append_left _ (h.track.pending hf)
  | sendLost =>
    rcases List.mem_append.mp ho with ho | ho
    · exact List.mem_append_left _ (h.orphan ho)
    · cases List.mem_singleton.mp ho
      exact List.mem_append_right _ (List.mem_singleton_self _)

/-- In every run with faults, every request did what its program allows. -/
theorem faultyRun_track (hh : ∀ j, (handler j).Meets (pre j) (post j) []) {d : D}
    (h : FaultyRun S handler failed (.start d) tr s) : FaultyTrack pre post tr s := by
  induction h with
  | start => exact ⟨track_start d, fun ho => absurd ho List.not_mem_nil, fun _ _ => rfl⟩
  | next _ hs ih => exact ⟨ih.track_step hh hs, ih.orphan_step hs, hs.drained ih.drained⟩

/-! ## Every write is executed at most once -/

theorem inFlight_setJob (client : P → Client Q R C A J) (p p' : P) (job : Option (Job Q R C A J)) :
    (Function.update client p ⟨job, (client p).inFlight⟩ p').inFlight = (client p').inFlight := by
  by_cases hp : p' = p
  · subst hp
    simp
  · simp [Function.update_of_ne hp]

theorem orphansOf_append (a b : List (P × Nat × C)) (p : P) :
    orphansOf (a ++ b) p = orphansOf a p ++ orphansOf b p :=
  List.filterMap_append

theorem orphansOf_cons (e : P × Nat × C) (b : List (P × Nat × C)) (p : P) :
    orphansOf (e :: b) p = (if e.1 = p then [e.2] else []) ++ orphansOf b p := by
  by_cases hp : e.1 = p <;> simp [orphansOf, hp]

theorem orphansOf_map_self (inFlight : List (Nat × C)) (p : P) :
    orphansOf (inFlight.map (p, ·)) p = inFlight := by
  simp [orphansOf, List.filterMap_map]

theorem orphansOf_map_ne (inFlight : List (Nat × C)) {p p' : P} (h : p' ≠ p) :
    orphansOf (inFlight.map (p', ·)) p = [] := by
  simp [orphansOf, List.filterMap_map, h]

theorem mem_orphansOf {orphans : List (P × Nat × C)} {p : P} {n : Nat} {c : C} :
    (n, c) ∈ orphansOf orphans p ↔ (p, n, c) ∈ orphans := by
  simp [orphansOf, List.mem_filterMap]

/-- What client `p` sent is what was executed, what is in flight and what is orphaned. -/
def Accounted (tr : List (Event P D Q R C A J)) (s : FaultyState P D Q R C A J) (p : P) : Prop :=
  (sendsBy (labels tr) p : Multiset (Nat × C)) =
    execsBy (labels tr) p + (s.client p).inFlight + orphansOf s.orphans p

theorem Accounted.base (h : Accounted tr s p) {l : Label P D Q R C A J} {t : State P D Q R C A J}
    (hs : Step S handler s.toState l t) : Accounted (tr ++ [.step l]) ⟨t, s.link, s.orphans⟩ p := by
  unfold Accounted at h ⊢
  simp only [labels_snoc, Event.label?, Option.toList_some, sendsBy_snoc, execsBy_snoc,
    ← Multiset.coe_add, h]
  by_cases hp : l.proc = p
  · subst hp
    cases hs with
    | accept | read | answer => simp [Deed.sent?, Deed.exec?]
    | send =>
      simp only [Deed.sent?, Deed.exec?, if_pos, setClient_client, Function.update_self,
        Option.map_some, Option.map_none, Option.toList_some, Option.toList_none,
        Multiset.coe_nil, ← Multiset.coe_add]
      abel
    | @exec p n c rest _ pending =>
      have hpending : ((s.client p).inFlight : Multiset (Nat × C)) = ([(n, c)] : List _) + rest := by
        rw [pending]
        rfl
      simp only [Deed.sent?, Deed.exec?, if_pos, setClient_client, Function.update_self,
        Option.map_some, Option.map_none, Option.toList_some, Option.toList_none,
        Multiset.coe_nil, hpending]
      abel
  · simp [hp, hs.other (Ne.symm hp)]

theorem Accounted.step (h : Accounted tr s p) (hs : FaultyStep S handler failed s e t) :
    Accounted (tr ++ [e]) t p := by
  cases hs with
  | base hs => exact h.base hs
  | @cut p' =>
    unfold Accounted at h ⊢
    rw [labels_snoc, Event.label?, Option.toList_none, List.append_nil, h, orphansOf_append,
      ← Multiset.coe_add]
    by_cases hp : p' = p
    · subst hp
      rw [orphansOf_map_self, setClient_client, Function.update_self, Multiset.coe_nil]
      abel
    · simp [orphansOf_map_ne _ hp, Function.update_of_ne (Ne.symm hp)]
  | @lateExec p' n c a b τ orphan =>
    unfold Accounted at h ⊢
    rw [orphan] at h
    simp only [labels_snoc, Event.label?, Option.toList_some, sendsBy_snoc, execsBy_snoc,
      orphansOf_append, orphansOf_cons, ← Multiset.coe_add] at h ⊢
    rw [h]
    by_cases hp : p' = p
    · simp only [if_pos hp, Deed.sent?, Deed.exec?, Option.map_some, Option.map_none,
        Option.toList_some, Option.toList_none, Multiset.coe_nil]
      abel
    · simp [hp]
  | readFails | sendFails | reset =>
    unfold Accounted at h ⊢
    simpa [labels_snoc, Event.label?, sendsBy_snoc, execsBy_snoc, Deed.sent?, Deed.exec?,
      inFlight_setJob] using h
  | @sendLost p' n j c =>
    unfold Accounted at h ⊢
    simp only [labels_snoc, Event.label?, Option.toList_some, sendsBy_snoc, execsBy_snoc,
      orphansOf_append, orphansOf_cons, setClient_client, inFlight_setJob, ← Multiset.coe_add, h]
    by_cases hp : p' = p
    · simp only [if_pos hp, Deed.sent?, Deed.exec?, Option.map_some, Option.map_none,
        Option.toList_some, Option.toList_none, Multiset.coe_nil]
      abel
    · simp [hp, orphansOf]

theorem faultyRun_accounted {d : D} (h : FaultyRun S handler failed (.start d) tr s) (p : P) :
    Accounted tr s p := by
  induction h with
  | start => rfl
  | next _ hs ih => exact ih.step hs

/-- The writes of request `n` of client `p` that are not executed yet, and may never be. -/
def unexecuted (s : FaultyState P D Q R C A J) (p : P) (n : Nat) : List C :=
  ((s.client p).inFlight ++ orphansOf s.orphans p).filterMap fun e =>
    if e.1 = n then some e.2 else none

/-- Of what a request sent, each write is executed once or not yet. -/
theorem execsOf_unexecuted {d : D} (h : FaultyRun S handler failed (.start d) tr s) (p : P)
    (n : Nat) : ((execsOf (labels tr) p n).map Prod.fst ++ unexecuted s p n).Perm
      ((actsOf (labels tr) p n).filterMap Act.sent?) := by
  have hacc : Accounted tr s p := faultyRun_accounted h p
  unfold Accounted at hacc
  rw [Multiset.coe_add, Multiset.coe_add, Multiset.coe_eq_coe, List.append_assoc] at hacc
  rw [execsOf_fst, sents_actsOf, unexecuted, ← List.filterMap_append]
  exact (hacc.filterMap _).symm

theorem commitsOf_subperm {d : D} (h : FaultyRun S handler failed (.start d) tr s) (p : P)
    (n : Nat) :
    (commitsOf (labels tr) p n).Subperm ((actsOf (labels tr) p n).filterMap Act.sent?) := by
  have hsub : ∀ l : List (C × Option D),
      (l.filterMap fun e => e.2.map fun _ => e.1).Sublist (l.map Prod.fst) := by
    intro l
    induction l with
    | nil => exact .slnil
    | cons e l ih => rcases e with ⟨c, _ | d⟩ <;> simp [ih, List.Sublist.cons]
  rw [commitsOf_eq]
  exact ((hsub _).trans (List.sublist_append_left _ _)).subperm.trans
    (execsOf_unexecuted h p n).subperm

/-! ## What the store goes through -/

/-- Only a commit changes the store, of a write in flight or orphaned. -/
theorem FaultyStep.store_cases (hs : FaultyStep S handler failed s e t) :
    commits (labels [e]) = [] ∧ t.store = s.store ∨
    ∃ p n c τ, ((n, c) ∈ (s.client p).inFlight ∨ (p, n, c) ∈ s.orphans) ∧
      commits (labels [e]) = [(p, n, c)] ∧ S.run τ c s.store = some t.store := by
  cases hs with
  | @base l _ hs =>
    have hc : commits (labels [.step l]) =
        (l.deed.commit?.map fun c => (l.proc, l.id, c)).toList := by
      show commits [l] = _
      rw [commits_cons, commits_nil, List.append_nil]
    rcases hs.store_cases with ⟨hn, hd⟩ | ⟨n, c, rest, τ, pending, hcommit, hrun⟩
    · exact .inl ⟨by simp [hc, hn], hd⟩
    · refine .inr ⟨l.proc, n, c, τ, .inl (pending ▸ List.mem_cons_self), ?_, hrun⟩
      cases hs with
      | exec _ pending' =>
        rw [pending'] at pending
        cases pending
        simp [hc, hcommit]
      | accept | read | send | answer => cases hcommit
  | cut | readFails | sendLost | sendFails | reset => exact .inl ⟨rfl, rfl⟩
  | @lateExec p n c _ _ τ orphan =>
    cases hr : S.run τ c s.store with
    | none => exact .inl ⟨rfl, rfl⟩
    | some d => exact .inr ⟨p, n, c, τ, .inr (by rw [orphan]; simp), rfl, hr⟩

/-- If every write acts on an observation of the store in one way wherever it commits,
the observation is what the committed writes make of it, whatever breaks. -/
theorem faultyRun_observe_commits {X : Type} (f : D → X) (act : X → C → X)
    (hact : ∀ {τ c d d'}, S.run τ c d = some d' → f d' = act (f d) c) {d : D}
    (h : FaultyRun S handler failed (.start d) tr s) :
    f s.store = (commits (labels tr)).foldl (fun x e => act x e.2.2) (f d) := by
  induction h with
  | start => rfl
  | next _ hs ih =>
    rw [labels_append, commits_append, List.foldl_append, ← ih]
    rcases hs.store_cases with ⟨hc, hd⟩ | ⟨_, _, _, _, _, hc, hr⟩
    · rw [hc, hd]
      rfl
    · rw [hc, hact hr]
      rfl

/-- **Simulation by committed writes.** If a specification can follow every write that a
program may send, doing `act`, it can follow those committed in a run, whatever breaks. -/
theorem faultyRun_simulates (hh : ∀ j, (handler j).Meets (pre j) (post j) []) {B : Type}
    (rel : D → B → Prop) (act : B → C → Option B) {d : D} {b : B} (h₀ : rel d b)
    (keep : ∀ {j past c τ d d' b}, pre j (past ++ [.sent c]) → rel d b → S.run τ c d = some d' →
      ∃ b', act b c = some b' ∧ rel d' b')
    (h : FaultyRun S handler failed (.start d) tr s) :
    ∃ b', ((commits (labels tr)).map fun e => e.2.2).foldlM act b = some b' ∧ rel s.store b' := by
  induction h with
  | start => exact ⟨b, rfl, h₀⟩
  | next hr hs ih =>
    obtain ⟨b₁, hb₁, hrel⟩ := ih
    rw [labels_append, commits_append, List.map_append, List.foldlM_append, hb₁,
      Option.bind_eq_bind, Option.bind_some]
    rcases hs.store_cases with ⟨hc, hd⟩ | ⟨p, n, c, τ, hfl, hc, hrun⟩
    · rw [hc, hd]
      exact ⟨b₁, rfl, hrel⟩
    · have htrack := faultyRun_track hh hr
      obtain ⟨past, rest, he⟩ := List.append_of_mem
        (sent_mem_actsOf.mpr (hfl.elim htrack.track.pending htrack.orphan))
      obtain ⟨j, _, hpre⟩ := htrack.track.sent he
      obtain ⟨b', hb', hrel'⟩ := keep hpre hrel hrun
      rw [hc]
      exact ⟨b', by simpa using hb', hrel'⟩

/-- What holds at first and is kept by every write that a program may send holds of the
store in every run, whatever breaks. -/
theorem faultyRun_store_inv (hh : ∀ j, (handler j).Meets (pre j) (post j) []) {inv : D → Prop}
    {d : D} (h₀ : inv d) (keep : ∀ {j past c τ d d'}, pre j (past ++ [.sent c]) → inv d →
      S.run τ c d = some d' → inv d')
    (h : FaultyRun S handler failed (.start d) tr s) : inv s.store := by
  obtain ⟨_, _, hinv⟩ := faultyRun_simulates hh (fun d (_ : Unit) => inv d) (fun _ _ => some ())
    (b := ()) h₀ (fun hpre hd hrun => ⟨(), rfl, keep hpre hd hrun⟩) h
  exact hinv

/-- Every committed write is one that the program of its request may send. -/
theorem faultyRun_commit (hh : ∀ j, (handler j).Meets (pre j) (post j) []) {d : D}
    (h : FaultyRun S handler failed (.start d) tr s) {e : P × Nat × C}
    (he : e ∈ commits (labels tr)) :
    ∃ j past, ⟨e.1, e.2.1, .accept j⟩ ∈ labels tr ∧ pre j (past ++ [.sent e.2.2]) := by
  have hc : e.2.2 ∈ commitsOf (labels tr) e.1 e.2.1 :=
    List.mem_filterMap.mpr ⟨e, he, if_pos ⟨rfl, rfl⟩⟩
  obtain ⟨act, hact, hsent⟩ := List.mem_filterMap.mp ((commitsOf_subperm h e.1 e.2.1).subset hc)
  cases act with
  | asked => cases hsent
  | sent c =>
    obtain rfl := Option.some.inj hsent
    obtain ⟨past, rest, hacts⟩ := List.append_of_mem hact
    obtain ⟨j, hj, hpre⟩ := (faultyRun_track hh h).track.sent hacts
    exact ⟨j, past, hj, hpre⟩

/-! ## What only a broken connection loses -/

/-- No write of request `n` is orphaned, and as long as its client's connection is
broken, all its reads have failed. -/
structure Kept (failed : R) (tr : List (Event P D Q R C A J)) (s : FaultyState P D Q R C A J)
    (p : P) (n : Nat) : Prop where
  kept : ∀ c, (p, n, c) ∉ s.orphans
  reads : s.link p ≠ .up → ∀ q r, .asked q r ∈ actsOf (labels tr) p n → r = failed

theorem FaultyTrack.kept_accept {n : Nat} {j : J} (h : FaultyTrack pre post tr s)
    (hs : FaultyStep S handler failed s (.step ⟨p, n, .accept j⟩) t) :
    Kept failed (tr ++ [.step ⟨p, n, .accept j⟩]) t p n := by
  cases hs with
  | base hs =>
    cases hs with
    | accept =>
      refine ⟨fun c ho => ?_, fun _ q r hr => ?_⟩
      · exact absurd (h.track.ids _ (h.orphan ho)) (lt_irrefl s.next)
      · rw [labels_snoc, Event.label?, Option.toList_some, actsOf_snoc,
          actsOf_fresh h.track.ids] at hr
        simp [Deed.act?] at hr

theorem FaultyTrack.kept_step {n : Nat} (h : FaultyTrack pre post tr s)
    (hread : ∀ {j past c}, pre j (past ++ [.sent c]) → ∃ q r, .asked q r ∈ past ∧ r ≠ failed)
    (hk : Kept failed tr s p n) (hs : FaultyStep S handler failed s e t) (he : e ≠ .cut p) :
    Kept failed (tr ++ [e]) t p n := by
  have hacts {l : Label P D Q R C A J} {q : Q} {r : R} (hl : s.link p ≠ .up)
      (hq : .asked q r ∈ actsOf (labels (tr ++ [.step l])) p n) :
      r = failed ∨ l = ⟨p, n, .read q r⟩ := by
    rw [labels_snoc, asked_mem_actsOf] at hq
    rcases List.mem_append.mp hq with hq | hq
    · exact .inl (hk.reads hl q r (asked_mem_actsOf.mpr hq))
    · exact .inr (List.mem_singleton.mp hq).symm
  cases hs with
  | @base l t hs hl =>
    refine ⟨hk.kept, fun hup q r hr => ?_⟩
    rcases hacts hup hr with hr | rfl
    · exact hr
    · exact absurd (hl trivial) hup
  | @cut p' hl =>
    have hp : p' ≠ p := fun hp => he (by rw [hp])
    refine ⟨fun c ho => ?_, fun hup q r hr => ?_⟩
    · rcases List.mem_append.mp ho with ho | ho
      · exact hk.kept c ho
      · obtain ⟨_, _, hc⟩ := List.mem_map.mp ho
        exact hp (congrArg Prod.fst hc)
    · rw [labels_snoc, Event.label?, Option.toList_none, List.append_nil] at hr
      exact hk.reads (by simpa [Function.update_of_ne hp.symm] using hup) q r hr
  | lateExec _ orphan =>
    refine ⟨fun c ho => hk.kept c ?_, fun hup q r hr => ?_⟩
    · rw [orphan]
      rcases List.mem_append.mp ho with ho | ho <;> simp [ho]
    · rcases hacts hup hr with hr | hr
      · exact hr
      · cases hr
  | @readFails p' n' _ _ _ _ hl =>
    refine ⟨hk.kept, fun hup q r hr => ?_⟩
    by_cases hp : p = p'
    · subst hp
      rcases hacts hl hr with hr | hr
      · exact hr
      · cases hr
        rfl
    · rcases hacts (by simpa [Function.update_of_ne hp] using hup) hr with hr | hr
      · exact hr
      · cases hr
        rfl
  | @sendLost p' n' j c k running hl =>
    refine ⟨fun c' ho => ?_, fun hup q r hr => ?_⟩
    · rcases List.mem_append.mp ho with ho | ho
      · exact hk.kept c' ho
      · -- its connection is broken, so no read can have let it send
        cases List.mem_singleton.mp ho
        obtain ⟨_, hm, _⟩ := h.track.running running
        obtain ⟨q, r, hq, hr⟩ := hread hm.1
        exact hr (hk.reads (by simp [hl]) q r hq)
    · rcases hacts hup hr with hr | hr
      · exact hr
      · cases hr
  | @sendFails p' _ _ _ _ _ hl =>
    refine ⟨hk.kept, fun hup q r hr => ?_⟩
    rw [labels_snoc, Event.label?, Option.toList_none, List.append_nil] at hr
    by_cases hp : p = p'
    · exact hk.reads (hp ▸ hl) q r hr
    · exact hk.reads (by simpa [Function.update_of_ne hp] using hup) q r hr
  | @reset p' =>
    refine ⟨hk.kept, fun hup q r hr => ?_⟩
    rw [labels_snoc, Event.label?, Option.toList_none, List.append_nil] at hr
    by_cases hp : p = p'
    · exact absurd (by simp [hp]) hup
    · exact hk.reads (by simpa [Function.update_of_ne hp] using hup) q r hr

/-- **No write of a request gets lost unless its connection breaks after the request was
accepted**, if a program sends only after a read that did not fail. -/
theorem faultyRun_kept (hh : ∀ j, (handler j).Meets (pre j) (post j) [])
    (hread : ∀ {j past c}, pre j (past ++ [.sent c]) → ∃ q r, .asked q r ∈ past ∧ r ≠ failed)
    {d : D} (h : FaultyRun S handler failed (.start d) tr s) {n : Nat} {j : J}
    {a b : List (Event P D Q R C A J)} (htr : tr = a ++ .step ⟨p, n, .accept j⟩ :: b)
    (hb : .cut p ∉ b) : Kept failed tr s p n := by
  induction h generalizing b with
  | start => simp at htr
  | @next tr s e t hr hs ih =>
    have htrack := faultyRun_track hh hr
    rcases List.eq_nil_or_concat b with rfl | ⟨b, e', rfl⟩
    · obtain ⟨rfl, he⟩ := List.append_inj' htr rfl
      obtain rfl : e = _ := by simpa using he
      exact htrack.kept_accept hs
    · have htr' : tr ++ [e] = (a ++ .step ⟨p, n, .accept j⟩ :: b) ++ [e'] := by simpa using htr
      obtain ⟨rfl, he⟩ := List.append_inj' htr' rfl
      obtain rfl : e = e' := by simpa using he
      exact htrack.kept_step hread (ih rfl fun hm => hb (by simp [hm])) hs
        fun he => hb (by simp [he])

end

end Pipeline
