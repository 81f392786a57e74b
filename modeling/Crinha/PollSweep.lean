import Crinha.PollTable

/-!
# One sweep over the poll table

* `poll_sweep`: what the loop has done when it comes back to `poll`.
-/

namespace Crinha
open Slots

/-! ## Since the last `poll` -/

/-- The sockets that were open at the last `poll`. -/
def abertosNoPoll : List Evento → Finset Int
  | [] => ∅
  | .polled _ :: tr => abertos tr
  | _ :: tr => abertosNoPoll tr

/-- The sockets that were closed since the last `poll`, the last first. -/
def fechados : List Evento → List Int
  | [] => []
  | .polled _ :: _ => []
  | .called .close fd :: tr => fd :: fechados tr
  | _ :: tr => fechados tr

/-- In a sweep, what was closed was reported, and what was reported is closed or is still
to be served. -/
structure Varredura (tr : List Evento) (c : Controle) (t : Tabela) : Prop where
  aberto : ∀ fd, fd ∈ abertos tr ↔ fd ∈ novos tr ∨ fd ∈ abertosNoPoll tr ∧ fd ∉ fechados tr
  fechado : ∀ fd ∈ fechados tr, fd ∈ abertosNoPoll tr ∧ fd ∈ relatados tr
  nodup : (fechados tr).Nodup
  novo : ∀ fd ∈ novos tr, fd ∉ abertosNoPoll tr
  um : (novos tr).card ≤ 1
  inicio : c = .slot 0 → novos tr = ∅ ∧ fechados tr = []
  pendente : ∀ fd ∈ abertosNoPoll tr, fd ∈ relatados tr → fd ∉ fechados tr →
    ∃ j, c.Pendente j ∧ (t.pfds j).revents ≠ 0 ∧ t.fds j = fd

section
variable {sock fd : Int} {tr : List Evento} {c : Controle} {t : Tabela} {i : Fin socketMaxPoll}

theorem varredura_nil (t : Tabela) : Varredura [] .poll t where
  aberto := fun fd => by simp [abertos, novos, abertosNoPoll]
  fechado := fun fd hm => absurd hm List.not_mem_nil
  nodup := .nil
  novo := fun fd hm => absurd hm (Finset.notMem_empty fd)
  um := Nat.zero_le 1
  inicio := fun h => nomatch h
  pendente := fun fd hm => absurd hm (Finset.notMem_empty fd)

/-- A sweep begins with all that was reported still to be served. -/
theorem varredura_poll (tr : List Evento) (t : Tabela) (revents : Fin socketMaxPoll → UInt16) :
    Varredura (.polled (t.report revents).reported :: tr) (.slot 0) (t.report revents) where
  aberto := fun fd => by simp [abertos, novos, abertosNoPoll, fechados]
  fechado := fun fd hm => absurd hm List.not_mem_nil
  nodup := .nil
  novo := fun fd hm => absurd hm (Finset.notMem_empty fd)
  um := Nat.zero_le 1
  inicio := fun _ => ⟨rfl, rfl⟩
  pendente := fun fd _ hrel _ => by
    obtain ⟨j, hj, rfl⟩ := Finset.mem_image.mp hrel
    exact ⟨j, Nat.zero_le _, (Finset.mem_filter.mp hj).2, rfl⟩

/-! ## One turn -/

theorem Controle.Pendente.next {j : Fin socketMaxPoll} (h : (Controle.slot i).Pendente j)
    (hj : j ≠ i) : (Controle.next i).Pendente j := by
  have hlt : i.val + 1 ≤ j.val := Fin.lt_def.mp (lt_of_le_of_ne h hj.symm)
  have hroom : i.val + 1 < socketMaxPoll := lt_of_le_of_lt hlt j.isLt
  rw [Controle.next, dif_pos hroom]
  exact hlt

theorem next_ne_start (i : Fin socketMaxPoll) : Controle.next i ≠ .slot 0 := by
  unfold Controle.next
  split
  · intro h
    cases Fin.mk.inj (Controle.slot.inj h)
  · exact Controle.noConfusion

/-- A turn does nothing at the listening socket or where there is nothing to report. -/
theorem slotTurn_skip {accepted : Int} (h : (slotTurn t i accepted).1 = []) :
    i = 0 ∨ (t.pfds i).revents = 0 := by
  by_contra hno
  rw [not_or] at hno
  unfold slotTurn at h
  simp only [hno.1, hno.2, if_false] at h
  split at h <;> cases h

/-- The slot of an open socket is not the one of the listening socket. -/
theorem EmOrdem.slot_ne (h : EmOrdem sock tr c t) {j : Fin socketMaxPoll}
    (hm : t.fds j ∈ abertos tr) :
    j ≠ 0 := by
  rintro rfl
  rw [h.guarda.listening] at hm
  exact h.guarda.sock_notMem hm

theorem Varredura.skip (hordem : EmOrdem sock tr (.slot i) t) (h : Varredura tr (.slot i) t)
    (hi : i = 0 ∨ (t.pfds i).revents = 0) : Varredura tr (.next i) t where
  aberto := h.aberto
  fechado := h.fechado
  nodup := h.nodup
  novo := h.novo
  um := h.um
  inicio := fun he => absurd he (next_ne_start i)
  pendente := fun fd hm hrel hopen => by
    obtain ⟨j, hj, hrev, rfl⟩ := h.pendente fd hm hrel hopen
    have hj0 := hordem.slot_ne ((h.aberto _).mpr (.inr ⟨hm, hopen⟩))
    refine ⟨j, hj.next ?_, hrev, rfl⟩
    rintro rfl
    exact hi.elim hj0 hrev

theorem Varredura.accept (hordem : EmOrdem sock tr (.slot 0) t) (h : Varredura tr (.slot 0) t)
    (hlt : t.nfds < socketMaxPoll) (fresh : fd ∉ abertos tr) :
    Varredura (.accepted fd :: tr) (.next 0) (pollPush t fd) := by
  obtain ⟨hnovos, hfechados⟩ := h.inicio rfl
  exact {
    aberto := fun x => by
      simp only [abertos, novos, abertosNoPoll, fechados, Finset.mem_insert, h.aberto x, or_assoc]
    fechado := fun x hx => h.fechado x hx
    nodup := h.nodup
    novo := fun x hx hm => by
      rw [novos, hnovos, Finset.mem_insert] at hx
      rcases hx with rfl | hx
      · exact fresh ((h.aberto x).mpr (.inr ⟨hm, by simp [hfechados]⟩))
      · exact Finset.notMem_empty x hx
    um := by
      rw [novos, hnovos]
      exact Finset.card_le_one_iff.mpr fun ha hb => by simp_all
    inicio := fun he => absurd he (next_ne_start 0)
    pendente := fun x hm hrel hopen => by
      obtain ⟨j, hj, hrev, rfl⟩ := h.pendente x hm hrel hopen
      have haberto := (h.aberto _).mpr (.inr ⟨hm, hopen⟩)
      obtain ⟨k, hfree, hpush⟩ := pollPush_spec fd hordem.guarda.nfds hlt
      -- the new socket is in a slot that was free
      have hjk : j ≠ k := by
        rintro rfl
        exact (hordem.pendente j hj hrev).1 hfree
      have hsame : (pollPush t fd).pfds j = t.pfds j := by
        rw [hpush]
        exact Function.update_of_ne hjk _ _
      refine ⟨j, hj.next (hordem.slot_ne haberto), by rwa [hsame], ?_⟩
      exact congrArg PollFd.fd hsame }

theorem Varredura.close (hordem : EmOrdem sock tr (.slot i) t) (h : Varredura tr (.slot i) t)
    (hi : i ≠ 0) (hrev : (t.pfds i).revents ≠ 0) {calls : List Evento}
    (hcalls : calls = [.called .read (t.fds i)] ∨ calls = []) :
    Varredura (.called .close (t.fds i) :: .called .shutdown (t.fds i) :: (calls ++ tr))
      (.next i) (pollPop t (t.fds i)) := by
  obtain ⟨hused, hrel, hold⟩ := hordem.pendente i (Nat.le_refl _) hrev
  have haberto := hordem.guarda.mem_of_ne hi hused
  obtain ⟨hantes, hopen⟩ := ((h.aberto _).mp haberto).resolve_left hold
  obtain ⟨_, hframe⟩ := hordem.guarda.pop hi hused
  have hread : abertos (calls ++ tr) = abertos tr ∧ relatados (calls ++ tr) = relatados tr ∧
      novos (calls ++ tr) = novos tr ∧ abertosNoPoll (calls ++ tr) = abertosNoPoll tr ∧
      fechados (calls ++ tr) = fechados tr := by
    rcases hcalls with rfl | rfl <;> exact ⟨rfl, rfl, rfl, rfl, rfl⟩
  obtain ⟨ha, hr, hn, hp, hf⟩ := hread
  constructor
  · intro x
    simp only [abertos, novos, abertosNoPoll, fechados, ha, hn, hp, hf, Finset.mem_erase, h.aberto x,
      List.mem_cons]
    by_cases hx : x = t.fds i
    · subst hx
      simp [hold]
    · simp [hx]
  · intro x hx
    simp only [abertosNoPoll, relatados, fechados, hr, hp, hf, List.mem_cons] at hx ⊢
    rcases hx with rfl | hx
    · exact ⟨hantes, hrel⟩
    · exact h.fechado x hx
  · simp only [fechados, hf]
    exact List.nodup_cons.mpr ⟨hopen, h.nodup⟩
  · simp only [novos, abertosNoPoll, hn, hp]
    exact h.novo
  · simp only [novos, hn]
    exact h.um
  · exact fun he => absurd he (next_ne_start i)
  · intro x
    simp only [abertosNoPoll, relatados, fechados, hr, hp, hf, List.mem_cons, not_or]
    rintro hm hrel ⟨hne, hopen⟩
    obtain ⟨j, hj, hrevj, rfl⟩ := h.pendente x hm hrel hopen
    have hji : j ≠ i := fun he => hne (congrArg t.fds he)
    have hsame := hframe j hji
    exact ⟨j, hj.next hji, by rwa [hsame], congrArg PollFd.fd hsame⟩

/-! ## The sweep -/

theorem varredura_laco (hsock : 0 ≤ sock) (h : Laco sock tr c t) : Varredura tr c t := by
  induction h with
  | start pfds => exact varredura_nil _
  | failed revents _ ih =>
    exact ⟨ih.aberto, ih.fechado, ih.nodup, ih.novo, ih.um, fun he => (nomatch he),
      fun fd hm hrel hopen => (ih.pendente fd hm hrel hopen).elim fun _ hj => hj.1.elim⟩
  | poll revents _ _ _ => exact varredura_poll _ _ revents
  | @turn tr t i accepted fresh before ih =>
    have hordem := emOrdem_laco hsock before
    rcases slotTurn_cases t i accepted with he | ⟨ha, rfl, hlt, he⟩ | ⟨hi, hrev, calls, hcalls, he⟩
    · have hskip := slotTurn_skip (congrArg Prod.fst he)
      rw [he]
      exact ih.skip hordem hskip
    · rw [he]
      exact ih.accept hordem hlt (fresh ha).2
    · rw [he]
      exact ih.close hordem hi hrev hcalls

/-- **A sweep serves all that was reported.** Whenever `socket_loop` comes to `poll`, the
sockets that were closed since the last `poll` are the open ones that it reported, each
shut down and closed once, and the sockets that are open now are the others and at most
one new one. -/
theorem poll_sweep (hsock : 0 ≤ sock) (h : Laco sock tr .poll t) :
    Blocos tr ∧ (fechados tr).Nodup ∧
    (∀ fd, fd ∈ fechados tr ↔ fd ∈ abertosNoPoll tr ∧ fd ∈ relatados tr) ∧
    abertos tr = (abertosNoPoll tr \ relatados tr) ∪ novos tr ∧ (novos tr).card ≤ 1 := by
  have hv := varredura_laco hsock h
  have hfechado : ∀ fd, fd ∈ fechados tr ↔ fd ∈ abertosNoPoll tr ∧ fd ∈ relatados tr := by
    intro fd
    constructor
    · exact hv.fechado fd
    · rintro ⟨hm, hrel⟩
      by_contra hopen
      obtain ⟨_, hj, _⟩ := hv.pendente fd hm hrel hopen
      exact hj
  refine ⟨blocos_laco h, hv.nodup, hfechado, ?_, hv.um⟩
  ext fd
  rw [hv.aberto, hfechado, Finset.mem_union, Finset.mem_sdiff]
  tauto

end

/-- Socket 4 is accepted in one sweep, and read and closed in the next. -/
theorem poll_sweep_one : ∃ tr t, Laco 3 tr .poll t ∧ fechados tr = [4] ∧ abertosNoPoll tr = {4} ∧
    Blocos tr ∧ (fechados tr).Nodup ∧
    (∀ fd, fd ∈ fechados tr ↔ fd ∈ abertosNoPoll tr ∧ fd ∈ relatados tr) ∧
    abertos tr = (abertosNoPoll tr \ relatados tr) ∪ novos tr ∧ (novos tr).card ≤ 1 := by
  have h₀ : Laco 3 [] .poll ociosa := .start _
  have h₁ := ((Laco.poll (dadosEm 0) (by decide) h₀).turn 4 (by decide)).quiet (by decide +kernel)
  have h₂ := (((Laco.poll (dadosEm 1) (by decide +kernel) h₁).turn (-1) (by decide)).turn (-1)
    (by decide)).quiet (by decide +kernel)
  exact ⟨_, _, h₂, by decide +kernel, by decide +kernel, poll_sweep (by decide) h₂⟩

end Crinha
