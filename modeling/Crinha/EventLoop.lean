import Crinha.PollSweep
import Crinha.WholeServer

/-!
# `socket_loop` with its table, its parser and its handlers

* `socketLoopPoll_eq`: it serves the connections that it reads one after another;
* `laco_percorre`: its table is that of a run of the table alone.
-/

namespace Crinha
open Pipeline CString Slots

/-- What `accept` returns if it is called after a `poll`, and what `recv` returns on the
socket of each slot if it is read. -/
structure Passagem where
  revents : Fin socketMaxPoll → UInt16
  accepted : Int
  segments : Fin socketMaxPoll → List Recebido
  deriving DecidableEq

inductive Poll where
  | failed (revents : Fin socketMaxPoll → UInt16)
  | ready (p : Passagem)
  deriving DecidableEq

section
variable {σ : Type} (L : Llhttp σ) (J : Jansson) (R : Relogio)

/-- One turn of the inner loop; `accept` is called at slot 0 only. -/
def slotTurnSend (p : Passagem) (t : Tabela) (parser : Parser σ UInt8) (i : Fin socketMaxPoll) :
    DbProg (Tabela × Parser σ UInt8 × List (Int × List Bytes)) :=
  if (t.pfds i).revents = 0 then pure (t, parser, [])
  else if (t.pfds i).revents &&& pollIn ≠ 0 then
    if i = 0 then
      if t.nfds ≥ socketMaxPoll then pure (t, parser, [])
      else if 0 ≤ p.accepted then pure (pollPush t p.accepted, parser, [])
      else pure (t, parser, [])
    else do
      let (parser, sent) ← socketReadSend L J R parser (p.segments i)
      pure (pollPop t (t.fds i), parser, [(t.fds i, sent)])
  else if i = 0 then pure (t, parser, [])
  else pure (pollPop t (t.fds i), parser, [])

def sweepSend (p : Passagem) : List (Fin socketMaxPoll) → Tabela → Parser σ UInt8 →
    DbProg (Tabela × Parser σ UInt8 × List (Int × List Bytes))
  | [], t, parser => pure (t, parser, [])
  | i :: slots, t, parser => do
    let (t, parser, served) ← slotTurnSend L J R p t parser i
    let (t, parser, others) ← sweepSend p slots t parser
    pure (t, parser, served ++ others)

/-- Until it is told to end. -/
def socketLoopPoll : List Poll → Tabela → Parser σ UInt8 →
    DbProg (Tabela × Parser σ UInt8 × List (Int × List Bytes))
  | [], t, parser => pure (t, parser, [])
  | .failed revents :: polls, t, parser => socketLoopPoll polls (t.report revents) parser
  | .ready p :: polls, t, parser => do
    let (t, parser, served) ←
      sweepSend L J R p (List.finRange socketMaxPoll) (t.report p.revents) parser
    let (t, parser, others) ← socketLoopPoll polls t parser
    pure (t, parser, served ++ others)

end

/-! ## What happens to the table -/

/-- What `accept` returns at a slot, if it were called there. -/
def Passagem.aceita (p : Passagem) (i : Fin socketMaxPoll) : Int := if i = 0 then p.accepted else -1

/-- What a turn reads. -/
def Passagem.lida (p : Passagem) (t : Tabela) (i : Fin socketMaxPoll) :
    List (Int × List Recebido) :=
  if .called .read (t.fds i) ∈ (slotTurn t i (p.aceita i)).1 then [(t.fds i, p.segments i)] else []

/-- The events of some turns, the connections that they read, and the table after them. -/
def Passagem.turnos (p : Passagem) : List (Fin socketMaxPoll) → Tabela →
    List Evento × List (Int × List Recebido) × Tabela
  | [], t => ([], [], t)
  | i :: slots, t =>
    let turn := slotTurn t i (p.aceita i)
    let later := p.turnos slots turn.2
    (later.1 ++ turn.1, p.lida t i ++ later.2.1, later.2.2)

def percorre : List Poll → Tabela → List Evento × List (Int × List Recebido) × Tabela
  | [], t => ([], [], t)
  | .failed revents :: polls, t => percorre polls (t.report revents)
  | .ready p :: polls, t =>
    let sweep := p.turnos (List.finRange socketMaxPoll) (t.report p.revents)
    let later := percorre polls sweep.2.2
    (later.1 ++ (sweep.1 ++ [.polled (t.report p.revents).reported]), sweep.2.1 ++ later.2.1,
      later.2.2)

/-! ## The connections that are read -/

section
variable {σ α : Type} {L : Llhttp σ} {J : Jansson} {R : Relogio}

theorem socketLoopSend_append (b : List (α × List Recebido)) :
    ∀ (a : List (α × List Recebido)) (parser : Parser σ UInt8),
      socketLoopSend L J R parser (a ++ b) = (do
        let (parser, served) ← socketLoopSend L J R parser a
        let (parser, others) ← socketLoopSend L J R parser b
        pure (parser, served ++ others))
  | [], parser => by
    simp only [List.nil_append, socketLoopSend, pure_bind]
    exact (bind_pure _).symm
  | (connection, segments) :: a, parser => by
    simp only [List.cons_append, socketLoopSend, socketLoopSend_append b a, bind_assoc, pure_bind]

theorem slotTurnSend_eq (p : Passagem) (t : Tabela) (parser : Parser σ UInt8)
    (i : Fin socketMaxPoll) : slotTurnSend L J R p t parser i = (do
      let (parser, served) ← socketLoopSend L J R parser (p.lida t i)
      pure ((slotTurn t i (p.aceita i)).2, parser, served)) := by
  unfold slotTurnSend Passagem.lida slotTurn Passagem.aceita
  simp only
  split_ifs <;> simp_all [socketLoopSend]

theorem sweepSend_eq (p : Passagem) :
    ∀ (slots : List (Fin socketMaxPoll)) (t : Tabela) (parser : Parser σ UInt8),
      sweepSend L J R p slots t parser = (do
        let (parser, served) ← socketLoopSend L J R parser (p.turnos slots t).2.1
        pure ((p.turnos slots t).2.2, parser, served))
  | [], t, parser => by simp only [sweepSend, Passagem.turnos, socketLoopSend, pure_bind]
  | i :: slots, t, parser => by
    simp only [sweepSend, Passagem.turnos, slotTurnSend_eq, sweepSend_eq p slots,
      socketLoopSend_append, bind_assoc, pure_bind]

/-- **The connections that are read** are served one after another, whatever else the loop
does with its table. -/
theorem socketLoopPoll_eq : ∀ (polls : List Poll) (t : Tabela) (parser : Parser σ UInt8),
    socketLoopPoll L J R polls t parser = (do
      let (parser, served) ← socketLoopSend L J R parser (percorre polls t).2.1
      pure ((percorre polls t).2.2, parser, served))
  | [], t, parser => by simp only [socketLoopPoll, percorre, socketLoopSend, pure_bind]
  | .failed revents :: polls, t, parser => by
    simp only [socketLoopPoll, percorre, socketLoopPoll_eq polls]
  | .ready p :: polls, t, parser => by
    simp only [socketLoopPoll, percorre, sweepSend_eq, socketLoopPoll_eq polls,
      socketLoopSend_append, bind_assoc, pure_bind]

end

/-! ## The table -/

section
variable {sock : Int} {tr : List Evento} {t : Tabela} {p : Passagem}

/-- The turns that are still to come. -/
def Controle.resto : Controle → List (Fin socketMaxPoll)
  | .poll => []
  | .slot i => (List.finRange socketMaxPoll).drop i

theorem resto_slot (i : Fin socketMaxPoll) :
    (Controle.slot i).resto = i :: (Controle.next i).resto := by
  have hlen : i.val < (List.finRange socketMaxPoll).length := by
    rw [List.length_finRange]
    exact i.isLt
  rw [Controle.resto, List.drop_eq_getElem_cons hlen, List.getElem_finRange]
  unfold Controle.next
  split
  · rfl
  · rename_i hend
    rw [List.drop_eq_nil_of_le (by rw [List.length_finRange]; omega)]
    rfl

theorem resto_zero : (Controle.slot 0).resto = List.finRange socketMaxPoll := rfl

/-- What the sockets may be that `accept` returns. -/
def Passagem.Nova (p : Passagem) (sock : Int) (tr : List Evento) : Prop :=
  0 ≤ p.accepted → p.accepted ≠ sock ∧ p.accepted ∉ abertos tr

theorem laco_turnos : ∀ {c : Controle} {tr : List Evento} {t : Tabela}
    {slots : List (Fin socketMaxPoll)}, c.resto = slots → Laco sock tr c t →
      (c = .slot 0 → p.Nova sock tr) →
      Laco sock ((p.turnos slots t).1 ++ tr) .poll (p.turnos slots t).2.2
  | .poll, tr, t, _, rfl, h, _ => h
  | .slot i, tr, t, [], hslots, _, _ => by
    rw [resto_slot] at hslots
    cases hslots
  | .slot i, tr, t, j :: slots, hslots, h, hnova => by
    rw [resto_slot] at hslots
    obtain ⟨rfl, rfl⟩ := List.cons.inj hslots
    have hturn := h.turn (p.aceita i) fun ha => ?_
    · rw [Passagem.turnos, List.append_assoc]
      exact laco_turnos rfl hturn fun he => absurd he (next_ne_start i)
    · unfold Passagem.aceita at ha ⊢
      split
      · rename_i hi
        subst hi
        exact hnova rfl (by simpa using ha)
      · rename_i hi
        simp [hi] at ha

/-- What `poll` and `accept` keep to: nothing is reported on an unused slot, and an accepted
socket is a new one. -/
def Contrato (sock : Int) : List Evento → Tabela → List Poll → Prop
  | _, _, [] => True
  | tr, t, .failed revents :: polls => Contrato sock tr (t.report revents) polls
  | tr, t, .ready p :: polls =>
    (∀ i, t.fds i = -1 → p.revents i = 0) ∧ p.Nova sock tr ∧
      Contrato sock
        ((p.turnos (List.finRange socketMaxPoll) (t.report p.revents)).1 ++
          .polled (t.report p.revents).reported :: tr)
        (p.turnos (List.finRange socketMaxPoll) (t.report p.revents)).2.2 polls

/-- The table of the loop is one of the table's own runs. -/
theorem laco_percorre {polls : List Poll} (h : Laco sock tr .poll t)
    (hc : Contrato sock tr t polls) :
    Laco sock ((percorre polls t).1 ++ tr) .poll (percorre polls t).2.2 := by
  induction polls generalizing tr t with
  | nil => exact h
  | cons poll polls ih =>
    cases poll with
    | failed revents => exact ih (.failed revents h) hc
    | ready p =>
      obtain ⟨unused, nova, hc⟩ := hc
      have hturns := laco_turnos resto_zero (.poll p.revents unused h) fun _ => nova
      have hrest := ih hturns hc
      simp only [percorre, List.append_assoc, List.singleton_append]
      exact hrest

end

/-! ## The sockets that are read -/

def Evento.lido? : Evento → Option Int
  | .called .read fd => some fd
  | _ => none

/-- The sockets that were read, in order. -/
def lidos (tr : List Evento) : List Int := (tr.filterMap Evento.lido?).reverse

section
variable {t : Tabela} {p : Passagem}

theorem lidos_append (later before : List Evento) :
    lidos (later ++ before) = lidos before ++ lidos later := by
  rw [lidos, List.filterMap_append, List.reverse_append]
  rfl

theorem lidos_lida (i : Fin socketMaxPoll) :
    lidos (slotTurn t i (p.aceita i)).1 = (p.lida t i).map Prod.fst := by
  unfold Passagem.lida
  rcases slotTurn_cases t i (p.aceita i) with he | ⟨_, _, _, he⟩ | ⟨_, _, calls, hcalls, he⟩
  · rw [he, if_neg (by simp)]
    rfl
  · rw [he, if_neg (by simp)]
    rfl
  · rcases hcalls with rfl | rfl
    · rw [he, if_pos (by simp)]
      rfl
    · rw [he, if_neg (by simp)]
      rfl

theorem lidos_turnos : ∀ (slots : List (Fin socketMaxPoll)) (t : Tabela),
    lidos (p.turnos slots t).1 = (p.turnos slots t).2.1.map Prod.fst
  | [], t => rfl
  | i :: slots, t => by
    simp only [Passagem.turnos, lidos_append, lidos_lida, lidos_turnos slots, List.map_append]

theorem lidos_percorre : ∀ (polls : List Poll) (t : Tabela),
    lidos (percorre polls t).1 = (percorre polls t).2.1.map Prod.fst
  | [], t => rfl
  | .failed revents :: polls, t => lidos_percorre polls (t.report revents)
  | .ready p :: polls, t => by
    simp only [percorre, lidos_append, lidos_turnos, lidos_percorre polls, List.map_append]
    rfl

end

end Crinha
