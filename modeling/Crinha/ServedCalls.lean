import Crinha.EventLoop

/-!
# What a server reads decides what it serves

* `chamadasLoop_calls`: the calls are those of `socketLoop`, whatever the database answers;
* `Servidor.loop_calls`: a server parses what it reads, and serves the calls.
-/

namespace Crinha
open Pipeline CString

/-! ## Parsing -/

/-- A call, with the time of the read that completes it and whether its peer is still there; or a
read that fills the buffer. -/
inductive Atendimento where
  | rota (call : RouterCall UInt8) (agora : Nat) (presente : Bool)
  | cheio
  deriving DecidableEq

def Atendimento.call? : Atendimento → Option (RouterCall UInt8)
  | rota call _ _ => some call
  | cheio => none

def Atendimento.requisicao? : Atendimento → Option Requisicao
  | rota call agora _ => call.requisicao? agora
  | cheio => none

section
variable {α σ : Type} (L : Llhttp σ)

/-- The calls of `socket_read`. -/
def chamadasRead (parser : Parser σ UInt8) : List Recebido → Parser σ UInt8 × List Atendimento
  | [] => (parser, [])
  | segment :: segments =>
    if socketMaxReadBuffer ≤ segment.bytes.length then (parser, [.cheio])
    else
      let parse := httpParserParse L parser segment.bytes
      if parse.2 && httpParserRequestIsComplete parse.1 then
        let call : RouterCall UInt8 :=
          ⟨L.method parse.1.state, parse.1.request.url.str, parse.1.request.body.str⟩
        let later := chamadasRead (httpParserResetRequest L parse.1) segments
        (later.1, .rota call segment.agora segment.presente :: later.2)
      else chamadasRead parse.1 segments

def chamadasLoop (parser : Parser σ UInt8) :
    List (α × List Recebido) → Parser σ UInt8 × List (α × List Atendimento)
  | [] => (parser, [])
  | (connection, segments) :: connections =>
    let read := chamadasRead L parser segments
    let later := chamadasLoop read.1 connections
    (later.1, (connection, read.2) :: later.2)

variable {L}

theorem chamadasRead_calls : ∀ (segments : List Recebido) (parser : Parser σ UInt8),
    (∀ segment ∈ segments, segment.bytes.length < socketMaxReadBuffer) →
    socketRead L parser (segments.map Recebido.bytes) =
      ((chamadasRead L parser segments).1,
        (chamadasRead L parser segments).2.filterMap Atendimento.call?)
  | [], _, _ => rfl
  | segment :: segments, parser, h => by
    have hlater : ∀ segment ∈ segments, segment.bytes.length < socketMaxReadBuffer :=
      fun segment hm => h segment (List.mem_cons_of_mem _ hm)
    simp only [List.map_cons, socketRead, chamadasRead,
      if_neg (Nat.not_le_of_lt (h segment List.mem_cons_self))]
    split
    · rw [chamadasRead_calls segments _ hlater]
      rfl
    · rw [chamadasRead_calls segments _ hlater]

theorem chamadasLoop_fst : ∀ (connections : List (α × List Recebido)) (parser : Parser σ UInt8),
    (chamadasLoop L parser connections).2.map Prod.fst = connections.map Prod.fst
  | [], _ => rfl
  | (connection, _) :: connections, _ =>
    congrArg (connection :: ·) (chamadasLoop_fst connections _)

/-- If no read fills the buffer, they are the calls of `socketLoop`. -/
theorem chamadasLoop_calls : ∀ (connections : List (α × List Recebido)) (parser : Parser σ UInt8),
    (∀ c ∈ connections, ∀ segment ∈ c.2, segment.bytes.length < socketMaxReadBuffer) →
    socketLoop L parser (connections.map fun c => (c.1, c.2.map Recebido.bytes)) =
      ((chamadasLoop L parser connections).1, (chamadasLoop L parser connections).2.map
        fun c => (c.1, c.2.filterMap Atendimento.call?))
  | [], _, _ => rfl
  | (connection, segments) :: connections, parser, h => by
    have hread := chamadasRead_calls (L := L) segments parser (h _ List.mem_cons_self)
    have hlater := chamadasLoop_calls connections (chamadasRead L parser segments).1
      fun c hm => h c (List.mem_cons_of_mem _ hm)
    simp only [List.map_cons, socketLoop, chamadasLoop, hread, hlater]

end

/-! ## Serving -/

section
variable {α σ : Type} {L : Llhttp σ} (J : Jansson) (R : Relogio)

/-- What is sent for a call. -/
def atender : Atendimento → DbProg Bytes
  | .rota call agora presente => do
    let response ← routerRouteCall J R call agora
    if presente then pure response.text else .halt
  | .cheio => .halt

def atenderConexao (c : α × List Atendimento) : DbProg (α × List Bytes) := do
  let sent ← c.2.mapM (atender J R)
  pure (c.1, sent)

variable {J R}

theorem socketReadSend_calls : ∀ (segments : List Recebido) (parser : Parser σ UInt8),
    socketReadSend L J R parser segments = (do
      let sent ← (chamadasRead L parser segments).2.mapM (atender J R)
      pure ((chamadasRead L parser segments).1, sent))
  | [], _ => rfl
  | segment :: segments, parser => by
    simp only [socketReadSend, chamadasRead]
    split
    · rfl
    · split
      · simp only [socketReadSend_calls segments, List.mapM_cons, atender, bind_assoc]
        cases segment.presente <;> simp
      · exact socketReadSend_calls segments _

theorem socketLoopSend_calls : ∀ (connections : List (α × List Recebido))
    (parser : Parser σ UInt8), socketLoopSend L J R parser connections = (do
      let served ← (chamadasLoop L parser connections).2.mapM (atenderConexao J R)
      pure ((chamadasLoop L parser connections).1, served))
  | [], _ => rfl
  | (connection, segments) :: connections, parser => by
    simp only [socketLoopSend, chamadasLoop, socketReadSend_calls, socketLoopSend_calls connections,
      List.mapM_cons, atenderConexao, bind_assoc, pure_bind]

end

/-! ## A whole server -/

/-- A server with what it will receive and the state it starts from. -/
structure Servidor (σ : Type) where
  polls : List Poll
  tabela : Tabela
  parser : Parser σ UInt8

/-- What a server returns: its table and its parser, and what it sent on each socket. -/
abbrev Servido (σ : Type) := Tabela × Parser σ UInt8 × List (Int × List Bytes)

abbrev RotuloServidores (P σ : Type) :=
  Label P Db Consulta (Option DBResultSet) (List Stmt) (Servido σ) (Servidor σ)

/-- The state of servers whose connections to the database do not break. -/
abbrev EstadoServidoresUp (P σ : Type) :=
  State P Db Consulta (Option DBResultSet) (List Stmt) (Servido σ) (Servidor σ)

section
variable {σ : Type} (L : Llhttp σ) (J : Jansson) (R : Relogio) (servidor : Servidor σ)

def Servidor.loop : DbProg (Servido σ) :=
  socketLoopPoll L J R servidor.polls servidor.tabela servidor.parser

/-- Its parser at the end, and the calls that it makes for each socket that it reads. -/
def Servidor.leituras : Parser σ UInt8 × List (Int × List Atendimento) :=
  chamadasLoop L servidor.parser (percorre servidor.polls servidor.tabela).2.1

def Servidor.chamadas : List Atendimento :=
  (servidor.leituras L).2.flatMap Prod.snd

variable {L J R}

/-- **A server parses what it reads, and serves the calls one after another.** -/
theorem Servidor.loop_calls : servidor.loop L J R = (do
    let served ← (servidor.leituras L).2.mapM (atenderConexao J R)
    pure ((percorre servidor.polls servidor.tabela).2.2, (servidor.leituras L).1, served)) := by
  simp only [Servidor.loop, Servidor.leituras, socketLoopPoll_eq, socketLoopSend_calls, bind_assoc,
    pure_bind]

end

end Crinha
