import Crinha.ConnectionFaults
import Crinha.Contas
import Crinha.Postgres
import Crinha.ServedCalls

/-!
# Any number of servers

* `servers_bank`: the tables are accounts;
* `servers_commit_once`, `servers_framed`: what one server commits and answers.
-/

namespace Crinha
open Pipeline CString Accounts

/-- The query of the transaction that a call asks for. -/
def Pede (J : Jansson) (query : List Stmt) (call : Atendimento) : Prop :=
  ∃ url body t, call.requisicao? = some (.post url (some body)) ∧ Pedido J url body t ∧
    query = insertStmts t

/-- The queries sent are those of some of the calls, in order. -/
def Feitas (J : Jansson) (calls : List Atendimento) (acts : List Ato) : Prop :=
  List.SublistForall₂ (Pede J) (acts.filterMap Act.sent?) calls

/-- The text that is sent for a call: no route takes it, or its handler gives this response. -/
inductive Atendida (J : Jansson) (R : Relogio) : Atendimento → Bytes → Prop where
  | recusada {call : RouterCall UInt8} {agora : Nat} (rota : call.requisicao? agora = none) :
      Atendida J R (.rota call agora true) Resposta.badRequest.text
  | respondida {call : RouterCall UInt8} {agora : Nat} {req : Requisicao}
      {attempts : List Tentativa} {resp : Resposta} (rota : call.requisicao? agora = some req)
      (cabe : IdCabe req.url) (exec : (handler J R req).Exec attempts (some resp)) :
      Atendida J R (.rota call agora true) resp.text

section
variable {J : Jansson} {R : Relogio} {call : Atendimento} {calls before : List Atendimento}
  {past acts : List Ato}

theorem Feitas.mono (h : Feitas J before acts) (hsub : before.Sublist calls) :
    Feitas J calls acts := by
  obtain ⟨l, hl, hbefore⟩ := List.sublistForall₂_iff.mp h
  exact List.sublistForall₂_iff.mpr ⟨l, hl, hbefore.trans hsub⟩

theorem Feitas.append (h : Feitas J before past) (hacts : Feitas J calls acts) :
    Feitas J (before ++ calls) (past ++ acts) := by
  obtain ⟨l, hl, hbefore⟩ := List.sublistForall₂_iff.mp h
  obtain ⟨l', hl', hcalls⟩ := List.sublistForall₂_iff.mp hacts
  rw [Feitas, List.filterMap_append]
  exact List.sublistForall₂_iff.mpr ⟨l ++ l', List.rel_append hl hl', hbefore.append hcalls⟩

/-- Nothing sent is in order. -/
theorem feitas_nil (h : acts.filterMap Act.sent? = []) : Feitas J calls acts := by
  rw [Feitas, h]
  exact .nil

theorem exists_pede {queries : List (List Stmt)} {query : List Stmt}
    (h : List.SublistForall₂ (Pede J) queries calls) (hquery : query ∈ queries) :
    ∃ call ∈ calls, Pede J query call := by
  induction h with
  | nil => cases hquery
  | @cons query' call' _ _ hpede _ ih =>
    rcases List.mem_cons.mp hquery with rfl | hquery
    · exact ⟨call', List.mem_cons_self, hpede⟩
    · obtain ⟨call, hcall, hpede⟩ := ih hquery
      exact ⟨call, List.mem_cons_of_mem _ hcall, hpede⟩
  | cons_right _ ih =>
    obtain ⟨call, hcall, hpede⟩ := ih hquery
    exact ⟨call, List.mem_cons_of_mem _ hcall, hpede⟩

/-- The query sent last is that of one of the calls. -/
theorem Feitas.last {query : List Stmt} (h : Feitas J calls (past ++ [.sent query])) :
    ∃ call ∈ calls, Pede J query call := by
  apply exists_pede h
  rw [List.filterMap_append]
  exact List.mem_append_right _ List.mem_cons_self

theorem feitas_envia {req : Requisicao} (hreq : call.requisicao? = some req)
    (h : Envia J req acts) : Feitas J [call] acts := by
  cases req with
  | get => exact h.elim
  | post url body =>
    obtain ⟨body, r, cliente, t, rfl, ha, rfl⟩ := h
    exact .cons ⟨url, body, t, hreq, ha.toPedido, rfl⟩ .nil

theorem feitas_responde {req : Requisicao} {resp : Resposta}
    (hreq : call.requisicao? = some req) (h : Responde J R req acts resp) :
    Feitas J [call] acts := by
  cases req with
  | get => exact feitas_nil h.1
  | post url body =>
    rcases h with ⟨body, r, cliente, t, hbody, ha, hacts, _⟩ | ⟨_, hn⟩
    · exact feitas_envia hreq ⟨body, r, cliente, t, hbody, ha, hacts⟩
    · exact feitas_nil hn

theorem atender_meets (h : Feitas J before past) (hsub : (before ++ [call]).Sublist calls) :
    (atender J R call).Meets (Feitas J calls)
      (fun acts text => Feitas J (before ++ [call]) acts ∧ Atendida J R call text) past := by
  cases call with
  | cheio => trivial
  | rota call agora presente =>
    have hroute : (routerRouteCall J R call agora).Meets (Feitas J calls) (fun acts resp =>
        Feitas J (before ++ [.rota call agora presente]) acts ∧
          (presente = true → Atendida J R (.rota call agora presente) resp.text)) past := by
      rw [routerRouteCall_eq]
      cases hreq : call.requisicao? agora with
      | none =>
        refine ⟨h.mono (List.sublist_append_left _ _), ?_⟩
        rintro rfl
        exact .recusada hreq
      | some req =>
        rw [Option.elim_some]
        split
        · rename_i hid
          have hcall : (Atendimento.rota call agora presente).requisicao? = some req := hreq
          rw [← List.append_nil past]
          refine (handler_meets J R req).and_exec.after past ?_ ?_
          · intro acts henvia
            exact (h.append (feitas_envia hcall henvia)).mono hsub
          · rintro acts resp ⟨hresp, attempts, hx⟩
            refine ⟨h.append (feitas_responde hcall hresp), ?_⟩
            rintro rfl
            exact .respondida hreq hid hx
        · trivial
    apply Prog.Meets.bind hroute
    rintro acts resp ⟨hfeitas, htext⟩
    cases presente with
    | true => exact ⟨hfeitas, htext rfl⟩
    | false => trivial

end

section
variable {σ : Type} {L : Llhttp σ} {J : Jansson} {R : Relogio} {servidor : Servidor σ}

theorem atenderConexao_meets {c : Int × List Atendimento} {past : List Ato}
    {before calls : List Atendimento} (h : Feitas J before past)
    (hsub : (before ++ c.2).Sublist calls) :
    (atenderConexao J R c).Meets (Feitas J calls) (fun acts sent => Feitas J (before ++ c.2) acts ∧
      sent.1 = c.1 ∧ List.Forall₂ (Atendida J R) c.2 sent.2) past := by
  have hserve : (c.2.mapM (atender J R)).Meets (Feitas J calls) (fun acts sent =>
      Feitas J (before ++ c.2) acts ∧ List.Forall₂ (Atendida J R) c.2 sent) past := by
    apply Prog.Meets.mapM fun done => Feitas J (before ++ done)
    · intro done call later he past hpast
      rw [← List.append_assoc]
      refine atender_meets hpast (List.Sublist.trans ?_ hsub)
      rw [he, ← List.append_assoc, List.append_cons (before ++ done) call later]
      exact List.sublist_append_left _ _
    · rwa [List.append_nil]
  apply Prog.Meets.bind hserve
  intro acts sent hsent
  exact ⟨hsent.1, rfl, hsent.2⟩

/-- Whatever a server receives, its queries are those of its calls, in order, and it answers
each call once. -/
theorem loop_meets (servidor : Servidor σ) :
    (servidor.loop L J R).Meets (Feitas J (servidor.chamadas L))
      (fun _ result => result.1 = (percorre servidor.polls servidor.tabela).2.2 ∧
        result.2.1 = (servidor.leituras L).1 ∧ List.Forall₂
          (fun c sent => sent.1 = c.1 ∧ List.Forall₂ (Atendida J R) c.2 sent.2)
          (servidor.leituras L).2 result.2.2) [] := by
  have hserve : ((servidor.leituras L).2.mapM (atenderConexao J R)).Meets
      (Feitas J (servidor.chamadas L)) (fun acts served =>
        Feitas J ((servidor.leituras L).2.flatMap Prod.snd) acts ∧ List.Forall₂
          (fun c sent => sent.1 = c.1 ∧ List.Forall₂ (Atendida J R) c.2 sent.2)
          (servidor.leituras L).2 served) [] := by
    apply Prog.Meets.mapM fun done => Feitas J (done.flatMap Prod.snd)
    · intro done c later he past hpast
      rw [List.flatMap_append, List.flatMap_singleton]
      refine atenderConexao_meets hpast ?_
      rw [Servidor.chamadas, he, List.flatMap_append, List.flatMap_cons, ← List.append_assoc]
      exact List.sublist_append_left _ _
    · exact feitas_nil rfl
  rw [Servidor.loop_calls]
  apply Prog.Meets.bind hserve
  intro acts served hserved
  exact ⟨rfl, rfl, hserved.2⟩

end

section
variable {P σ : Type} {L : Llhttp σ} {J : Jansson} {tr : List (RotuloServidores P σ)}

/-- The text of what a call asks for is read as it is meant. -/
def Atendimento.Lido (J : Jansson) (call : Atendimento) : Prop :=
  ∀ req, call.requisicao? = some req → Lida J req

/-- So are the texts of all calls that servers read. -/
def ChamadasLidas (L : Llhttp σ) (J : Jansson) (tr : List (RotuloServidores P σ)) : Prop :=
  ∀ l ∈ tr, ∀ servidor, l.deed = .accept servidor → ∀ call ∈ servidor.chamadas L, call.Lido J

theorem ChamadasLidas.of_all (h : ∀ req, Lida J req) : ChamadasLidas L J tr :=
  fun _ _ _ _ _ _ req _ => h req

theorem ChamadasLidas.sent {query : List Stmt} (h : ChamadasLidas L J tr)
    (hsent : Sent (fun servidor => Feitas J (servidor.chamadas L)) tr query) :
    readSql (queryText query) = some query := by
  obtain ⟨p, n, servidor, past, haccept, hpre⟩ := hsent
  obtain ⟨call, hcall, url, body, t, hreq, hp, rfl⟩ := hpre.last
  rw [queryText_insertStmts]
  exact h _ haccept servidor rfl call hcall _ hreq rfl hp

end

section
variable {P σ : Type} [DecidableEq P] {L : Llhttp σ} {J : Jansson} {R : Relogio}

abbrev EventoServidores (P σ : Type) :=
  Event P Db Consulta (Option DBResultSet) (List Stmt) (Servido σ) (Servidor σ)

abbrev EstadoServidores (P σ : Type) :=
  FaultyState P Db Consulta (Option DBResultSet) (List Stmt) (Servido σ) (Servidor σ)

abbrev ExecucaoServidores (L : Llhttp σ) (J : Jansson) (R : Relogio) :
    List (EventoServidores P σ) → EstadoServidores P σ → Prop :=
  FaultyRun (banco R) (Servidor.loop L J R) none (.start Db.init)

/-- The runs of servers on the tables of `init.sql`, with connections to the database that
break. -/
abbrev ExecucaoServidoresSql (B : Postgres) (L : Llhttp σ) (J : Jansson) (R : Relogio) :
    List (EventoServidores P σ) → EstadoServidores P σ → Prop :=
  FaultyRun (B.sobre (banco R)) (Servidor.loop L J R) none (.start Db.init)

theorem execucaoServidoresSql_iff {B : Postgres} {tr : List (EventoServidores P σ)}
    {s : EstadoServidores P σ} (h : ChamadasLidas L J (labels tr)) :
    ExecucaoServidoresSql B L J R tr s ↔ ExecucaoServidores L J R tr s :=
  ⟨(B.agree rfl).faultyRun loop_meets h.sent, (B.agree_symm rfl).faultyRun loop_meets h.sent⟩

/-- A computed schedule of the servers is one of their runs. -/
theorem execucaoServidores_of_play (L : Llhttp σ) (J : Jansson) (R : Relogio)
    (ms : List (Move P (Servidor σ) Nat))
    (p : List (RotuloServidores P σ) → EstadoServidoresUp P σ → Bool)
    (h : ((State.start Db.init).play (banco R) (Servidor.loop L J R) ms).map (fun r => p r.1 r.2) =
      some true) : ∃ tr s, ExecucaoServidores L J R (tr.map .step) ⟨s, fun _ => .up, []⟩ ∧
      p tr s = true := by
  obtain ⟨tr, s, hrun, hs⟩ := exists_run_of_play ms p h
  exact ⟨tr, s, .of_run none hrun, hs⟩

variable {B : Postgres} {tr : List (EventoServidores P σ)} {s : EstadoServidores P σ} {p : P}
  {n : Nat} {servidor : Servidor σ}

/-- **Servers make entries only.** Whatever bytes any number of servers receive, however these
are cut, and whatever connections break: every committed query is that of the transaction of
a call which its server read, and the bank makes the entries of these queries one after
another, each allowed when its turn comes, to have the accounts that the tables show. -/
theorem servers_bank (lidas : ChamadasLidas L J (labels tr))
    (h : ExecucaoServidoresSql B L J R tr s) :
    (∀ e ∈ commits (labels tr), ∃ servidor : Servidor σ,
      ⟨e.1, e.2.1, .accept servidor⟩ ∈ labels tr ∧ ∃ call ∈ servidor.chamadas L, Pede J e.2.2 call) ∧
    ∃ b, ((commits (labels tr)).map fun e => e.2.2).foldlM Contas.executa Contas.inicial = some b ∧
      Representa s.store b := by
  replace h := (execucaoServidoresSql_iff lidas).mp h
  constructor
  · intro e he
    obtain ⟨servidor, _, ha, hpre⟩ := faultyRun_commit loop_meets h he
    exact ⟨servidor, ha, hpre.last⟩
  · refine faultyRun_simulates loop_meets Representa Contas.executa representa_init ?_ h
    intro _ past query agora d d' b hpre hd hrun
    obtain ⟨_, _, _, _, t, _, hp, rfl⟩ := hpre.last
    obtain ⟨b', hpost, hrep⟩ := representa_run hd hp.tipo hrun
    exact ⟨b', by rw [executa_insertStmts, hpost], hrep⟩

/-- **Each call commits at most once.** What a server commits are the queries of some of the
calls that it read, whatever breaks. -/
theorem servers_commit_once (lidas : ChamadasLidas L J (labels tr))
    (h : ExecucaoServidoresSql B L J R tr s) (ha : ⟨p, n, .accept servidor⟩ ∈ labels tr) :
    ∃ queries, (commitsOf (labels tr) p n).Subperm queries ∧
      List.SublistForall₂ (Pede J) queries (servidor.chamadas L) := by
  replace h := (execucaoServidoresSql_iff lidas).mp h
  have htrack := (faultyRun_track loop_meets h).track
  refine ⟨_, commitsOf_subperm h p n, ?_⟩
  rcases htrack.sent_last p n with hn | ⟨servidor', past, query, ha', hpre, hlast⟩
  · exact feitas_nil hn
  · obtain rfl := (htrack.accepted ha ha').2
    rw [hlast]
    exact hpre

/-- **What a server answers is decided by the bytes**, but for the texts: its table, its
parser and the sockets are as without a database, and each call is answered once, in
order, whatever breaks. -/
theorem servers_framed {result : Servido σ} (h : ExecucaoServidoresSql B L J R tr s)
    (ha : ⟨p, n, .accept servidor⟩ ∈ labels tr) (hr : ⟨p, n, .answer result⟩ ∈ labels tr) :
    result.1 = (percorre servidor.polls servidor.tabela).2.2 ∧
      result.2.1 = (servidor.leituras L).1 ∧ List.Forall₂
        (fun c sent => sent.1 = c.1 ∧ List.Forall₂ (Atendida J R) c.2 sent.2)
        (servidor.leituras L).2 result.2.2 := by
  have htrack := (faultyRun_track (loop_meets (J := J) (R := R)) h).track
  obtain ⟨servidor', ha', hpost⟩ := htrack.answered hr
  rwa [← (htrack.accepted ha ha').2] at hpost

end

/-! ## A deposit whose connection to the database breaks -/

inductive PostState where
  | start
  | method
  | url
  | line
  | header (length : Nat)
  | newLine (length : Nat)
  | blankLine (length : Nat)
  | body (left : Nat)
  deriving DecidableEq

/-- An example machine, for a `POST` whose one header is the length of the body. -/
def postMachine : Llhttp PostState where
  init := .start
  next := fun s b => match s with
    | .start => if b = 80 then some ⟨.method, none, false, false⟩ else none
    | .method => some ⟨if b = 32 then .url else .method, none, false, false⟩
    | .url =>
      if b = 32 then some ⟨.line, none, false, false⟩ else some ⟨.url, some .url, false, false⟩
    | .line => some ⟨if b = 10 then .header 0 else .line, none, false, false⟩
    | .header n =>
      if b = 13 then some ⟨.newLine n, none, false, false⟩
      else if 48 ≤ b ∧ b ≤ 57 then some ⟨.header (10 * n + (b.toNat - 48)), none, false, false⟩
      else some ⟨.header n, none, false, false⟩
    | .newLine n => if b = 10 then some ⟨.blankLine n, none, false, false⟩ else none
    | .blankLine n =>
      if b = 13 then some ⟨.blankLine n, none, false, false⟩
      else if b = 10 then some ⟨.body n, none, false, false⟩ else none
    | .body n =>
      if n = 1 then some ⟨.start, some .body, true, false⟩
      else some ⟨.body (n - 1), some .body, false, false⟩
  closed := fun _ => false
  method := fun _ => 3

/-- Socket 4 is accepted, and then brings a deposit, its body in a second segment. -/
def servidorDeposito : Servidor PostState where
  polls := [.ready ⟨dadosEm 0, 4, fun _ => []⟩,
    .ready ⟨dadosEm 1, -1, fun _ =>
      [⟨ascii "POST /clientes/1/transacoes HTTP/1.1\r\nContent-Length: 41\r\n\r\n", 0, true⟩,
        ⟨pedidoTexto 10 (ascii "c") (ascii "pix"), 0, true⟩]⟩]
  tabela := ociosa
  parser := httpParserInit postMachine .zeros .zeros

/-- The deposit is answered, and its query in flight. -/
def depositoRespondido : List (RotuloServidores Bool PostState) → EstadoServidoresUp Bool PostState →
    Bool
  | [⟨true, 0, .accept _⟩, ⟨true, 0, .read _ _⟩, ⟨true, 0, .sent _⟩, ⟨true, 0, .answer _⟩], s =>
    depositoEmVoo s
  | _, _ => false

/-- The query commits after the connection broke. -/
theorem exists_deposito_recebido : ∃ (J : Jansson) (tr : List (EventoServidores Bool PostState))
    (s : EstadoServidores Bool PostState) (servidor : Servidor PostState)
    (result : Servido PostState), ChamadasLidas postMachine J (labels tr) ∧
      ExecucaoServidoresSql .estrito postMachine J .parado tr s ∧
      ⟨true, 0, .accept servidor⟩ ∈ labels tr ∧ ⟨true, 0, .answer result⟩ ∈ labels tr ∧
      .cut true ∈ tr ∧ s.store.saldo 1 = some 10 := by
  have hlida : ∀ req, Lida (.pedido 10 (ascii "c") (ascii "pix") (by decide)) req :=
    lida_pedido (by decide)
  obtain ⟨tr, s, hrun, hs⟩ := execucaoServidores_of_play postMachine
    (.pedido 10 (ascii "c") (ascii "pix") (by decide)) .parado
    [.accept true servidorDeposito, .go true, .go true, .go true] depositoRespondido
    (by decide +kernel)
  unfold depositoRespondido at hs
  split at hs
  · rename_i s servidor q r c result
    unfold depositoEmVoo at hs
    split at hs
    · rename_i n query hf
      have hcut := hrun.next (.cut (p := true) rfl)
      have hlate := hcut.next (.lateExec (p := true) (n := n) (c := query) (a := []) (b := []) 0
        (by simp [hf]) trivial)
      exact ⟨_, _, _, servidor, result, .of_all hlida,
        (execucaoServidoresSql_iff (.of_all hlida)).mpr hlate, by simp [mem_labels],
        by simp [mem_labels], by simp,
        by simpa using hs⟩
    · cases hs
  · cases hs

theorem servers_bank_deposito : ∃ (J : Jansson) (tr : List (EventoServidores Bool PostState))
    (s : EstadoServidores Bool PostState), ExecucaoServidoresSql .estrito postMachine J .parado tr s ∧
    .cut true ∈ tr ∧ s.store.saldo 1 = some 10 ∧
    (∀ e ∈ commits (labels tr), ∃ servidor : Servidor PostState,
      ⟨e.1, e.2.1, .accept servidor⟩ ∈ labels tr ∧
        ∃ call ∈ servidor.chamadas postMachine, Pede J e.2.2 call) ∧
    ∃ b, ((commits (labels tr)).map fun e => e.2.2).foldlM Contas.executa Contas.inicial = some b ∧
      Representa s.store b := by
  obtain ⟨J, tr, s, _, _, lidas, h, _, _, hcut, hs⟩ := exists_deposito_recebido
  exact ⟨J, tr, s, h, hcut, hs, servers_bank lidas h⟩

theorem servers_commit_once_deposito : ∃ (J : Jansson)
    (tr : List (EventoServidores Bool PostState)) (s : EstadoServidores Bool PostState)
    (servidor : Servidor PostState) (queries : List (List Stmt)),
    ExecucaoServidoresSql .estrito postMachine J .parado tr s ∧ .cut true ∈ tr ∧
      s.store.saldo 1 = some 10 ∧
      (commitsOf (labels tr) true 0).Subperm queries ∧
      List.SublistForall₂ (Pede J) queries (servidor.chamadas postMachine) := by
  obtain ⟨J, tr, s, servidor, _, lidas, h, ha, _, hcut, hs⟩ := exists_deposito_recebido
  obtain ⟨queries, hsub, hcalls⟩ := servers_commit_once lidas h ha
  exact ⟨J, tr, s, servidor, queries, h, hcut, hs, hsub, hcalls⟩

theorem servers_framed_deposito : ∃ (J : Jansson) (tr : List (EventoServidores Bool PostState))
    (s : EstadoServidores Bool PostState) (servidor : Servidor PostState)
    (result : Servido PostState), ExecucaoServidoresSql .estrito postMachine J .parado tr s ∧
    .cut true ∈ tr ∧ s.store.saldo 1 = some 10 ∧
    result.1 = (percorre servidor.polls servidor.tabela).2.2 ∧
    result.2.1 = (servidor.leituras postMachine).1 ∧ List.Forall₂
      (fun c sent => sent.1 = c.1 ∧ List.Forall₂ (Atendida J .parado) c.2 sent.2)
      (servidor.leituras postMachine).2 result.2.2 := by
  obtain ⟨J, tr, s, servidor, result, _, h, ha, hr, hcut, hs⟩ := exists_deposito_recebido
  exact ⟨J, tr, s, servidor, result, h, hcut, hs, servers_framed h ha hr⟩

end Crinha
