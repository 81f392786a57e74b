import Crinha.Acknowledgement
import Crinha.Pipeline.Faults

/-!
# Lost connections

* `ledger_with_faults`, `never_overdrawn`: what breaks does not harm the saldos;
* `committed_at_most_once`, `executed_unless_cut`: nor does it repeat a transaction, or lose
  one of another connection.
-/

namespace Crinha
open Pipeline CString

abbrev EventoComFalhas (P : Type) :=
  Event P Db Consulta (Option DBResultSet) (List Stmt) Resposta Requisicao

abbrev EstadoComFalhas (P : Type) :=
  FaultyState P Db Consulta (Option DBResultSet) (List Stmt) Resposta Requisicao

/-- The runs of the processes `P` over connections that break. -/
abbrev ExecucaoComFalhas {P : Type} [DecidableEq P] (J : Jansson) (R : Relogio) :
    List (EventoComFalhas P) → EstadoComFalhas P → Prop :=
  FaultyRun (banco R) (handler J R) none (.start Db.init)

/-- The same over a database that is sent texts. -/
abbrev ExecucaoComFalhasSql {P : Type} [DecidableEq P] (B : Postgres) (J : Jansson) (R : Relogio) :
    List (EventoComFalhas P) → EstadoComFalhas P → Prop :=
  FaultyRun (B.sobre (banco R)) (handler J R) none (.start Db.init)

theorem execucaoComFalhasSql_iff {P : Type} [DecidableEq P] {B : Postgres} {J : Jansson}
    {R : Relogio} {tr : List (EventoComFalhas P)} {s : EstadoComFalhas P}
    (h : Lidas J (labels tr)) :
    ExecucaoComFalhasSql B J R tr s ↔ ExecucaoComFalhas J R tr s :=
  ⟨(B.agree rfl).faultyRun (handler_meets J R) h.sent,
    (B.agree_symm rfl).faultyRun (handler_meets J R) h.sent⟩

/-! ## The tables as they were -/

/-- The database when `transacao` had its first `k` rows only. -/
def Db.ate (d : Db) (k : Nat) : Db := { d with transacao := d.transacao.take k }

structure Historico (d : Db) : Prop extends Consistente d where
  sempre : ∀ c ∈ d.cliente, ∀ k, -c.limite ≤ (d.ate k).soma c.id [99] - (d.ate k).soma c.id [100]

/-- With all its rows it is the database itself. -/
theorem Consistente.sempre_of_le {d : Db} (hd : Consistente d) {c : ClienteRow} (hc : c ∈ d.cliente)
    {k : Nat} (hk : d.transacao.length ≤ k) :
    -c.limite ≤ (d.ate k).soma c.id [99] - (d.ate k).soma c.id [100] := by
  have hate : d.ate k = d := by rw [Db.ate, List.take_of_length_le hk]
  rw [hate, ← hd.saldo c hc]
  exact hd.limite c hc

theorem historico_init : Historico Db.init :=
  ⟨consistente_init, fun _ hc k => consistente_init.sempre_of_le hc (Nat.zero_le k)⟩

theorem historico_run {d d' : Db} {t : Transacao} {agora : Nat} (hd : Historico d)
    (ht : t.tipo = [99] ∨ t.tipo = [100]) (h : Db.run agora (insertStmts t) d = some d') :
    Historico d' := by
  have hcons := consistente_run hd.toConsistente ht h
  refine ⟨hcons, fun c hc k => ?_⟩
  by_cases hk : d'.transacao.length ≤ k
  · exact hcons.sempre_of_le hc hk
  · obtain ⟨_, _, rfl⟩ := run_insertStmts_some h
    obtain ⟨c₀, hc₀, hid, hl, _⟩ := mem_update.mp hc
    have hle : k ≤ d.transacao.length := by
      simp only [Db.insert, Db.update, List.length_append, List.length_singleton] at hk
      omega
    have hsoma (tipo : Bytes) : ((((d.update (operacaoDe t) t.valor.toInt t.idCliente).insert agora
        t.idCliente t.valor.toInt t.tipo t.descricao).ate k).soma c.id tipo) =
        (d.ate k).soma c₀.id tipo := by
      simp only [Db.soma, Db.ate, Db.insert, Db.update, List.take_append_of_le_length hle, hid]
    rw [hsoma, hsoma, hl]
    exact hd.sempre c₀ hc₀ k

section
variable {P : Type} [DecidableEq P] {B : Postgres} {J : Jansson} {R : Relogio}
  {tr : List (EventoComFalhas P)} {s : EstadoComFalhas P} {p : P} {n : Nat} {req : Requisicao}
  {resp : Resposta}

theorem consistente_with_faults (h : ExecucaoComFalhas J R tr s) : Consistente s.store := by
  refine faultyRun_store_inv (handler_meets J R) consistente_init ?_ h
  intro req past c agora d d' hpre hd hrun
  obtain ⟨_, _, _, _, t, _, ha, _, rfl⟩ := hpre.last
  exact consistente_run hd ha.tipo hrun

/-- **The ledger invariant**, whatever breaks. -/
theorem ledger_with_faults (lidas : Lidas J (labels tr)) (h : ExecucaoComFalhasSql B J R tr s) :
    ∀ c ∈ s.store.cliente, c.saldo = s.store.soma c.id (ascii "c") - s.store.soma c.id (ascii "d") ∧
      -c.limite ≤ c.saldo := by
  have hcons := consistente_with_faults ((execucaoComFalhasSql_iff lidas).mp h)
  exact fun c hc => ⟨hcons.saldo c hc, hcons.limite c hc⟩

/-- **Nobody was ever overdrawn**: over the first rows of `transacao`, however many, each
client's credits less its debits stay above its limit. -/
theorem never_overdrawn (lidas : Lidas J (labels tr)) (h : ExecucaoComFalhasSql B J R tr s) :
    ∀ c ∈ s.store.cliente, ∀ k, -c.limite ≤
      (s.store.ate k).soma c.id (ascii "c") - (s.store.ate k).soma c.id (ascii "d") := by
  have hhist : Historico s.store := by
    rw [execucaoComFalhasSql_iff lidas] at h
    refine faultyRun_store_inv (handler_meets J R) historico_init ?_ h
    intro req past c agora d d' hpre hd hrun
    obtain ⟨_, _, _, _, t, _, ha, _, rfl⟩ := hpre.last
    exact historico_run hd ha.tipo hrun
  exact hhist.sempre

/-- What a request answered so did. -/
theorem answered_with_faults (h : ExecucaoComFalhas J R tr s)
    (ha : ⟨p, n, .accept req⟩ ∈ labels tr) (hr : ⟨p, n, .answer resp⟩ ∈ labels tr) :
    Responde J R req (actsOf (labels tr) p n) resp := by
  have htrack := (faultyRun_track (handler_meets J R) h).track
  obtain ⟨req', ha', hpost⟩ := htrack.answered hr
  rwa [(htrack.accepted ha ha').2]

/-- What a request hands over: nothing, or once the query of its transaction. -/
theorem sent_with_faults (h : ExecucaoComFalhas J R tr s) (ha : ⟨p, n, .accept req⟩ ∈ labels tr) :
    (actsOf (labels tr) p n).filterMap Act.sent? = [] ∨
    ∃ url body t, req = .post url (some body) ∧ Pedido J url body t ∧
      (actsOf (labels tr) p n).filterMap Act.sent? = [insertStmts t] := by
  have htrack := (faultyRun_track (handler_meets J R) h).track
  have honce {req : Requisicao} {past : List Ato} {c : List Stmt}
      (hpre : Envia J req (past ++ [.sent c])) :
      past.filterMap Act.sent? = [] := by
    obtain ⟨_, _, _, _, _, _, _, rfl, _⟩ := hpre.last
    rfl
  rcases htrack.sent_once honce p n with hn | ⟨req', past, c, ha', hpre, hc⟩
  · exact .inl hn
  · obtain ⟨url, body, _, _, t, rfl, haceito, _, rfl⟩ := hpre.last
    exact .inr ⟨url, body, t, (htrack.accepted ha ha').2, haceito.toPedido, hc⟩

/-- A request answered otherwise has handed nothing over. -/
theorem refused_with_faults (h : ExecucaoComFalhas J R tr s)
    (ha : ⟨p, n, .accept req⟩ ∈ labels tr) (hr : ⟨p, n, .answer resp⟩ ∈ labels tr)
    (refused : resp.status ≠ 200) : (actsOf (labels tr) p n).filterMap Act.sent? = [] := by
  have hresp := answered_with_faults h ha hr
  cases req with
  | post url body =>
    rcases hresp with ⟨_, _, _, _, _, _, _, rfl⟩ | ⟨_, hn⟩
    · exact absurd rfl refused
    · exact hn
  | get url agora => exact hresp.1

/-- **No transaction is applied twice or without its request, whatever breaks.** The
tables are what the committed queries made of them, in order; a request has at most one
of these, that of its own transaction, and none if it is answered otherwise than 200. -/
theorem committed_at_most_once (lidas : Lidas J (labels tr))
    (h : ExecucaoComFalhasSql B J R tr s) :
    s.store.transacao.map TransacaoRow.lancamento =
      (commits (labels tr)).flatMap (fun e => e.2.2.filterMap Stmt.lancamento?) ∧
    (∀ id, s.store.saldo id =
      (Db.init.saldo id).map (· + ((commits (labels tr)).map fun e => efeito id e.2.2).sum)) ∧
    ∀ p n req, ⟨p, n, .accept req⟩ ∈ labels tr →
      (commitsOf (labels tr) p n = [] ∨ ∃ url body t, req = .post url (some body) ∧
        Pedido J url body t ∧ commitsOf (labels tr) p n = [insertStmts t]) ∧
      ∀ resp, ⟨p, n, .answer resp⟩ ∈ labels tr → resp.status ≠ 200 →
        commitsOf (labels tr) p n = [] := by
  rw [execucaoComFalhasSql_iff lidas] at h
  refine ⟨?_, fun id => ?_, fun p n req ha => ⟨?_, fun resp hr refused => ?_⟩⟩
  · rw [faultyRun_observe_commits (fun d => d.transacao.map TransacaoRow.lancamento)
      (fun x c => x ++ c.filterMap Stmt.lancamento?) Db.run_transacao h, List.flatMap_eq_foldl]
    rfl
  · rw [faultyRun_observe_commits (fun d => d.saldo id) (fun x c => x.map (· + efeito id c))
      (fun hr => Db.run_saldo hr id) h, ← foldl_map_add]
  · have hsub := commitsOf_subperm h p n
    rcases sent_with_faults h ha with hn | ⟨url, body, t, rfl, hpedido, hc⟩
    · rw [hn] at hsub
      exact .inl (List.subperm_nil.mp hsub)
    · rw [hc] at hsub
      obtain ⟨l, hl, hsub⟩ := hsub
      rcases List.sublist_singleton.mp hsub with rfl | rfl
      · exact .inl hl.symm.eq_nil
      · exact .inr ⟨url, body, t, rfl, hpedido, hl.symm.eq_singleton⟩
  · have hsub := commitsOf_subperm h p n
    rw [refused_with_faults h ha hr refused] at hsub
    exact List.subperm_nil.mp hsub

/-- **What was acknowledged is executed, unless a connection broke after it came in**:
its process has then executed it as soon as its connection has nothing in flight. -/
theorem executed_unless_cut {url : Bytes} {body : Option Bytes} {a b : List (EventoComFalhas P)}
    (h : ExecucaoComFalhas J R (a ++ .step ⟨p, n, .accept (.post url body)⟩ :: b) s)
    (hb : .cut p ∉ b) (hr : .step ⟨p, n, .answer resp⟩ ∈ b) (ok : resp.status = 200)
    (drained : (s.client p).inFlight = []) :
    ∃ body' t o, body = some body' ∧ Pedido J url body' t ∧
      execsOf (labels (a ++ .step ⟨p, n, .accept (.post url body)⟩ :: b)) p n =
        [(insertStmts t, o)] := by
  have hread {req : Requisicao} {past : List Ato} {c : List Stmt}
      (hpre : Envia J req (past ++ [.sent c])) :
      ∃ q r, Act.asked q r ∈ past ∧ r ≠ none := by
    obtain ⟨_, _, r, _, _, _, ha, rfl, _⟩ := hpre.last
    refine ⟨_, r, List.mem_singleton_self _, fun hr => ?_⟩
    have hlido := ha.lido
    simp [hr, firstRecord] at hlido
  have hkept := faultyRun_kept (handler_meets J R) hread h rfl hb
  have hnone : unexecuted s p n = [] := by
    refine List.filterMap_eq_nil_iff.mpr fun e he => if_neg fun hn => ?_
    rw [drained, List.nil_append] at he
    exact hkept.kept e.2 (mem_orphansOf.mp (hn ▸ he))
  have hperm := execsOf_unexecuted h p n
  have haccept : Event.step ⟨p, n, .accept (.post url body)⟩ ∈
      a ++ .step ⟨p, n, .accept (.post url body)⟩ :: b := by simp
  have hanswer : Event.step ⟨p, n, .answer resp⟩ ∈
      a ++ .step ⟨p, n, .accept (.post url body)⟩ :: b := by simp [hr]
  rcases answered_with_faults h (mem_labels.mpr haccept) (mem_labels.mpr hanswer) with
    ⟨body', r, cliente, t, hbody, ha, hacts, _⟩ | ⟨hn, _⟩
  · rw [hnone, List.append_nil, hacts] at hperm
    obtain ⟨⟨c, o⟩, hx, hc⟩ := List.map_eq_singleton_iff.mp hperm.eq_singleton
    obtain rfl : c = insertStmts t := hc
    exact ⟨body', t, o, hbody, ha.toPedido, hx⟩
  · exact absurd ok hn

end

/-! ## A deposit whose connection breaks -/

/-- A query is in flight that brings client 1 to 10. -/
def depositoEmVoo {A Q : Type} (s : State Bool Db Consulta (Option DBResultSet) (List Stmt) A Q) :
    Bool :=
  match (s.client true).inFlight with
  | [(_, query)] => (((banco .parado).run 0 query s.store).getD s.store).saldo 1 == some 10
  | _ => false

/-- The query of an answered deposit commits after its connection broke. -/
theorem exists_deposito_perdido : ∃ (J : Jansson) (tr : List (EventoComFalhas Bool))
    (s : EstadoComFalhas Bool), Lidas J (labels tr) ∧ ExecucaoComFalhasSql .estrito J .parado tr s ∧
      .cut true ∈ tr ∧ s.store.saldo 1 = some 10 := by
  obtain ⟨tr, s, h, hs⟩ := execucao_of_play
    (.pedido 10 (ascii "c") (ascii "pix") (by decide)) .parado
    [.accept true (.post (ascii "/clientes/1/transacoes")
        (some (pedidoTexto 10 (ascii "c") (ascii "pix")))),
      .go true, .go true, .go true]
    (fun _ s => depositoEmVoo s) (by decide)
  unfold depositoEmVoo at hs
  split at hs
  · rename_i n query hf
    have hrun : ExecucaoComFalhas _ .parado _ _ := .of_run _ h
    have hcut := hrun.next (.cut (p := true) rfl)
    have hlate := hcut.next (.lateExec (p := true) (n := n) (c := query) (a := []) (b := []) 0
      (by simp [hf]) trivial)
    have hJ : ∀ req, Lida (.pedido 10 (ascii "c") (ascii "pix") (by decide)) req :=
      lida_pedido (by decide)
    exact ⟨_, _, _, .of_all hJ, (execucaoComFalhasSql_iff (.of_all hJ)).mpr hlate, by simp,
      by simpa using hs⟩
  · cases hs

theorem ledger_with_faults_perdido : ∃ (J : Jansson) (tr : List (EventoComFalhas Bool))
    (s : EstadoComFalhas Bool), ExecucaoComFalhasSql .estrito J .parado tr s ∧ .cut true ∈ tr ∧
      s.store.saldo 1 = some 10 ∧ ∀ c ∈ s.store.cliente,
        c.saldo = s.store.soma c.id (ascii "c") - s.store.soma c.id (ascii "d") ∧
          -c.limite ≤ c.saldo := by
  obtain ⟨J, tr, s, lidas, h, hcut, hs⟩ := exists_deposito_perdido
  exact ⟨J, tr, s, h, hcut, hs, ledger_with_faults lidas h⟩

theorem never_overdrawn_perdido : ∃ (J : Jansson) (tr : List (EventoComFalhas Bool))
    (s : EstadoComFalhas Bool), ExecucaoComFalhasSql .estrito J .parado tr s ∧ .cut true ∈ tr ∧
      s.store.saldo 1 = some 10 ∧ ∀ c ∈ s.store.cliente, ∀ k, -c.limite ≤
        (s.store.ate k).soma c.id (ascii "c") - (s.store.ate k).soma c.id (ascii "d") := by
  obtain ⟨J, tr, s, lidas, h, hcut, hs⟩ := exists_deposito_perdido
  exact ⟨J, tr, s, h, hcut, hs, never_overdrawn lidas h⟩

theorem committed_at_most_once_perdido : ∃ (J : Jansson) (tr : List (EventoComFalhas Bool))
    (s : EstadoComFalhas Bool), ExecucaoComFalhasSql .estrito J .parado tr s ∧ .cut true ∈ tr ∧
      s.store.saldo 1 = some 10 ∧ s.store.transacao.map TransacaoRow.lancamento =
        (commits (labels tr)).flatMap (fun e => e.2.2.filterMap Stmt.lancamento?) := by
  obtain ⟨J, tr, s, lidas, h, hcut, hs⟩ := exists_deposito_perdido
  exact ⟨J, tr, s, h, hcut, hs, (committed_at_most_once lidas h).1⟩

def depositoExecutado : List (Rotulo Bool) → Estado Bool → Bool
  | [⟨true, 0, .accept (.post _ (some _))⟩, ⟨true, 0, .read _ _⟩, ⟨true, 0, .sent _⟩,
      ⟨true, 0, .answer resp⟩, ⟨true, 0, .exec _ _⟩], s =>
    resp.status == 200 && (s.client true).inFlight.isEmpty
  | _, _ => false

theorem executed_unless_cut_deposito : ∃ (J : Jansson) (tr : List (EventoComFalhas Bool))
    (s : EstadoComFalhas Bool), ExecucaoComFalhas J .parado tr s ∧
      ∃ t o, execsOf (labels tr) true 0 = [(insertStmts t, o)] := by
  obtain ⟨tr, s, h, hs⟩ := execucao_of_play
    (.pedido 10 (ascii "c") (ascii "pix") (by decide)) .parado
    [.accept true (.post (ascii "/clientes/1/transacoes")
        (some (pedidoTexto 10 (ascii "c") (ascii "pix")))),
      .go true, .go true, .go true, .exec true 0]
    (fun tr s => depositoExecutado tr s) (by decide)
  unfold depositoExecutado at hs
  split at hs
  · rename_i s url body q r c resp c' o
    simp only [Bool.and_eq_true, beq_iff_eq, List.isEmpty_iff] at hs
    have hrun : ExecucaoComFalhas _ .parado _ _ := .of_run _ h
    obtain ⟨_, t, o, _, _, hx⟩ := executed_unless_cut (a := []) (b := [_, _, _, _]) hrun
      (by simp) (by simp) hs.1 hs.2
    exact ⟨_, _, _, hrun, t, o, hx⟩
  · cases hs

end Crinha
