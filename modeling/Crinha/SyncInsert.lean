import Crinha.ReportedBalance
import Crinha.SqlText

/-!
# `transacao_repo_insert`

* `insert_agree`: the synchronous insert, which no handler uses, agrees with the other.
-/

namespace Crinha
open Pipeline CString Decimal

/-! ## Queries with a result -/

inductive Coluna where
  | id
  | limite
  | saldo

/-- The columns in the order of `create table cliente`. -/
def clienteColunas : List Coluna := [.id, .limite, .saldo]

def ClienteRow.value (c : ClienteRow) : Coluna → Bytes
  | .id => showNat c.id
  | .limite => showInt c.limite
  | .saldo => showInt c.saldo

/-- A statement without a result, or `select * from cliente where id = <id>`. -/
inductive Comando where
  | stmt (st : Stmt)
  | selectCliente (id : Nat)

def Db.execComando (agora : Nat) (d : Db) : Comando → Option (Db × Option DBResultSet)
  | .stmt st => (Db.exec agora d st).map fun d => (d, none)
  | .selectCliente id =>
    some (d, some ⟨(d.cliente.filter fun c => c.id = id).map fun c =>
      clienteColunas.map c.value⟩)

/-- `PQexec`: all commands in one transaction, and the result of the last one. -/
def pqExec (agora : Nat) (query : List Comando) (d : Db) : Option (Db × Option DBResultSet) :=
  query.foldlM (fun done command => Db.execComando agora done.1 command) (d, none)

/-- The three statements of the text of `transacao_repo_insert`. -/
def insertComandos (transacao : Transacao) : List Comando :=
  [.stmt (.updateSaldo (operacaoDe transacao) transacao.valor.toInt transacao.idCliente),
   .stmt (.insertTransacao transacao.idCliente transacao.valor.toInt transacao.tipo
    transacao.descricao),
   .selectCliente transacao.idCliente]

/-- The database afterwards, and what is returned: `NULL` on an error. -/
def transacaoRepoInsert (agora : Nat) (transacao : Transacao) (d : Db) : Db × Option Cliente :=
  match pqExec agora (insertComandos transacao) d with
  | some (d', resultSet) => (d', (firstRecord resultSet).map clienteDe)
  | none => (d, none)

/-! ## The two queries -/

section
variable {d d' : Db} {t : Transacao} {agora : Nat}

theorem pqExec_stmts (agora : Nat) (query : List Stmt) (d : Db) :
    pqExec agora (query.map .stmt) d = (Db.run agora query d).map fun d => (d, none) := by
  induction query generalizing d with
  | nil => rfl
  | cons st query ih =>
    rw [Db.run_cons, List.map_cons, pqExec, List.foldlM_cons]
    cases hexec : Db.exec agora d st with
    | none =>
      show Option.bind ((Db.exec agora d st).map _) _ = _
      rw [hexec]
      rfl
    | some d₁ =>
      show Option.bind ((Db.exec agora d st).map _) _ = _
      rw [hexec]
      exact ih d₁

/-- By position, the columns are those of `cliente_repo_find_one`. -/
theorem columns_record (c : ClienteRow) : clienteColunas.map c.value = c.record := rfl

/-- The query of the synchronous insert is the other one and a read. -/
theorem pqExec_insert : pqExec agora (insertComandos t) d =
    (Db.run agora (insertStmts t) d).map fun d =>
      (d, some ⟨(d.cliente.filter fun c => c.id = t.idCliente).map ClienteRow.record⟩) := by
  have hsplit : insertComandos t =
      (insertStmts t).map .stmt ++ [.selectCliente t.idCliente] := rfl
  have hstmts := pqExec_stmts agora (insertStmts t) d
  rw [pqExec] at hstmts ⊢
  rw [hsplit, List.foldlM_append, hstmts]
  cases Db.run agora (insertStmts t) d with
  | none => rfl
  | some d' =>
    have hcolunas : (fun c : ClienteRow => clienteColunas.map c.value) = ClienteRow.record :=
      funext columns_record
    show some (d', some (DBResultSet.mk
      (List.map (fun c => clienteColunas.map (ClienteRow.value c)) _))) = _
    rw [hcolunas]
    rfl

/-- The row of a client after a query of its own. -/
theorem find_insert {c : ClienteRow} {id : Nat} (op : Operacao) (valor : Int)
    (h : (d.cliente.find? fun c => c.id = id) = some c) :
    ((d.update op valor id).cliente.find? fun c => c.id = id) =
      some { c with saldo := op.apply c.saldo valor } := by
  have hid : c.id = id := by simpa using List.find?_some h
  have hsame : ((fun c : ClienteRow => decide (c.id = id)) ∘ fun c =>
      if c.id = id then { c with saldo := op.apply c.saldo valor } else c) =
      fun c => decide (c.id = id) := by
    funext x
    simp only [Function.comp_apply]
    split <;> rfl
  rw [Db.update, List.find?_map, hsame, h, Option.map_some, if_pos hid]

/-- What `update_saldo_cliente` makes of a row that was read is the row after the query. -/
theorem updateSaldoCliente_clienteDe {c : ClienteRow} (hsaldo : IsBigint c.saldo)
    (hnovo : IsBigint ((operacaoDe t).apply c.saldo t.valor.toInt)) :
    updateSaldoCliente (clienteDe c.record) t =
      clienteDe (ClienteRow.record
        { c with saldo := (operacaoDe t).apply c.saldo t.valor.toInt }) := by
  have hsum : c.saldo + efeito t.idCliente (insertStmts t) =
      (operacaoDe t).apply c.saldo t.valor.toInt := by
    rw [efeito_insertStmts]
    cases operacaoDe t <;> simp only [Operacao.apply] <;> omega
  have hsaldo' : (updateSaldoCliente (clienteDe c.record) t).saldo =
      Int64.ofInt ((operacaoDe t).apply c.saldo t.valor.toInt) := by
    rw [updateSaldoCliente_saldo (ofInt_atol hsaldo), hsum]
  have hnovo' := ofInt_atol
    (c := { c with saldo := (operacaoDe t).apply c.saldo t.valor.toInt }) hnovo
  have hrest : ∀ cliente : Cliente, updateSaldoCliente cliente t =
      { cliente with saldo := (updateSaldoCliente cliente t).saldo } := by
    intro cliente
    unfold updateSaldoCliente
    split <;> rfl
  rw [hrest, hsaldo', ← hnovo']
  rfl

/-- **The synchronous insert agrees with the asynchronous one.** For an accepted transaction,
the one query that `transacao_repo_insert_async` sends and that of `transacao_repo_insert`
commit in the same cases and leave the same tables, and the client that is returned
exactly then is the one the handler computes from its earlier read. -/
theorem insert_agree {J : Jansson} {url body : Bytes} {cliente : Cliente} {toChar : Nat → Bytes}
    (hd : ∀ c ∈ d.cliente, IsBigint c.saldo)
    (ha : Aceito J url body (d.answer toChar (.cliente t.idCliente)) cliente t) (agora : Nat) :
    ∃ query, transacaoRepoInsertAsync t = .submit query ∧
      (pqExec agora (insertComandos t) d).map Prod.fst = Db.run agora query d ∧
      (transacaoRepoInsert agora t d).1 = (Db.run agora query d).getD d ∧
      (transacaoRepoInsert agora t d).2 =
        (Db.run agora query d).map fun _ => updateSaldoCliente cliente t := by
  refine ⟨insertStmts t, rfl, ?_⟩
  rw [transacaoRepoInsert, pqExec_insert]
  cases hrun : Db.run agora (insertStmts t) d with
  | none => exact ⟨rfl, rfl, rfl⟩
  | some d' =>
    refine ⟨rfl, rfl, ?_⟩
    obtain ⟨hadm, _, rfl⟩ := run_insertStmts_some hrun
    have hlido := ha.lido
    rw [firstRecord_answer, Option.map_map, Option.map_eq_some_iff] at hlido
    obtain ⟨c, hc, rfl⟩ := hlido
    have hmem := List.mem_of_find?_eq_some hc
    have hid : c.id = t.idCliente := by simpa using List.find?_some hc
    have hupdate : (Stmt.updateSaldo (operacaoDe t) t.valor.toInt t.idCliente).Admits d :=
      hadm _ List.mem_cons_self
    have hfind := find_insert (operacaoDe t) t.valor.toInt hc
    simp only [Option.map_some, firstRecord, List.head?_map, List.head?_filter]
    show (Option.map ClienteRow.record (List.find? _ (d.update _ _ _).cliente)).map clienteDe = _
    rw [hfind, Option.map_some, Option.map_some]
    exact congrArg some
      (updateSaldoCliente_clienteDe (hd c hmem) (hupdate c hmem hid).1).symm

end

/-- A credit of 10 to client 1. -/
theorem insert_agree_pix : ∃ query,
    transacaoRepoInsertAsync (creditoDe (ascii "pix")) = .submit query ∧
    (transacaoRepoInsert 0 (creditoDe (ascii "pix")) Db.init).1.saldo 1 = some 10 ∧
    (transacaoRepoInsert 0 (creditoDe (ascii "pix")) Db.init).1 =
      (Db.run 0 query Db.init).getD Db.init ∧
    (transacaoRepoInsert 0 (creditoDe (ascii "pix")) Db.init).2 =
      (Db.run 0 query Db.init).map fun _ =>
        updateSaldoCliente (clienteDe (ClienteRow.record ⟨1, 100000, 0⟩))
          (creditoDe (ascii "pix")) := by
  have ha : Aceito (.pedido 10 (ascii "c") (ascii "pix") (by decide))
      (ascii "/clientes/1/transacoes") (pedidoTexto 10 (ascii "c") (ascii "pix"))
      (Db.init.answer Relogio.parado.toChar (.cliente 1))
      (clienteDe (ClienteRow.record ⟨1, 100000, 0⟩)) (creditoDe (ascii "pix")) :=
    ⟨⟨by decide, by decide, by decide⟩, rfl, by decide⟩
  have hd : ∀ c ∈ Db.init.cliente, IsBigint c.saldo := by decide
  obtain ⟨query, hquery, _, htables, hcliente⟩ := insert_agree (t := creditoDe (ascii "pix")) hd ha 0
  exact ⟨query, hquery, by decide, htables, hcliente⟩

end Crinha
