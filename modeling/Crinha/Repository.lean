import Crinha.Pipeline.Draining
import Crinha.Schema

/-!
# Repositories and services

The functions of `util/db_connection.c`, `repository/` and `service/`, as programs
that talk to the database.
-/

namespace Crinha
open Pipeline CString Decimal

/-! ## What is sent

The arguments of `asprintf` stand for the query that it renders: a `Consulta`, or the
format and values of each `Stmt`. The database is sent the text (`queryText`). -/

abbrev DbProg := Prog Consulta (Option DBResultSet) (List Stmt)

def Operacao.char : Operacao → UInt8
  | mais => 43
  | menos => 45

def Stmt.text : Stmt → Bytes
  | updateSaldo op valor id =>
    ascii "update cliente set saldo = saldo " ++ [op.char] ++ ascii " " ++ showInt valor ++
      ascii " where id = " ++ showNat id ++ ascii ";"
  | insertTransacao idCliente valor tipo descricao =>
    ascii "insert into transacao(id_cliente, valor, tipo, descricao) values(" ++
      showNat idCliente ++ ascii ", " ++ showInt valor ++ ascii ", '" ++ tipo ++ ascii "', '" ++
      descricao ++ ascii "');"

/-- The values are put into the text as they are, also a `descricao` with quotes in it. -/
def queryText (query : List Stmt) : Bytes := query.flatMap Stmt.text

/-! ## `util/db_connection.c` -/

/-- `PQexec` waits for the results of the query in flight before it sends this one. -/
def dbQuery (query : Consulta) : DbProg (Option DBResultSet) := .ask query

/-- Drains the connection, then sends the text of `query` without waiting for its result. -/
def dbExecuteAsync (query : List Stmt) : DbProg Bool := .submit query

/-- The same on a connection that refuses a query while another is in progress: `PQgetResult`
until it returns `NULL`, and then `PQsendQuery`. -/
def dbExecuteAsyncConn (query : List Stmt) :
    ConnProg Consulta (Option DBResultSet) (List Stmt) Bool := do
  drain
  .submit query

theorem draining_dbExecuteAsync (query : List Stmt) :
    (dbExecuteAsync query).draining = dbExecuteAsyncConn query := rfl

/-- `NULL` is dereferenced. -/
def dbClearResultSet : Option DBResultSet → DbProg Unit
  | none => .halt
  | some _ => pure ()

/-! ## `repository/` -/

def fieldsValue (record : DBRecord) (j : Nat) : Bytes := record.getD j []

def atol (s : Bytes) : Int64 :=
  Int64.ofInt (max (-9223372036854775808) (min 9223372036854775807 (parseInt s)))

/-- Only read from digits that fit an `int`. -/
def atoi (s : Bytes) : Nat := (parseInt s).toNat

def clienteDe (record : DBRecord) : Cliente where
  id := atoi (fieldsValue record 0)
  limite := atol (fieldsValue record 1)
  saldo := atol (fieldsValue record 2)

/-- The row both the result set and the first of its records are there for. -/
def firstRecord : Option DBResultSet → Option DBRecord
  | some resultSet => resultSet.records.head?
  | none => none

def clienteRepoFindOne (id : Nat) : DbProg (Option Cliente) := do
  let resultSet ← dbQuery (.cliente id)
  let cliente := (firstRecord resultSet).map clienteDe
  dbClearResultSet resultSet
  pure cliente

def transacaoDe (record : DBRecord) : Transacao where
  id := atoi (fieldsValue record 0)
  idCliente := atoi (fieldsValue record 1)
  valor := atol (fieldsValue record 2)
  tipo := copied (fieldsValue record 3) transacaoTipoLen
  descricao := copied (fieldsValue record 4) utf8TransacaoDescricaoLen
  realizadaEm := copied (fieldsValue record 5) transacaoRealizadaEmLen

def transacaoRepoFindLast10 (idCliente : Nat) : DbProg (List Transacao) := do
  let resultSet ← dbQuery (.ultimas idCliente)
  match resultSet with
  | some resultSet => pure (resultSet.records.map transacaoDe)
  | none => pure []

def operacaoDe (transacao : Transacao) : Operacao :=
  if transacao.tipo.head? = some 99 then .mais else .menos

/-- The format of `transacao_repo_insert_async`: two statements, with their values. -/
def insertStmts (transacao : Transacao) : List Stmt :=
  [.updateSaldo (operacaoDe transacao) transacao.valor.toInt transacao.idCliente,
   .insertTransacao transacao.idCliente transacao.valor.toInt transacao.tipo transacao.descricao]

def transacaoRepoInsertAsync (transacao : Transacao) : DbProg Bool :=
  dbExecuteAsync (insertStmts transacao)

/-! ## `service/` -/

def clienteServiceFindOne (id : Nat) : DbProg (Option Cliente) := clienteRepoFindOne id

def transacaoServiceFindLast10 (idCliente : Nat) : DbProg (List Transacao) :=
  transacaoRepoFindLast10 idCliente

def transacaoServiceSaveAsync (transacao : Transacao) : DbProg Bool :=
  transacaoRepoInsertAsync transacao

/-! ## What is read is what is stored -/

theorem atol_showInt {x : Int} (h : IsBigint x) : (atol (showInt x)).toInt = x := by
  obtain ⟨hlo, hhi⟩ := h
  rw [atol, parseInt_showInt, min_eq_right hhi, max_eq_right hlo]
  exact Int64.toInt_ofInt_of_le hlo (by omega)

/-- The record of a client row that `clienteRepoFindOne` works on. -/
theorem firstRecord_answer (toChar : Nat → Bytes) (d : Db) (id : Nat) :
    firstRecord (d.answer toChar (.cliente id)) =
      (d.cliente.find? fun c => c.id = id).map ClienteRow.record := by
  simp only [firstRecord, Db.answer, List.head?_map, List.head?_filter]

theorem saldo_clienteDe {c : ClienteRow} (h : IsBigint c.saldo) :
    (clienteDe c.record).saldo.toInt = c.saldo := atol_showInt h

theorem limite_clienteDe {c : ClienteRow} (h : IsBigint c.limite) :
    (clienteDe c.record).limite.toInt = c.limite := atol_showInt h

end Crinha
