import Crinha.Ledger
import Crinha.Pipeline.Agreement
import Crinha.SqlText

/-!
# A database that reads texts

* `execucaoSql_iff`: where the text of each query is read as the UPDATE and INSERT it is
  meant to be, its runs are those of the statements.
-/

namespace Crinha
open Pipeline CString SqlLex

theorem queryText_insertStmts (t : Transacao) : queryText (insertStmts t) = insertAsyncQuery t := by
  simp [queryText, insertStmts, Stmt.text, insertAsyncQuery]

/-- A text that reads as statements is executed as these. What others do is left open: a
syntax error, other statements, a part of those that were meant. -/
structure Postgres where
  run : Nat → Bytes → Db → Option Db
  lido : ∀ {text query}, readSql text = some query →
    ∀ agora d, run agora text d = Db.run agora query d

/-- It executes no text that it cannot read. -/
def Postgres.estrito : Postgres where
  run := fun agora text d => (readSql text).bind fun query => Db.run agora query d
  lido := fun h agora d => by rw [h, Option.bind_some]

/-- The database `S`, sent the texts of the queries. -/
def Postgres.sobre (B : Postgres) (S : Store Db Consulta (Option DBResultSet) (List Stmt) Nat) :
    Store Db Consulta (Option DBResultSet) (List Stmt) Nat :=
  { S with run := fun agora query => B.run agora (queryText query) }

/-- The runs of the processes `P` from the tables of `init.sql`. -/
abbrev ExecucaoSql {P : Type} [DecidableEq P] (B : Postgres) (J : Jansson) (R : Relogio) :
    List (Rotulo P) → Estado P → Prop :=
  Run (B.sobre (banco R)) (handler J R) (.start Db.init)

/-! ## What is read as it is meant -/

/-- The text of what a request asks for is read as the UPDATE and INSERT of its values. -/
def Lida (J : Jansson) (req : Requisicao) : Prop :=
  ∀ {url body t}, req = .post url (some body) → Pedido J url body t →
    readSql (insertAsyncQuery t) = some (insertStmts t)

/-- So are the texts of all requests of a run. -/
def Lidas {P : Type} (J : Jansson) (tr : List (Rotulo P)) : Prop :=
  ∀ l ∈ tr, ∀ req, l.deed = .accept req → Lida J req

/-- A description without a quote is read as it is meant. -/
theorem lida_iff {J : Jansson} {req : Requisicao} : Lida J req ↔
    ∀ {url body t}, req = .post url (some body) → Pedido J url body t → 39 ∉ t.descricao := by
  constructor
  · intro h url body t hreq hp
    exact noQuote_of_readSql hp.tipo hp.valor_pos (h hreq hp)
  · intro h url body t hreq hp
    exact readSql_of_noQuote hp.tipo hp.valor_pos (h hreq hp)

theorem lida_pedido {valor : Int64} {tipo descricao : Bytes}
    {h : ∀ s ∈ [tipo, descricao], Utf8.valid s = true ∧ 0 ∉ s} (hquote : 39 ∉ descricao)
    (req : Requisicao) : Lida (.pedido valor tipo descricao h) req := by
  refine lida_iff.mpr fun {url body t} _ hp => ?_
  obtain ⟨s, hs, _, _, _, _, hd⟩ := hp.descricao
  have hload : s = descricao := by
    simp only [Jansson.pedido] at hs
    split at hs
    · simpa [pedidoJson, jsonObjectGet, jsonStringValue, List.lookup_cons, eq_comm] using hs
    · cases hs
  rw [hd, hload]
  exact fun hm => hquote (List.mem_of_mem_take hm)

theorem Lidas.of_all {P : Type} {J : Jansson} {tr : List (Rotulo P)} (h : ∀ req, Lida J req) :
    Lidas J tr :=
  fun _ _ req _ => h req

theorem Lidas.left {P : Type} {J : Jansson} {a b : List (Rotulo P)} (h : Lidas J (a ++ b)) :
    Lidas J a :=
  fun l hl req hreq => h l (List.mem_append_left _ hl) req hreq

section
variable {S : Store Db Consulta (Option DBResultSet) (List Stmt) Nat}

/-- A query whose text is read as it is meant is executed as it is meant. -/
theorem Postgres.lido_queryText (B : Postgres) {query : List Stmt}
    (h : readSql (queryText query) = some query) (hrun : S.run = Db.run) (agora : Nat) (d : Db) :
    (B.sobre S).run agora query d = S.run agora query d := by
  rw [hrun]
  exact B.lido h agora d

theorem Postgres.agree (B : Postgres) (hrun : S.run = Db.run) :
    Agree (B.sobre S) S fun query => readSql (queryText query) = some query :=
  ⟨rfl, id, fun h => B.lido_queryText h hrun⟩

theorem Postgres.agree_symm (B : Postgres) (hrun : S.run = Db.run) :
    Agree S (B.sobre S) fun query => readSql (queryText query) = some query :=
  ⟨rfl, id, fun h agora d => (B.lido_queryText h hrun agora d).symm⟩

end

theorem Lidas.sent {P : Type} {J : Jansson} {tr : List (Rotulo P)} {query : List Stmt}
    (h : Lidas J tr) (hsent : Sent (Envia J) tr query) : readSql (queryText query) = some query := by
  obtain ⟨p, n, req, past, haccept, hpre⟩ := hsent
  obtain ⟨url, body, _, _, t, hreq, ha, _, rfl⟩ := hpre.last
  rw [queryText_insertStmts]
  exact h _ haccept req rfl hreq ha.toPedido

variable {P : Type} [DecidableEq P] {B : Postgres} {J : Jansson} {R : Relogio}

/-- **Where the texts are read as they are meant**, the runs are those of the statements. -/
theorem execucaoSql_iff {tr : List (Rotulo P)} {s : Estado P} (h : Lidas J tr) :
    ExecucaoSql B J R tr s ↔ Execucao J R tr s :=
  ⟨(B.agree rfl).run (handler_meets J R) h.sent, (B.agree_symm rfl).run (handler_meets J R) h.sent⟩

/-- A computed schedule of requests without quotes. -/
theorem execucaoSql_of_play (B : Postgres) (hJ : ∀ req, Lida J req)
    (ms : List (Move P Requisicao Nat)) (p : List (Rotulo P) → Estado P → Bool)
    (h : ((State.start Db.init).play (banco R) (handler J R) ms).map (fun r => p r.1 r.2) =
      some true) : ∃ tr s, Lidas J tr ∧ ExecucaoSql B J R tr s ∧ p tr s = true := by
  obtain ⟨tr, s, hrun, hs⟩ := execucao_of_play J R ms p h
  exact ⟨tr, s, .of_all hJ, (execucaoSql_iff (.of_all hJ)).mpr hrun, hs⟩

end Crinha
