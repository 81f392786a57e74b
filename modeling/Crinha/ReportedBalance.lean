import Crinha.Acknowledgement

/-!
# The balance a POST reports

The reported saldo is computed from the row that was read, so it leaves out what
committed between the read and the query's own execution (`reported_saldo`).
-/

namespace Crinha
open Pipeline CString

section
variable {P : Type} [DecidableEq P] {B : Postgres} {J : Jansson} {R : Relogio}
  {tr : List (Rotulo P)} {s : Estado P} {d : Db} {t : Transacao}

theorem ofInt_atol {c : ClienteRow} (h : IsBigint c.saldo) :
    (clienteDe c.record).saldo = Int64.ofInt c.saldo := by
  rw [← Int64.toInt_inj, saldo_clienteDe h]
  exact (Int64.toInt_ofInt_of_le h.1 (by have := h.2; omega)).symm

theorem saldo_mem {id : Nat} {x : Int} (h : d.saldo id = some x) :
    ∃ c ∈ d.cliente, c.id = id ∧ c.saldo = x := by
  simp only [Db.saldo, Option.map_eq_some_iff] at h
  obtain ⟨c, hc, rfl⟩ := h
  exact ⟨c, List.mem_of_find?_eq_some hc, by simpa using List.find?_some hc, rfl⟩

/-- The client a handler works on is the row of the database it read from. -/
theorem lido_answer (toChar : Nat → Bytes) {id : Nat} {cliente : Cliente}
    (h : (firstRecord (d.answer toChar (.cliente id))).map clienteDe = some cliente) :
    ∃ c ∈ d.cliente, c.id = id ∧ d.saldo id = some c.saldo ∧ cliente = clienteDe c.record := by
  rw [firstRecord_answer, Option.map_map, Option.map_eq_some_iff] at h
  obtain ⟨c, hc, rfl⟩ := h
  have hid : c.id = id := by simpa using List.find?_some hc
  exact ⟨c, List.mem_of_find?_eq_some hc, hid, by rw [Db.saldo, hc]; rfl, rfl⟩

/-- What the query of a transaction adds to its client's saldo. -/
theorem efeito_insertStmts (t : Transacao) :
    efeito t.idCliente (insertStmts t) = (operacaoDe t).apply 0 t.valor.toInt := by
  simp [efeito, insertStmts, Stmt.delta]

/-- `update_saldo_cliente` adds, in 64 bits, what the query adds. -/
theorem updateSaldoCliente_saldo {cliente : Cliente} {x : Int} (h : cliente.saldo = Int64.ofInt x) :
    (updateSaldoCliente cliente t).saldo =
      Int64.ofInt (x + efeito t.idCliente (insertStmts t)) := by
  rw [efeito_insertStmts]
  unfold updateSaldoCliente operacaoDe
  split
  · simp only [h, Operacao.apply, Int.zero_add, Int64.ofInt_add, Int64.ofInt_toInt]
  · simp only [h, Operacao.apply, Int.zero_sub, ← Int.sub_eq_add_neg, Int64.ofInt_sub,
      Int64.ofInt_toInt]

/-- **The reported saldo** is made, by `update_saldo_cliente`, of the client that was
read. It is the saldo right after the request's own commit, less what the queries of the
same client add that were committed after its read and before its own. With none of
these it is the true one. -/
theorem reported_saldo {p : P} {n id : Nat} {url : Bytes} {body : Option Bytes} {resp : Resposta}
    {r : Option DBResultSet} {query : List Stmt} {d' : Db} {a b c : List (Rotulo P)}
    (lidas : Lidas J
      (a ++ ⟨p, n, .read (.cliente id) r⟩ :: (b ++ ⟨p, n, .exec query (some d')⟩ :: c)))
    (h : ExecucaoSql B J R
      (a ++ ⟨p, n, .read (.cliente id) r⟩ :: (b ++ ⟨p, n, .exec query (some d')⟩ :: c)) s)
    (ha : ⟨p, n, .accept (.post url body)⟩ ∈
      a ++ ⟨p, n, .read (.cliente id) r⟩ :: (b ++ ⟨p, n, .exec query (some d')⟩ :: c))
    (hr : ⟨p, n, .answer resp⟩ ∈
      a ++ ⟨p, n, .read (.cliente id) r⟩ :: (b ++ ⟨p, n, .exec query (some d')⟩ :: c))
    (ok : resp.status = 200) :
    ∃ body' lido t cliente x, body = some body' ∧ Pedido J url body' t ∧ t.idCliente = id ∧
      query = insertStmts t ∧ (firstRecord r).map clienteDe = some lido ∧
      cliente = updateSaldoCliente lido t ∧ resp = .ok (buildJsonSaldo cliente) ∧
      d'.saldo id = some x ∧
      cliente.saldo = Int64.ofInt (x - ((commits b).map fun e => efeito id e.2.2).sum) ∧
      (((commits b).map fun e => efeito id e.2.2).sum = 0 → cliente.saldo.toInt = x) := by
  rw [execucaoSql_iff lidas] at h
  obtain ⟨body', r₀, cliente, t, hbody, haceito, hacts, rfl⟩ := answered_ok h ha hr ok
  -- the only read of the request is this one, and its only query the one executed
  have hread : .asked (.cliente id) r ∈ enviar r₀ t := by
    rw [← hacts, actsOf_append]
    exact List.mem_append_right _
      (List.mem_filterMap.mpr ⟨_, List.mem_cons_self, by simp [Deed.act?]⟩)
  obtain ⟨rfl, rfl⟩ : id = t.idCliente ∧ r = r₀ := by simpa [enviar] using hread
  have hquery : query = insertStmts t := by
    have hx := (execsOf_in_order h p n).subset
      (List.mem_map.mpr ⟨(query, some d'), mem_execsOf.mpr (by simp), rfl⟩)
    simpa [hacts, enviar, Act.sent?, eq_comm] using hx
  subst hquery
  -- the states at the read and at the execution
  obtain ⟨s₁, s₂, h₁, hstep₁, h₂⟩ := h.split _
  obtain ⟨s₃, s₄, h₃, hstep₃, h₄⟩ := h₂.split _
  obtain ⟨hr₁, hs₂⟩ := hstep₁.read_inv
  obtain ⟨agora, hrun, hs₄⟩ := hstep₃.exec_inv
  have hlido := haceito.lido
  rw [hr₁] at hlido
  obtain ⟨row, hrow, _, hx, rfl⟩ := lido_answer R.toChar hlido
  have hsaldo := saldo_eq_commits h₃ t.idCliente
  rw [hs₂, hx, Option.map_some] at hsaldo
  have hdepois := Db.run_saldo hrun.symm t.idCliente
  rw [hsaldo, Option.map_some] at hdepois
  have hlivre : (updateSaldoCliente (clienteDe row.record) t).saldo =
      Int64.ofInt (row.saldo + efeito t.idCliente (insertStmts t)) :=
    updateSaldoCliente_saldo (ofInt_atol ((consistente h₁).bigint row hrow).1)
  generalize hsum : ((commits b).map fun e => efeito t.idCliente e.2.2).sum = outros at *
  refine ⟨body', _, t, _, _, hbody, haceito.toPedido, rfl, rfl, haceito.lido, rfl, rfl, hdepois, ?_,
    fun h0 => ?_⟩
  · rw [hlivre]
    congr 1
    simp only [efeito]
    omega
  · have hr₄ := ((h₁.next hstep₁).append h₃).next hstep₃
    obtain ⟨row', hrow', _, hx'⟩ := saldo_mem hdepois
    have hbig := ((consistente hr₄).bigint row' (by rw [hs₄]; exact hrow')).1
    rw [hx', h0] at hbig
    rw [hlivre, h0]
    simp only [efeito] at *
    rw [Int64.toInt_ofInt_of_le (by have := hbig.1; omega) (by have := hbig.2; omega)]
    omega

end

/-- A credit of 10 to client 1. -/
def credito : Requisicao :=
  .post (ascii "/clientes/1/transacoes") (some (pedidoTexto 10 (ascii "c") (ascii "pix")))

/-- One read, one query and its execution, with nothing in between. -/
def sozinho : List (Rotulo Bool) → Bool
  | [⟨true, 0, .accept (.post _ _)⟩, ⟨true, 0, .read (.cliente 1) _⟩, ⟨true, 0, .sent _⟩,
      ⟨true, 0, .answer resp⟩, ⟨true, 0, .exec _ (some d)⟩] =>
    resp.status == 200 && d.saldo 1 == some 10
  | _ => false

theorem reported_saldo_alone : ∃ (J : Jansson) (tr : List (Rotulo Bool)) (s : Estado Bool),
    ExecucaoSql .estrito J .parado tr s ∧
    ∃ r lido t query d', ⟨true, 0, .read (.cliente 1) r⟩ ∈ tr ∧
      (firstRecord r).map clienteDe = some lido ∧
      ⟨true, 0, .answer (.ok (buildJsonSaldo (updateSaldoCliente lido t)))⟩ ∈ tr ∧
      ⟨true, 0, .exec query (some d')⟩ ∈ tr ∧ d'.saldo 1 = some 10 ∧
      (updateSaldoCliente lido t).saldo.toInt = 10 := by
  obtain ⟨tr, s, lidas, h, hs⟩ := execucaoSql_of_play (R := .parado) .estrito
    (J := .pedido 10 (ascii "c") (ascii "pix") (by decide)) (lida_pedido (by decide))
    [.accept true credito, .go true, .go true, .go true, .exec true 0]
    (fun tr _ => sozinho tr) (by decide)
  unfold sozinho at hs
  split at hs
  · rename_i url body r query resp c d'
    simp only [Bool.and_eq_true, beq_iff_eq] at hs
    obtain ⟨_, lido, t, _, x, _, _, _, _, hlido, rfl, hresp, hx, _, heq⟩ :=
      reported_saldo (a := [_]) (b := [_, _]) (c := []) lidas h List.mem_cons_self (by simp) hs.1
    obtain rfl : x = 10 := by simpa [hs.2] using hx.symm
    exact ⟨_, _, s, h, r, lido, t, c, d', by simp, hlido, by simp [hresp], by simp, hx, heq rfl⟩
  · cases hs

/-- Two processes credit 10 each after both have read a saldo of 0: both report 10,
and the saldo after the second commit is 20. -/
theorem reported_saldo_stale : ∃ (tr : List (Rotulo Bool)) (s : Estado Bool),
    Execucao (.pedido 10 (ascii "c") (ascii "pix") (by decide)) .parado tr s ∧
    ∃ query d' json, ⟨false, 1, .exec query (some d')⟩ ∈ tr ∧
      ⟨false, 1, .answer (.ok json)⟩ ∈ tr ∧ d'.saldo 1 = some 20 ∧
      jsonIntegerValue (jsonObjectGet (some json) "saldo") = 10 := by
  obtain ⟨tr, s, h, hs⟩ := execucao_of_play
    (.pedido 10 (ascii "c") (ascii "pix") (by decide)) .parado
    [.accept true credito, .accept false credito, .go true, .go false, .go true, .go false,
      .go true, .go false, .exec true 0, .exec false 0]
    (fun tr _ => (execsOf tr false 1).any (fun e => e.2.any (·.saldo 1 == some 20)) &&
      (answersOf tr false 1).any fun resp =>
        jsonIntegerValue (jsonObjectGet resp.json? "saldo") == 10) (by decide)
  simp only [Bool.and_eq_true, List.any_eq_true, Option.any_eq_true, beq_iff_eq] at hs
  obtain ⟨⟨⟨query, _⟩, he, d', rfl, hd⟩, resp, hr, hj⟩ := hs
  cases resp with
  | ok json => exact ⟨tr, s, h, query, d', json, mem_execsOf.mp he, mem_answersOf.mp hr, hd, hj⟩
  | badRequest | notFound | unprocessableEntity => cases hj

end Crinha
