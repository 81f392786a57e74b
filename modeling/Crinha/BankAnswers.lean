import Crinha.Amounts
import Crinha.Contas
import Crinha.HandlerPaths
import Crinha.Listing

/-!
# What an answer says of the accounts

* `Relata`: the answer that tells an outcome, its amounts cut to 32 bits.
-/

namespace Crinha
open Pipeline CString Accounts

/-- What a request orders, or the status of the answer if it is not well formed. -/
def Requisicao.ordem (J : Jansson) : Requisicao → Except Nat (Order Nat Int Bytes)
  | .post _ none => .error 400
  | .post url (some body) =>
    let campo := jsonObjectGet (J.loads body)
    if isIdClienteValido (extractUrlParam url) = true ∧
        camposValidos (campo "descricao") (campo "tipo") (campo "valor") = some true then
      .ok (.post (atoi (extractUrlParam url)) (novaTransacao (atoi (extractUrlParam url))
        (campo "descricao") (campo "tipo") (campo "valor")).entry)
    else .error 422
  | .get url _ =>
    if isIdClienteValido (extractUrlParam url) then .ok (.statement (atoi (extractUrlParam url)))
    else .error 400

/-- The bank on a request. An extrato shows ten entries. -/
def Contas.cumpre (J : Jansson) (b : Contas) (req : Requisicao) :
    Contas × Except Nat (Outcome Int Bytes) :=
  match req.ordem J with
  | .error status => (b, .error status)
  | .ok ordem => ((b.serve 10 ordem).1, .ok (b.serve 10 ordem).2)

/-! ## Answers -/

/-- The `int` with the low bits of `x`. -/
def inteiro (x : Int) : Json := .integer (Int64.ofInt (x.bmod (2 ^ 32)))

def RelataEntry (e : Entry Int Bytes) (json : Json) : Prop :=
  ∃ hora, json = .object [("valor", .integer (Int64.ofInt |e.amount|)),
    ("tipo", .string (if 0 < e.amount then ascii "c" else ascii "d")),
    ("descricao", .string e.note), ("realizada_em", .string hora)]

/-- The answer to an outcome. Each amount in it is the `int` that `json_pack` makes of it. -/
inductive Relata : Except Nat (Outcome Int Bytes) → Resposta → Prop where
  | badRequest : Relata (.error 400) .badRequest
  | unprocessable : Relata (.error 422) .unprocessableEntity
  | unknown : Relata (.ok .unknown) .notFound
  | refused : Relata (.ok .refused) .unprocessableEntity
  | posted (floor balance : Int) : Relata (.ok (.posted floor balance))
      (.ok (.object [("limite", inteiro (-floor)), ("saldo", inteiro balance)]))
  | statement (floor balance : Int) {latest : List (Entry Int Bytes)} (hora : Bytes)
      {items : List Json} (h : List.Forall₂ RelataEntry latest items) :
      Relata (.ok (.statement floor balance latest))
        (.ok (.object [("saldo", .object [("total", inteiro balance), ("data_extrato", .string hora),
          ("limite", inteiro (-floor))]), ("ultimas_transacoes", .array items)]))

theorem packInt_eq (v : Int64) : packInt v = inteiro v.toInt := by
  have hlo := @Int.le_bmod v.toInt (2 ^ 32) (by decide)
  have hhi := @Int.bmod_lt v.toInt (2 ^ 32) (by decide)
  rw [packInt, inteiro, Json.integer.injEq, ← Int64.toInt_inj, Int32.toInt_toInt64,
    Int64.toInt_toInt32, Int64.toInt_ofInt_of_le (by omega) (by omega)]

/-! ## Amounts -/

section
variable {J : Jansson} {R : Relogio} {url body : Bytes} {t : Transacao} {d d' : Db} {agora : Nat}
  {b : Contas} {a : Conta} {c : ClienteRow}

/-- The amounts of a row are those of its account. -/
theorem Espelha.amounts (h : Espelha d a c) (hcons : Consistente d) (hc : c ∈ d.cliente) :
    (clienteDe c.record).limite.toInt = -a.floor ∧
      (clienteDe c.record).saldo.toInt = a.balance := by
  obtain ⟨hsaldo, hlimite⟩ := hcons.bigint c hc
  rw [limite_clienteDe hlimite, saldo_clienteDe hsaldo, h.floor, h.balance]
  exact ⟨(Int.neg_neg _).symm, rfl⟩

/-- The test on the limit is that of the account, and the new saldo is exact. -/
theorem exato_conta (hesp : Espelha d a c) (hcont : Contido d) (hcons : Consistente d)
    (hc : c ∈ d.cliente) (hp : Pedido J url body t) (hv : t.valor.toInt ≤ 2147483647) :
    Exato (clienteDe c.record) t ∧
      (isLimiteExcedido (clienteDe c.record) t = false ↔ a.Allows t.entry) := by
  obtain ⟨hlimite, hsaldo⟩ := hesp.amounts hcons hc
  obtain ⟨hlo, hhi⟩ := hcont.range hc
  obtain ⟨hl, hl'⟩ := hcont.limite hc
  have hfloor := hesp.floor
  have hbalance := hesp.balance
  have hpos := hp.valor_pos
  have hsolvent := hcons.limite c hc
  have hexato : Exato (clienteDe c.record) t := by
    refine (exato_iff hp.tipo (by omega)).mpr ?_
    rw [hsaldo, hbalance]
    unfold operacaoDe
    split <;> exact ⟨by simp only [Operacao.apply]; omega, by simp only [Operacao.apply]; omega⟩
  refine ⟨hexato, ?_⟩
  have hallows : a.Allows t.entry ↔ a.floor ≤ (operacaoDe t).apply a.balance t.valor.toInt := by
    rw [← entry_amount hp.tipo]
    rfl
  rw [← Bool.not_eq_true, hexato.limite, hallows, hsaldo, hlimite]
  rcases hp.tipo with ht | ht
  · have hop : operacaoDe t = .mais := by simp [operacaoDe, ht]
    rw [hop, ht]
    simp only [Operacao.apply]
    exact iff_of_true (fun hd => absurd hd.1 (by decide)) (by omega)
  · have hop : operacaoDe t = .menos := by simp [operacaoDe, ht]
    rw [hop, ht]
    simp only [Operacao.apply]
    have htipo : ([100] : Bytes) = ascii "d" := rfl
    rw [and_iff_right htipo]
    omega

/-- A POST that the account allows is answered with the saldo after it. -/
theorem relata_aceita (hesp : Espelha d a c) (hcont : Contido d) (hcons : Consistente d)
    (hc : c ∈ d.cliente) (hp : Pedido J url body t) (hv : t.valor.toInt ≤ 2147483647)
    (hlimite : isLimiteExcedido (clienteDe c.record) t = false) :
    a.Allows t.entry ∧ Relata (.ok (.posted a.floor (t.entry.amount + a.balance)))
      (.ok (buildJsonSaldo (updateSaldoCliente (clienteDe c.record) t))) := by
  obtain ⟨hexato, hiff⟩ := exato_conta hesp hcont hcons hc hp hv
  obtain ⟨hl, hs⟩ := hesp.amounts hcons hc
  have hkeep : (updateSaldoCliente (clienteDe c.record) t).limite = (clienteDe c.record).limite :=
    Entregue.limite (.atualizado t)
  rw [buildJsonSaldo, packInt_eq, packInt_eq, hkeep, hl, hexato.saldo hlimite, hs,
    ← entry_amount hp.tipo]
  exact ⟨hiff.mp hlimite, .posted _ _⟩

/-! ## An extrato -/

/-- The saldo part of an extrato. -/
theorem buildJsonSaldoData_eq (R : Relogio) (agora : Nat) (cliente : Cliente) :
    buildJsonSaldoData (R.isoStr agora) cliente =
      some (.object [("total", inteiro cliente.saldo.toInt),
        ("data_extrato", .string (R.isoStr agora)),
        ("limite", inteiro cliente.limite.toInt)]) := by
  have hv : Utf8.valid (R.isoStr agora) = true :=
    Utf8.valid_ascii fun b hb => (R.isoStr_ascii agora b hb).2
  simp [buildJsonSaldoData, packStr, hv, packInt_eq]

/-- Only amounts above zero are stored. -/
def Db.Positivas (d : Db) : Prop := ∀ r ∈ d.transacao, 0 < r.valor

theorem positivas_run (hd : d.Positivas) (hpos : 0 < t.valor.toInt)
    (h : Db.run agora (insertStmts t) d = some d') : d'.Positivas := by
  obtain ⟨_, _, rfl⟩ := run_insertStmts_some h
  intro r hr
  rcases List.mem_append.mp hr with hr | hr
  · exact hd r hr
  · obtain rfl := List.mem_singleton.mp hr
    exact hpos

/-- A row and the entry it stands for are shown the same. -/
theorem relata_row {r : TransacaoRow} {toChar : Nat → Bytes} (hg : r.Gravada) (hpos : 0 < r.valor)
    (htime : ∀ b ∈ toChar r.realizadaEm, 0 < b.toNat ∧ b.toNat < 0x80) :
    ∃ json, buildJsonTransacao (transacaoDe (r.record toChar)) = some json ∧
      RelataEntry r.entry json := by
  obtain ⟨json, hjson⟩ := Option.isSome_iff_exists.mp (buildJsonTransacao_isSome hg htime)
  have hvalor : (transacaoDe (r.record toChar)).valor.toInt = r.valor := valor_transacaoDe hg.valor
  have hpack : packInt (transacaoDe (r.record toChar)).valor =
      .integer (transacaoDe (r.record toChar)).valor :=
    packInt_exact.mpr (by rw [hvalor]; exact hg.valor)
  refine ⟨json, hjson, (transacaoDe (r.record toChar)).realizadaEm, ?_⟩
  rw [buildJsonTransacao_eq_some hjson, hpack, tipo_transacaoDe hg.tipo, descricao_transacaoDe hg,
    ← Int64.ofInt_toInt (transacaoDe (r.record toChar)).valor, hvalor]
  rcases hg.tipo with ht | ht
  · have hamount : r.entry.amount = r.valor := if_pos ht
    rw [hamount, abs_of_pos hpos, if_pos hpos, ht]
    rfl
  · have hamount : r.entry.amount = -r.valor := if_neg (by rw [ht]; decide)
    rw [hamount, abs_neg, abs_of_pos hpos, if_neg (by omega), ht]
    rfl

theorem forall₂_filterMap {α β γ : Type} {rel : γ → β → Prop} {f : α → Option β} {g : α → γ}
    {l : List α} (h : ∀ x ∈ l, ∃ y, f x = some y ∧ rel (g x) y) :
    List.Forall₂ rel (l.map g) (l.filterMap f) := by
  induction l with
  | nil => exact .nil
  | cons x l ih =>
    obtain ⟨y, hy, hrel⟩ := h x List.mem_cons_self
    rw [List.filterMap_cons, hy]
    exact .cons hrel (ih fun z hz => h z (List.mem_cons_of_mem _ hz))

/-- The rows that an extrato lists are shown as their entries. -/
theorem relata_rows {d : Db} (hgrav : d.Gravadas) (hpos : d.Positivas) (id : Nat) :
    List.Forall₂ RelataEntry ((d.ultimas id).map TransacaoRow.entry)
      ((listadas (d.answer R.toChar (.ultimas id))).filterMap buildJsonTransacao) := by
  have hlist : listadas (d.answer R.toChar (.ultimas id)) =
      (d.ultimas id).map fun r => transacaoDe (r.record R.toChar) := List.map_map
  rw [hlist, List.filterMap_map]
  refine forall₂_filterMap fun r hr => ?_
  have hm := (mem_ultimas hr).1
  exact relata_row (hgrav r hm) (hpos r hm) (R.toChar_ascii _)

end

/-! ## What the bank does on a path -/

/-- What committed transactions make of the tables. -/
structure Valida (d : Db) : Prop where
  contido : Contido d
  consistente : Consistente d
  gravadas : d.Gravadas
  positivas : d.Positivas

section
variable {J : Jansson} {R : Relogio} {url body : Bytes} {t : Transacao} {d d' : Db} {agora id : Nat}
  {b : Contas} {cliente : Cliente}

theorem valida_init : Valida Db.init :=
  ⟨contido_init, consistente_init, fun _ hr => absurd hr List.not_mem_nil,
    fun _ hr => absurd hr List.not_mem_nil⟩

theorem valida_run (hd : Valida d) (hp : Pedido J url body t)
    (h : Db.run agora (insertStmts t) d = some d') : Valida d' where
  contido := contido_run hd.contido hp.valor_pos h
  consistente := consistente_run hd.consistente hp.tipo h
  gravadas := gravadas_run hd.gravadas hp h
  positivas := positivas_run hd.positivas hp.valor_pos h

theorem valida {P : Type} [DecidableEq P] {tr : List (Rotulo P)} {s : Estado P}
    (h : Execucao J R tr s) : Valida s.store := by
  refine run_store_inv (handler_meets J R) valida_init ?_ h
  intro req past c agora d d' hpre hd hrun
  obtain ⟨_, _, _, _, t, _, ha, _, rfl⟩ := hpre.last
  exact valida_run hd ha.toPedido hrun

theorem Contas.cumpre_ordem {req : Requisicao} {ordem : Order Nat Int Bytes}
    (h : req.ordem J = .ok ordem) :
    b.cumpre J req = ((b.serve 10 ordem).1, .ok (b.serve 10 ordem).2) := by
  rw [Contas.cumpre, h]

theorem Contas.cumpre_error {req : Requisicao} {status : Nat} (h : req.ordem J = .error status) :
    b.cumpre J req = (b, .error status) := by
  rw [Contas.cumpre, h]

/-- A client that is not found has no account. -/
theorem Representa.nenhuma_lida (h : Representa d b)
    (lido : firstRecord (d.answer R.toChar (.cliente id)) = none) : b id = none := by
  rw [firstRecord_answer, Option.map_eq_none_iff] at lido
  exact h.nenhuma id lido

/-- A client that is found has the account of its row. -/
theorem Representa.conta_lida (h : Representa d b)
    (lido : (firstRecord (d.answer R.toChar (.cliente id))).map clienteDe = some cliente) :
    ∃ c ∈ d.cliente, c.id = id ∧ cliente = clienteDe c.record ∧
      ∃ a, b id = some a ∧ Espelha d a c := by
  rw [firstRecord_answer, Option.map_map, Option.map_eq_some_iff] at lido
  obtain ⟨c, hc, rfl⟩ := lido
  exact ⟨c, List.mem_of_find?_eq_some hc, by simpa using List.find?_some hc, rfl, h.conta id c hc⟩

theorem Pedido.ordem (h : Pedido J url body t) :
    (Requisicao.post url (some body)).ordem J = .ok (.post t.idCliente t.entry) := by
  obtain ⟨hparam, hcampos, rfl⟩ := h
  exact if_pos ⟨hparam, hcampos⟩

theorem cumpre_recusado (refused : ∀ t, ¬Pedido J url body t) :
    b.cumpre J (.post url (some body)) = (b, .error 422) := by
  apply Contas.cumpre_error
  exact if_neg fun h => refused _ ⟨h.1, h.2, rfl⟩

theorem cumpre_semConta (hrep : Representa d b) (hp : Pedido J url body t)
    (lido : firstRecord (d.answer R.toChar (.cliente t.idCliente)) = none) :
    b.cumpre J (.post url (some body)) = (b, .ok .unknown) := by
  rw [Contas.cumpre_ordem hp.ordem, Bank.serve_post_unknown (hrep.nenhuma_lida lido)]

/-- A POST that the account does not allow is refused. -/
theorem cumpre_excedido (hd : Valida d) (hrep : Representa d b) (hp : Pedido J url body t)
    (hv : t.valor.toInt ≤ 2147483647)
    (lido : (firstRecord (d.answer R.toChar (.cliente t.idCliente))).map clienteDe = some cliente)
    (limite : isLimiteExcedido cliente t = true) :
    b.cumpre J (.post url (some body)) = (b, .ok .refused) := by
  obtain ⟨c, hc, _, rfl, a, ha, hesp⟩ := hrep.conta_lida lido
  obtain ⟨_, hiff⟩ := exato_conta hesp hd.contido hd.consistente hc hp hv
  have hrefused : ¬a.Allows t.entry := by
    rw [← hiff, limite]
    exact Bool.noConfusion
  rw [Contas.cumpre_ordem hp.ordem, Bank.serve_refused ha hrefused]

/-- A POST that it allows is told the saldo after it. -/
theorem cumpre_aceito (hd : Valida d) (hrep : Representa d b)
    (ha : Aceito J url body (d.answer R.toChar (.cliente t.idCliente)) cliente t)
    (hv : t.valor.toInt ≤ 2147483647) :
    ∃ b', b.post t.idCliente t.entry = some b' ∧ (b.cumpre J (.post url (some body))).1 = b' ∧
      Relata (b.cumpre J (.post url (some body))).2
        (.ok (buildJsonSaldo (updateSaldoCliente cliente t))) := by
  obtain ⟨c, hc, _, rfl, a, hconta, hesp⟩ := hrep.conta_lida ha.lido
  obtain ⟨hallow, hrel⟩ :=
    relata_aceita hesp hd.contido hd.consistente hc ha.toPedido hv ha.limite
  have hpost := Bank.post_update hconta hallow
  rw [Contas.cumpre_ordem ha.ordem, Bank.serve_posted hconta hpost]
  exact ⟨_, hpost, rfl, hrel⟩

theorem cumpre_idInvalido (param : isIdClienteValido (extractUrlParam url) = false) :
    b.cumpre J (.get url agora) = (b, .error 400) := by
  apply Contas.cumpre_error
  exact if_neg (by rw [param]; exact Bool.false_ne_true)

theorem ordem_extrato (J : Jansson) (agora : Nat)
    (param : isIdClienteValido (extractUrlParam url) = true) :
    (Requisicao.get url agora).ordem J = .ok (.statement (atoi (extractUrlParam url))) :=
  if_pos param

theorem cumpre_semExtrato (hrep : Representa d b)
    (param : isIdClienteValido (extractUrlParam url) = true)
    (lido : firstRecord (d.answer R.toChar (.cliente (atoi (extractUrlParam url)))) = none) :
    b.cumpre J (.get url agora) = (b, .ok .unknown) := by
  rw [Contas.cumpre_ordem (ordem_extrato J agora param),
    Bank.serve_statement_unknown (hrep.nenhuma_lida lido)]

/-- The amounts of an extrato are those of the account. -/
theorem cumpre_extrato (agora : Nat) (hd : Valida d) (hrep : Representa d b)
    (param : isIdClienteValido (extractUrlParam url) = true)
    (lido : (firstRecord (d.answer R.toChar (.cliente (atoi (extractUrlParam url))))).map clienteDe =
      some cliente) :
    ∃ c ∈ d.cliente, c.id = atoi (extractUrlParam url) ∧ ∃ a, Espelha d a c ∧
      b.cumpre J (.get url agora) = (b, .ok (.statement a.floor a.balance (a.entries.take 10))) ∧
      cliente.saldo.toInt = a.balance ∧ cliente.limite.toInt = -a.floor := by
  obtain ⟨c, hc, hid, rfl, a, ha, hesp⟩ := hrep.conta_lida lido
  obtain ⟨hlimite, hsaldo⟩ := hesp.amounts hd.consistente hc
  refine ⟨c, hc, hid, a, hesp, ?_, hsaldo, hlimite⟩
  rw [Contas.cumpre_ordem (ordem_extrato J agora param), Bank.serve_statement ha]

end

end Crinha
