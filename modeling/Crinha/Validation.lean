import Crinha.Pipeline.Snapshot
import Crinha.ReportedBalance

/-!
# Validation and the schema

* `validation_complete`: which checked requests the constraints of `init.sql` accept.
-/

namespace Crinha
open Pipeline CString

/-! ## Bounds of the tables -/

/-- Clients and limits as in `init.sql`, and no saldo beyond what the ids of the
rows of `transacao` allow. -/
structure Contido (d : Db) : Prop where
  limites : d.cliente.map (fun c => (c.id, c.limite)) =
    Db.init.cliente.map fun c => (c.id, c.limite)
  seq : d.seq ≤ serialMax
  saldo : ∀ c ∈ d.cliente, -(d.seq * 2147483647 : Int) ≤ c.saldo ∧ c.saldo ≤ d.seq * 2147483647

section
variable {d d' : Db} {t : Transacao} {agora : Nat}

theorem contido_init : Contido Db.init := by
  refine ⟨rfl, by decide, by decide⟩

theorem admits_insertStmts : (∀ st ∈ insertStmts t, st.Admits d) ↔
    (∀ c ∈ d.cliente, c.id = t.idCliente →
      IsBigint ((operacaoDe t).apply c.saldo t.valor.toInt) ∧
      -c.limite ≤ (operacaoDe t).apply c.saldo t.valor.toInt) ∧
    IsInteger t.valor.toInt ∧ IsText 1 t.tipo ∧ IsText 10 t.descricao ∧
    ∃ c ∈ d.cliente, c.id = t.idCliente := by
  simp only [insertStmts, List.forall_mem_cons, List.not_mem_nil, false_imp_iff, implies_true,
    and_true, Stmt.Admits]

theorem contido_run (hd : Contido d) (hpos : 0 < t.valor.toInt)
    (h : Db.run agora (insertStmts t) d = some d') : Contido d' := by
  have hl := Db.run_limites h
  obtain ⟨hadm, hseq, rfl⟩ := run_insertStmts_some h
  obtain ⟨_, hint, _⟩ := admits_insertStmts.mp hadm
  refine ⟨hl.trans hd.limites, hseq, fun c hc => ?_⟩
  obtain ⟨c₀, hc₀, _, _, hs⟩ := mem_update.mp hc
  obtain ⟨hlo, hhi⟩ := hd.saldo c₀ hc₀
  have hv := hint.2
  have hnext : ((d.seq + 1 : Nat) : Int) * 2147483647 = d.seq * 2147483647 + 2147483647 := by
    push_cast
    omega
  show -(((d.seq + 1 : Nat) : Int) * 2147483647) ≤ c.saldo ∧
    c.saldo ≤ ((d.seq + 1 : Nat) : Int) * 2147483647
  rw [hs, hnext]
  split
  · unfold operacaoDe
    split <;> simp only [Operacao.apply] <;> omega
  · omega

theorem Contido.limite (hd : Contido d) {c : ClienteRow} (hc : c ∈ d.cliente) :
    0 ≤ c.limite ∧ c.limite ≤ 10000000 := by
  have hm : (c.id, c.limite) ∈ Db.init.cliente.map fun c => (c.id, c.limite) := by
    rw [← hd.limites]
    exact List.mem_map.mpr ⟨c, hc, rfl⟩
  have hall : ∀ e ∈ Db.init.cliente.map (fun c => (c.id, c.limite)), 0 ≤ e.2 ∧ e.2 ≤ 10000000 := by
    decide
  exact hall _ hm

/-- A client has one row. -/
theorem Contido.unique (hd : Contido d) {c c' : ClienteRow} (hc : c ∈ d.cliente)
    (hc' : c' ∈ d.cliente) (h : c.id = c'.id) : c = c' := by
  have hn : (d.cliente.map ClienteRow.id).Nodup := by
    have he : d.cliente.map ClienteRow.id =
        (d.cliente.map fun c => (c.id, c.limite)).map Prod.fst := by
      rw [List.map_map]
      rfl
    rw [he, hd.limites]
    decide
  exact List.inj_on_of_nodup_map hn hc hc' h

/-- The range of a saldo is far inside 64 bits. -/
theorem Contido.range (hd : Contido d) {c : ClienteRow} (hc : c ∈ d.cliente) :
    -4611686014132420609 ≤ c.saldo ∧ c.saldo ≤ 4611686014132420609 := by
  obtain ⟨hlo, hhi⟩ := hd.saldo c hc
  have hseq := hd.seq
  simp only [serialMax] at hseq
  omega

end

/-- The states of the database that committed transactions lead to. -/
inductive Alcancavel : Db → Prop where
  | init : Alcancavel Db.init
  | next {d d' : Db} {transacao : Transacao} {agora : Nat} (before : Alcancavel d)
      (positive : 0 < transacao.valor.toInt)
      (committed : Db.run agora (insertStmts transacao) d = some d') : Alcancavel d'

theorem Alcancavel.contido {d : Db} (h : Alcancavel d) : Contido d := by
  induction h with
  | init => exact contido_init
  | next _ positive committed ih => exact contido_run ih positive committed

/-- In every run the database is in such a state. -/
theorem alcancavel {P : Type} [DecidableEq P] {J : Jansson} {R : Relogio} {tr : List (Rotulo P)}
    {s : Estado P} (h : Execucao J R tr s) : Alcancavel s.store := by
  refine run_store_inv (handler_meets J R) .init ?_ h
  intro req past c agora d d' hpre hd hrun
  obtain ⟨_, _, _, _, t, _, ha, _, rfl⟩ := hpre.last
  exact .next hd ha.valor_pos hrun

theorem contido {P : Type} [DecidableEq P] {J : Jansson} {R : Relogio} {tr : List (Rotulo P)}
    {s : Estado P} (h : Execucao J R tr s) : Contido s.store := (alcancavel h).contido

/-! ## What the checks give -/

section
variable {J : Jansson} {url body : Bytes} {r : Option DBResultSet} {cliente : Cliente}
  {t : Transacao} {d : Db}

/-- The test on the limit, free of overflow as long as the amount fits the column. -/
theorem limite_chk (hd : Contido d) {c : ClienteRow} (hc : c ∈ d.cliente)
    (htipo : t.tipo.head? ≠ some 99) (hpos : 0 < t.valor.toInt) (hv : t.valor.toInt ≤ 2147483647)
    (h : isLimiteExcedido (clienteDe c.record) t = false) :
    -c.limite ≤ c.saldo - t.valor.toInt := by
  obtain ⟨hlo, hhi⟩ := hd.range hc
  obtain ⟨hl, hl'⟩ := hd.limite hc
  simp only [isLimiteExcedido, if_neg htipo, decide_eq_false_iff_not, Int64.lt_iff_toInt_lt,
    Int64.toInt_sub, Int64.toInt_neg,
    saldo_clienteDe (c := c) ⟨by omega, by omega⟩,
    limite_clienteDe (c := c) ⟨by omega, by omega⟩] at h
  rw [Int.bmod_eq_of_le (by omega) (by omega), Int.bmod_eq_of_le (by omega) (by omega)] at h
  omega

/-- The UPDATE of an accepted request meets its constraints if the amount fits. -/
theorem admits_update (hd : Contido d) (hcons : Consistente d) (toChar : Nat → Bytes)
    (ha : Aceito J url body (d.answer toChar (.cliente t.idCliente)) cliente t)
    (hv : t.valor.toInt ≤ 2147483647) {c : ClienteRow} (hc : c ∈ d.cliente)
    (hid : c.id = t.idCliente) :
    IsBigint ((operacaoDe t).apply c.saldo t.valor.toInt) ∧
      -c.limite ≤ (operacaoDe t).apply c.saldo t.valor.toInt := by
  obtain ⟨c', hc', hid', _, hcl⟩ := lido_answer toChar ha.lido
  obtain rfl : c = c' := hd.unique hc hc' (hid.trans hid'.symm)
  have hpos := ha.valor_pos
  obtain ⟨hlo, hhi⟩ := hd.range hc
  have hlim := hcons.limite c hc
  unfold operacaoDe
  split
  · exact ⟨⟨by simp only [Operacao.apply]; omega, by simp only [Operacao.apply]; omega⟩,
      by simp only [Operacao.apply]; omega⟩
  · rename_i htipo
    have hchk := limite_chk hd hc htipo hpos hv (by rw [← hcl]; exact ha.limite)
    exact ⟨⟨by simp only [Operacao.apply]; omega, by simp only [Operacao.apply]; omega⟩, hchk⟩

/-- The description as stored is valid text exactly if it was not cut inside a
character. -/
theorem descricao_text (hp : Pedido J url body t) {descricao : Bytes}
    (hs : jsonStringValue (jsonObjectGet (J.loads body) "descricao") = some descricao) :
    IsText 10 t.descricao ↔ ∀ b, descricao[20]? = some b → Utf8.isTail b = false := by
  obtain ⟨s, hs', hv, _, _, hlen, hd⟩ := hp.descricao
  obtain rfl : descricao = s := Option.some.inj (hs.symm.trans hs')
  obtain ⟨cs, rfl⟩ := (Utf8.valid_iff _).mp hv
  rw [hd, IsText, Utf8.valid_take_iff]
  exact and_iff_left ((Utf8.charLength_take_le _ _).trans hlen)

/-- **Validation against the schema.** An accepted request satisfies every constraint
exactly if its amount fits an `integer` and its description is not cut inside a
character. -/
theorem admits_iff (hd : Contido d) (hcons : Consistente d) (toChar : Nat → Bytes)
    (ha : Aceito J url body (d.answer toChar (.cliente t.idCliente)) cliente t) {descricao : Bytes}
    (hs : jsonStringValue (jsonObjectGet (J.loads body) "descricao") = some descricao) :
    (∀ st ∈ insertStmts t, st.Admits d) ↔
      t.valor.toInt ≤ 2147483647 ∧ ∀ b, descricao[20]? = some b → Utf8.isTail b = false := by
  have hpos := ha.valor_pos
  rw [admits_insertStmts, descricao_text ha.toPedido hs]
  constructor
  · rintro ⟨_, hint, _, hcut, _⟩
    exact ⟨hint.2, hcut⟩
  · rintro ⟨hv, hcut⟩
    obtain ⟨c, hc, hid, _⟩ := lido_answer toChar ha.lido
    refine ⟨fun c hc hid => admits_update hd hcons toChar ha hv hc hid,
      ⟨by omega, hv⟩, ?_, hcut, c, hc, hid⟩
    rcases ha.tipo with ht | ht <;> rw [ht] <;> decide

end

/-! ## A single process -/

section
variable {J : Jansson} {R : Relogio} {tr : List (Rotulo Unit)} {s : Estado Unit}

/-- The query in flight is that of an accepted request, which read the state that
the query meets. -/
theorem inFlight_aceito (h : Execucao J R tr s) {n : Nat} {query : List Stmt} {url : Bytes}
    {body : Option Bytes} (hc : (n, query) ∈ (s.client ()).inFlight)
    (hacc : ⟨(), n, .accept (.post url body)⟩ ∈ tr) :
    ∃ body' cliente t, body = some body' ∧ query = insertStmts t ∧
      Aceito J url body' (s.store.answer R.toChar (.cliente t.idCliente)) cliente t := by
  have htrack := track h
  obtain ⟨past, rest, hacts⟩ := List.append_of_mem (sent_mem_actsOf.mpr (htrack.pending hc))
  obtain ⟨req, hreq, hpre⟩ := htrack.sent hacts
  obtain ⟨url', body', r, cliente, t, rfl, ha, rfl, rfl⟩ := hpre.last
  obtain ⟨rfl, rfl⟩ := Requisicao.post.inj (htrack.accepted hreq hacc).2
  have hrest : rest.filterMap Act.sent? = [] := by
    -- a second query would have been sent after a query
    refine List.filterMap_eq_nil_iff.mpr fun a hm => ?_
    cases a with
    | asked => rfl
    | sent c =>
      obtain ⟨x, y, rfl⟩ := List.append_of_mem hm
      have hacts' : actsOf tr () n =
          (.asked (.cliente t.idCliente) r :: .sent (insertStmts t) :: x) ++ .sent c :: y := by
        simpa using hacts
      obtain ⟨_, _, hpre'⟩ := htrack.sent hacts'
      obtain ⟨_, _, _, _, _, _, _, hx, _⟩ := hpre'.last
      simp at hx
  have once : (actsOf tr () n).filterMap Act.sent? = [insertStmts t] := by
    rw [hacts]
    show insertStmts t :: rest.filterMap Act.sent? = _
    rw [hrest]
  have hr := write_sees_reads (handler_meets J R) h hc once
    (by rw [hacts]; exact List.mem_cons_self)
  subst hr
  exact ⟨body', cliente, t, rfl, rfl, ha⟩

/-- **What the database can still reject** of a single process: whenever a query is
in flight, it satisfies every constraint of `init.sql` exactly if the amount of its
request fits an `integer` and the description is not cut inside a character. It then
commits, as long as `transacao` has an id left. -/
theorem validation_complete (h : Execucao J R tr s) {n : Nat} {query : List Stmt} {url body : Bytes}
    (hc : (n, query) ∈ (s.client ()).inFlight)
    (hacc : ⟨(), n, .accept (.post url (some body))⟩ ∈ tr) :
    ∃ valor descricao, jsonObjectGet (J.loads body) "valor" = some (.integer valor) ∧
      jsonStringValue (jsonObjectGet (J.loads body) "descricao") = some descricao ∧
      ((∀ st ∈ query, st.Admits s.store) ↔
        valor.toInt ≤ 2147483647 ∧ ∀ b, descricao[20]? = some b → Utf8.isTail b = false) ∧
      ((∀ st ∈ query, st.Admits s.store) → s.store.seq < serialMax →
        ∀ agora, (Db.run agora query s.store).isSome) := by
  obtain ⟨body', cliente, t, hb, rfl, ha⟩ := inFlight_aceito h hc hacc
  obtain rfl := Option.some.inj hb
  obtain ⟨descricao, hs, _⟩ := ha.descricao
  refine ⟨t.valor, descricao, ha.valor.1, hs, admits_iff (contido h) (consistente h) R.toChar ha hs,
    fun hadm hseq agora => ?_⟩
  rw [run_insertStmts, if_pos ⟨hadm, hseq⟩]
  rfl

end

/-- A POST to client 1. -/
def postar (valor : Int64) (tipo descricao : Bytes) : Requisicao :=
  .post (ascii "/clientes/1/transacoes") (some (pedidoTexto valor tipo descricao))

/-- Request 0 is a POST and its query is in flight. -/
def enviado : List (Rotulo Unit) → List (Nat × List Stmt) → Bool
  | [⟨(), 0, .accept (.post _ (some _))⟩, _, _], [(0, _)] => true
  | _, _ => false

theorem validation_complete_pix : ∃ (tr : List (Rotulo Unit)) (s : Estado Unit),
    Execucao (.pedido 10 (ascii "c") (ascii "pix") (by decide)) .parado tr s ∧
    ∃ (n : Nat) (query : List Stmt) (valor : Int64) (descricao : Bytes),
      (n, query) ∈ (s.client ()).inFlight ∧
      ((∀ st ∈ query, st.Admits s.store) ↔
        valor.toInt ≤ 2147483647 ∧ ∀ b, descricao[20]? = some b → Utf8.isTail b = false) := by
  obtain ⟨tr, s, h, hs⟩ := execucao_of_play
    (.pedido 10 (ascii "c") (ascii "pix") (by decide)) .parado
    [.accept () (postar 10 (ascii "c") (ascii "pix")), .go (), .go ()]
    (fun tr s => enviado tr (s.client ()).inFlight) (by decide)
  unfold enviado at hs
  split at hs
  · rename_i hfl
    obtain ⟨valor, descricao, _, _, hiff, _⟩ :=
      validation_complete h (by rw [hfl]; exact List.mem_cons_self) List.mem_cons_self
    exact ⟨_, s, h, 0, _, valor, descricao, by rw [hfl]; exact List.mem_cons_self, hiff⟩
  · cases hs

/-- Seven euro signs: twenty-one bytes, so the twentieth ends inside the last. -/
def euros : Bytes := (List.replicate 7 [0xE2, 0x82, 0xAC]).flatten

/-- A request that is answered 200 and whose query is then rejected. -/
theorem gap_of_play (J : Jansson) (req : Requisicao)
    (h : ((State.start Db.init).play (banco .parado) (handler J .parado)
      [.accept () req, .go (), .go (), .go (), .exec () 0]).map (fun r =>
        (answersOf r.1 () 0).any (·.status == 200) && (execsOf r.1 () 0).any (·.2.isNone)) =
          some true) :
    ∃ (tr : List (Rotulo Unit)) (s : Estado Unit), Execucao J .parado tr s ∧
      (∃ resp, ⟨(), 0, .answer resp⟩ ∈ tr ∧ resp.status = 200) ∧
      ∃ query, ⟨(), 0, .exec query none⟩ ∈ tr := by
  obtain ⟨tr, s, hrun, hs⟩ := execucao_of_play J .parado _ (fun tr _ =>
    (answersOf tr () 0).any (·.status == 200) && (execsOf tr () 0).any (·.2.isNone)) h
  simp only [Bool.and_eq_true, List.any_eq_true, beq_iff_eq, Option.isNone_iff_eq_none] at hs
  obtain ⟨⟨resp, hr, hok⟩, ⟨query, _⟩, he, rfl⟩ := hs
  exact ⟨tr, s, hrun, ⟨resp, mem_answersOf.mp hr, hok⟩, query, mem_execsOf.mp he⟩

/-- A credit of 2147483648, and one with the description `€€€€€€€`, are answered 200
and rejected by the database. -/
theorem validation_gaps :
    (∃ (tr : List (Rotulo Unit)) (s : Estado Unit),
      Execucao (.pedido 2147483648 (ascii "c") (ascii "pix") (by decide)) .parado tr s ∧
      (∃ resp, ⟨(), 0, .answer resp⟩ ∈ tr ∧ resp.status = 200) ∧
      ∃ query, ⟨(), 0, .exec query none⟩ ∈ tr) ∧
    ∃ (tr : List (Rotulo Unit)) (s : Estado Unit),
      Execucao (.pedido 10 (ascii "c") euros (by decide)) .parado tr s ∧
      (∃ resp, ⟨(), 0, .answer resp⟩ ∈ tr ∧ resp.status = 200) ∧
      ∃ query, ⟨(), 0, .exec query none⟩ ∈ tr :=
  ⟨gap_of_play _ (postar 2147483648 (ascii "c") (ascii "pix")) (by decide),
    gap_of_play _ (postar 10 (ascii "c") euros) (by decide)⟩

end Crinha
