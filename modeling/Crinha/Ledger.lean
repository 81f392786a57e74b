import Crinha.Api

/-!
# The ledger

* `ledger_invariant`: every saldo is the client's credits less its debits, above the limit.
-/

namespace Crinha
open Pipeline CString

/-- The sum of the transactions of a client of one kind, as `init.sql` samples it. -/
def Db.soma (d : Db) (id : Nat) (tipo : Bytes) : Int :=
  ((d.transacao.filter fun r => r.idCliente = id ∧ r.tipo = tipo).map (·.valor)).sum

structure Consistente (d : Db) : Prop where
  saldo : ∀ c ∈ d.cliente, c.saldo = d.soma c.id [99] - d.soma c.id [100]
  limite : ∀ c ∈ d.cliente, -c.limite ≤ c.saldo
  bigint : ∀ c ∈ d.cliente, IsBigint c.saldo ∧ IsBigint c.limite

section
variable {d d' : Db} {t : Transacao} {agora : Nat}

theorem admits_insert_update (op : Operacao) (valor : Int) (id idCliente : Nat) (v : Int)
    (tipo descricao : Bytes) :
    (Stmt.insertTransacao idCliente v tipo descricao).Admits (d.update op valor id) ↔
      (Stmt.insertTransacao idCliente v tipo descricao).Admits d := by
  have hc : (∃ c ∈ (d.update op valor id).cliente, c.id = idCliente) ↔
      ∃ c ∈ d.cliente, c.id = idCliente := by
    simp only [Db.update, List.mem_map, exists_exists_and_eq_and]
    refine exists_congr fun c => and_congr_right fun _ => ?_
    split <;> rfl
  simp only [Stmt.Admits, hc]

/-- The query of a transaction commits exactly when both statements meet their
constraints and the sequence is not exhausted. -/
theorem run_insertStmts : Db.run agora (insertStmts t) d =
    if (∀ st ∈ insertStmts t, st.Admits d) ∧ d.seq < serialMax then
      some ((d.update (operacaoDe t) t.valor.toInt t.idCliente).insert agora t.idCliente
        t.valor.toInt t.tipo t.descricao)
    else none := by
  simp only [insertStmts, Db.run_cons, Db.run_nil, List.forall_mem_cons,
    List.not_mem_nil, false_imp_iff, implies_true, and_true]
  by_cases hu : (Stmt.updateSaldo (operacaoDe t) t.valor.toInt t.idCliente).Admits d
  · simp only [Db.exec, hu, if_true, Option.bind_some, admits_insert_update, true_and]
    by_cases hi : (Stmt.insertTransacao t.idCliente t.valor.toInt t.tipo t.descricao).Admits d
    · simp only [hi, if_true, true_and]
      show Option.bind (if d.seq < serialMax then _ else none) some = _
      rw [Option.bind_fun_some]
    · simp [hi]
  · simp [Db.exec, hu]

theorem run_insertStmts_some (h : Db.run agora (insertStmts t) d = some d') :
    (∀ st ∈ insertStmts t, st.Admits d) ∧ d.seq < serialMax ∧
      d' = (d.update (operacaoDe t) t.valor.toInt t.idCliente).insert agora t.idCliente
        t.valor.toInt t.tipo t.descricao := by
  rw [run_insertStmts] at h
  split at h
  · rename_i hc
    exact ⟨hc.1, hc.2, (Option.some.inj h).symm⟩
  · cases h

theorem soma_insert (id : Nat) (tipo : Bytes) (idCliente : Nat) (valor : Int)
    (tipo' descricao : Bytes) :
    (d.insert agora idCliente valor tipo' descricao).soma id tipo =
      d.soma id tipo + if idCliente = id ∧ tipo' = tipo then valor else 0 := by
  simp only [Db.soma, Db.insert, List.filter_append, List.map_append, List.sum_append]
  by_cases h : idCliente = id ∧ tipo' = tipo <;> simp [h]

/-- The sign of the UPDATE agrees with the stored `tipo`. -/
theorem operacaoDe_apply (ht : t.tipo = [99] ∨ t.tipo = [100]) (saldo valor : Int) :
    (operacaoDe t).apply saldo valor =
      saldo + (if t.tipo = [99] then valor else 0) - (if t.tipo = [100] then valor else 0) := by
  rcases ht with ht | ht <;> simp [operacaoDe, ht, Operacao.apply]

/-- A row of `cliente` after an UPDATE is a row before it, or the row of the
client with its saldo changed. -/
theorem mem_update {op : Operacao} {valor : Int} {id : Nat} {c : ClienteRow} :
    c ∈ (d.update op valor id).cliente ↔
      ∃ c₀ ∈ d.cliente, c.id = c₀.id ∧ c.limite = c₀.limite ∧
        c.saldo = if c₀.id = id then op.apply c₀.saldo valor else c₀.saldo := by
  simp only [Db.update, List.mem_map]
  refine exists_congr fun c₀ => and_congr_right fun _ => ?_
  obtain ⟨i, l, s⟩ := c
  obtain ⟨i₀, l₀, s₀⟩ := c₀
  split <;> simp [ClienteRow.mk.injEq, eq_comm]

theorem consistente_run (hd : Consistente d) (ht : t.tipo = [99] ∨ t.tipo = [100])
    (h : Db.run agora (insertStmts t) d = some d') : Consistente d' := by
  obtain ⟨hadm, _, rfl⟩ := run_insertStmts_some h
  constructor
  · intro c hc
    obtain ⟨c₀, hc₀, hid, _, hs⟩ := mem_update.mp hc
    have h₀ := hd.saldo c₀ hc₀
    rw [hid, hs, soma_insert, soma_insert]
    show (if c₀.id = t.idCliente then _ else _) =
      d.soma c₀.id [99] + _ - (d.soma c₀.id [100] + _)
    by_cases hi : c₀.id = t.idCliente
    · rw [if_pos hi, operacaoDe_apply ht]
      simp only [hi.symm, true_and]
      omega
    · simp only [if_neg hi, Ne.symm hi, false_and, if_false]
      omega
  · intro c hc
    obtain ⟨c₀, hc₀, _, hl, hs⟩ := mem_update.mp hc
    rw [hl, hs]
    split
    · rename_i hi
      exact (hadm (.updateSaldo _ _ _) List.mem_cons_self c₀ hc₀ hi).2
    · exact hd.limite c₀ hc₀
  · intro c hc
    obtain ⟨c₀, hc₀, _, hl, hs⟩ := mem_update.mp hc
    rw [hl, hs]
    refine ⟨?_, (hd.bigint c₀ hc₀).2⟩
    split
    · rename_i hi
      exact (hadm (.updateSaldo _ _ _) List.mem_cons_self c₀ hc₀ hi).1
    · exact (hd.bigint c₀ hc₀).1

end

theorem consistente_init : Consistente Db.init := by
  constructor <;> decide

variable {P : Type} [DecidableEq P] {J : Jansson} {R : Relogio} {tr : List (Rotulo P)}
  {s : Estado P}

/-- What every query a request sends looks like. -/
theorem Envia.last {req : Requisicao} {past : List Ato} {c : List Stmt}
    (h : Envia J req (past ++ [.sent c])) : ∃ url body r cliente t, req = .post url (some body) ∧
      Aceito J url body r cliente t ∧ past = [.asked (.cliente t.idCliente) r] ∧
      c = insertStmts t := by
  cases req with
  | get => exact h.elim
  | post url body =>
    obtain ⟨body, r, cliente, t, rfl, ha, he⟩ := h
    have he' : past ++ [.sent c] =
        [.asked (.cliente t.idCliente) r] ++ [.sent (insertStmts t)] := he
    obtain ⟨hp, hc⟩ := List.append_inj' he' rfl
    exact ⟨url, body, r, cliente, t, rfl, ha, hp, by simpa using hc⟩

theorem consistente (h : Execucao J R tr s) : Consistente s.store := by
  refine run_store_inv (handler_meets J R) consistente_init ?_ h
  intro req past c agora d d' hpre hd hrun
  obtain ⟨_, _, _, _, t, _, ha, _, rfl⟩ := hpre.last
  exact consistente_run hd ha.tipo hrun

/-- **The ledger invariant.** -/
theorem ledger_invariant (h : Execucao J R tr s) :
    ∀ c ∈ s.store.cliente, c.saldo = s.store.soma c.id (ascii "c") - s.store.soma c.id (ascii "d") ∧
      -c.limite ≤ c.saldo := by
  intro c hc
  exact ⟨(consistente h).saldo c hc, (consistente h).limite c hc⟩

theorem ledger_invariant_deposito :
    ∃ (tr : List (Rotulo Bool)) (s : Estado Bool),
      Execucao (.pedido 10 (ascii "c") (ascii "pix") (by decide)) .parado tr s ∧
      s.store.saldo 1 = some 10 ∧
      ∀ c ∈ s.store.cliente,
        c.saldo = s.store.soma c.id (ascii "c") - s.store.soma c.id (ascii "d") ∧
        -c.limite ≤ c.saldo := by
  obtain ⟨tr, s, h, hs⟩ := execucao_of_play
    (.pedido 10 (ascii "c") (ascii "pix") (by decide)) .parado
    [.accept true (.post (ascii "/clientes/1/transacoes")
        (some (pedidoTexto 10 (ascii "c") (ascii "pix")))),
      .go true, .go true, .exec true 0]
    (fun _ s => s.store.saldo 1 == some 10) (by decide)
  exact ⟨tr, s, h, by simpa using hs, ledger_invariant h⟩

end Crinha
