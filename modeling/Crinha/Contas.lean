import Crinha.Accounts.Bank
import Crinha.ConnectionFaults
import Crinha.Validation

/-!
# The tables as accounts

* `bank_simulates`: in every run, whatever breaks, the tables are the accounts of a bank.
-/

namespace Crinha
open Pipeline CString Accounts

abbrev Contas := Bank Nat Int Bytes

abbrev Conta := Account Int Bytes

def lanca (tipo descricao : Bytes) (valor : Int) : Entry Int Bytes :=
  ⟨if tipo = [99] then valor else -valor, descricao⟩

def TransacaoRow.entry (r : TransacaoRow) : Entry Int Bytes := lanca r.tipo r.descricao r.valor

def Lancamento.entry (l : Lancamento) : Entry Int Bytes := lanca l.tipo l.descricao l.valor

/-- `transacao_repo_insert_async` writes it to the account `id_cliente`. -/
def Transacao.entry (t : Transacao) : Entry Int Bytes := lanca t.tipo t.descricao t.valor.toInt

def Contas.inicial : Contas := fun id =>
  (Db.init.cliente.find? fun c => c.id = id).bind fun c =>
    if h : -c.limite ≤ 0 then some (.opened (-c.limite) h) else none

/-- What a query adds to the accounts. -/
def Contas.executa (b : Contas) (query : List Stmt) : Option Contas :=
  (query.filterMap Stmt.lancamento?).foldlM (fun b l => b.post l.idCliente l.entry) b

/-- A client's rows are its account. -/
structure Espelha (d : Db) (a : Conta) (c : ClienteRow) : Prop where
  floor : a.floor = -c.limite
  balance : a.balance = c.saldo
  entries : a.entries =
    ((d.transacao.filter fun r => r.idCliente = c.id).map TransacaoRow.entry).reverse

/-- Every client has the account its rows show, and nobody else has one. -/
structure Representa (d : Db) (b : Contas) : Prop where
  conta : ∀ id c, (d.cliente.find? fun c => c.id = id) = some c → ∃ a, b id = some a ∧ Espelha d a c
  nenhuma : ∀ id, (d.cliente.find? fun c => c.id = id) = none → b id = none

section
variable {d d' : Db} {b : Contas} {t : Transacao} {agora : Nat}

theorem representa_init : Representa Db.init Contas.inicial where
  conta := fun id c hc => by
    have hall : ∀ c ∈ Db.init.cliente, -c.limite ≤ 0 ∧ c.saldo = 0 := by decide
    obtain ⟨hl, hs⟩ := hall c (List.mem_of_find?_eq_some hc)
    exact ⟨.opened (-c.limite) hl, by rw [Contas.inicial, hc, Option.bind_some, dif_pos hl],
      rfl, hs.symm, rfl⟩
  nenhuma := fun id hn => by rw [Contas.inicial, hn, Option.bind_none]

/-- The row of a client after an UPDATE. -/
theorem find_update (op : Operacao) (valor : Int) (id i : Nat) :
    ((d.update op valor id).cliente.find? fun c => c.id = i) =
      (d.cliente.find? fun c => c.id = i).map fun c =>
        if c.id = id then { c with saldo := op.apply c.saldo valor } else c := by
  have hid : ((fun c : ClienteRow => decide (c.id = i)) ∘ fun c =>
      if c.id = id then { c with saldo := op.apply c.saldo valor } else c) =
        fun c => decide (c.id = i) := by
    funext c
    simp only [Function.comp_apply]
    split <;> rfl
  simp only [Db.update, List.find?_map, hid]

/-- The amount of a transaction has the sign with which the saldo changes. -/
theorem entry_amount (ht : t.tipo = [99] ∨ t.tipo = [100]) (saldo : Int) :
    t.entry.amount + saldo = (operacaoDe t).apply saldo t.valor.toInt := by
  rcases ht with ht | ht <;> simp [Transacao.entry, lanca, operacaoDe, ht, Operacao.apply] <;> omega

/-- The rows of a client after a transaction. -/
theorem espelha_run {a : Conta} {c : ClienteRow} (h : Espelha d a c)
    (ht : t.tipo = [99] ∨ t.tipo = [100]) (hid : c.id = t.idCliente) (hallow : a.Allows t.entry) :
    Espelha ((d.update (operacaoDe t) t.valor.toInt t.idCliente).insert agora t.idCliente
        t.valor.toInt t.tipo t.descricao) (a.post t.entry hallow)
      { c with saldo := (operacaoDe t).apply c.saldo t.valor.toInt } where
  floor := h.floor
  balance := by rw [Account.post_balance, h.balance, entry_amount ht]
  entries := by
    show t.entry :: a.entries = _
    rw [h.entries]
    simp [Db.insert, Db.update, hid, TransacaoRow.entry, Transacao.entry]

theorem espelha_other {a : Conta} {c : ClienteRow} (h : Espelha d a c) (hid : c.id ≠ t.idCliente) :
    Espelha ((d.update (operacaoDe t) t.valor.toInt t.idCliente).insert agora t.idCliente
      t.valor.toInt t.tipo t.descricao) a c where
  floor := h.floor
  balance := h.balance
  entries := by
    rw [h.entries]
    simp [Db.insert, Db.update, Ne.symm hid]

theorem find_insertStmts (agora i : Nat) (t : Transacao) :
    (((d.update (operacaoDe t) t.valor.toInt t.idCliente).insert agora t.idCliente t.valor.toInt
        t.tipo t.descricao).cliente.find? fun c => c.id = i) =
      (d.cliente.find? fun c => c.id = i).map fun c =>
        if c.id = t.idCliente then { c with saldo := (operacaoDe t).apply c.saldo t.valor.toInt }
        else c :=
  find_update _ _ _ _

/-- **One query.** What commits is allowed, and makes one entry. -/
theorem representa_run (h : Representa d b) (ht : t.tipo = [99] ∨ t.tipo = [100])
    (hrun : Db.run agora (insertStmts t) d = some d') :
    ∃ b', b.post t.idCliente t.entry = some b' ∧ Representa d' b' := by
  obtain ⟨hadm, _, rfl⟩ := run_insertStmts_some hrun
  obtain ⟨hupdate, _, _, _, c₀, hc₀, hid₀⟩ := admits_insertStmts.mp hadm
  obtain ⟨c, hc⟩ : ∃ c, (d.cliente.find? fun c => c.id = t.idCliente) = some c :=
    Option.isSome_iff_exists.mp (List.find?_isSome.mpr ⟨c₀, hc₀, by simpa using hid₀⟩)
  obtain ⟨a, ha, he⟩ := h.conta _ _ hc
  have hid : c.id = t.idCliente := by simpa using List.find?_some hc
  have hallow : a.Allows t.entry := by
    show a.floor ≤ t.entry.amount + a.balance
    rw [he.floor, he.balance, entry_amount ht]
    exact (hupdate c (List.mem_of_find?_eq_some hc) hid).2
  refine ⟨_, Bank.post_update ha hallow, fun i c' hc' => ?_, fun i hn => ?_⟩
  · rw [find_insertStmts, Option.map_eq_some_iff] at hc'
    obtain ⟨c₁, hc₁, rfl⟩ := hc'
    have hi : c₁.id = i := by simpa using List.find?_some hc₁
    by_cases hti : i = t.idCliente
    · subst hti
      obtain rfl : c = c₁ := Option.some.inj (hc.symm.trans hc₁)
      rw [if_pos hid, Function.update_self]
      exact ⟨_, rfl, espelha_run he ht hid hallow⟩
    · obtain ⟨a₁, ha₁, he₁⟩ := h.conta _ _ hc₁
      rw [if_neg (by rwa [hi]), Function.update_of_ne hti]
      exact ⟨a₁, ha₁, espelha_other he₁ (by rwa [hi])⟩
  · rw [find_insertStmts, Option.map_eq_none_iff] at hn
    rw [Function.update_of_ne (by rintro rfl; simp [hc] at hn)]
    exact h.nenhuma i hn

/-- The query of a transaction makes its one entry. -/
theorem executa_insertStmts (b : Contas) (t : Transacao) :
    b.executa (insertStmts t) = b.post t.idCliente t.entry := by
  simp only [Contas.executa, insertStmts, List.filterMap_cons, List.filterMap_nil, Stmt.lancamento?,
    List.foldlM_cons, List.foldlM_nil, bind_pure]
  rfl

end

section
variable {P : Type} [DecidableEq P] {B : Postgres} {J : Jansson} {R : Relogio}
  {tr : List (EventoComFalhas P)} {s : EstadoComFalhas P}

/-- The bank makes the entry of a query that commits. -/
theorem representa_envia {req : Requisicao} {past : List Ato} {query : List Stmt} {agora : Nat}
    {d d' : Db} {b : Contas} (hpre : Envia J req (past ++ [.sent query])) (hd : Representa d b)
    (hrun : Db.run agora query d = some d') :
    ∃ b', b.executa query = some b' ∧ Representa d' b' := by
  obtain ⟨_, _, _, _, t, _, ha, _, rfl⟩ := hpre.last
  obtain ⟨b', hpost, hrep⟩ := representa_run hd ha.tipo hrun
  exact ⟨b', by rw [executa_insertStmts, hpost], hrep⟩

/-- **The tables are accounts**, whatever breaks: the bank makes the entries of the
committed queries one after another, each of them allowed when its turn comes, and its
accounts are then what the tables show. -/
theorem bank_simulates (lidas : Lidas J (labels tr)) (h : ExecucaoComFalhasSql B J R tr s) :
    ∃ b, ((commits (labels tr)).map fun e => e.2.2).foldlM Contas.executa Contas.inicial = some b ∧
      Representa s.store b := by
  rw [execucaoComFalhasSql_iff lidas] at h
  exact faultyRun_simulates (handler_meets J R) Representa Contas.executa representa_init
    representa_envia h

end

theorem bank_simulates_perdido : ∃ (J : Jansson) (tr : List (EventoComFalhas Bool))
    (s : EstadoComFalhas Bool) (b : Contas),
      ExecucaoComFalhasSql .estrito J .parado tr s ∧ .cut true ∈ tr ∧
      s.store.saldo 1 = some 10 ∧ Representa s.store b ∧
      ((commits (labels tr)).map fun e => e.2.2).foldlM Contas.executa Contas.inicial = some b := by
  obtain ⟨J, tr, s, lidas, h, hcut, hs⟩ := exists_deposito_perdido
  obtain ⟨b, hb, hrep⟩ := bank_simulates lidas h
  exact ⟨J, tr, s, b, h, hcut, hs, hrep, hb⟩

end Crinha
