import Crinha.ReadYourWrites

/-!
# The extrato

* `extrato_total`: its total and its list agree up to what was committed in between.
-/

namespace Crinha
open Pipeline CString Decimal

/-! ## Rows that can be read back -/

/-- What every row of `transacao` is like. -/
structure TransacaoRow.Gravada (r : TransacaoRow) : Prop where
  valor : IsInteger r.valor
  tipo : r.tipo = [99] ∨ r.tipo = [100]
  text : Utf8.valid r.descricao = true
  length : r.descricao.length ≤ utf8TransacaoDescricaoLen
  noNul : 0 ∉ r.descricao

def Db.Gravadas (d : Db) : Prop := ∀ r ∈ d.transacao, r.Gravada

section
variable {J : Jansson} {url body : Bytes} {t : Transacao} {d d' : Db} {agora : Nat}

/-- The description that is sent is short and without NUL, since it is a copy. -/
theorem Pedido.descricao_short (h : Pedido J url body t) :
    t.descricao.length ≤ utf8TransacaoDescricaoLen ∧ 0 ∉ t.descricao := by
  obtain ⟨s, _, _, hn, _, _, hd⟩ := h.descricao
  rw [hd]
  exact ⟨List.length_take_le _ _, fun hm => hn (List.mem_of_mem_take hm)⟩

theorem gravadas_run (hd : d.Gravadas) (hp : Pedido J url body t)
    (h : Db.run agora (insertStmts t) d = some d') : d'.Gravadas := by
  obtain ⟨hadm, _, rfl⟩ := run_insertStmts_some h
  have hins : (Stmt.insertTransacao t.idCliente t.valor.toInt t.tipo t.descricao).Admits d :=
    hadm _ (List.mem_cons_of_mem _ List.mem_cons_self)
  obtain ⟨hvalor, _, htext, _⟩ := hins
  obtain ⟨hlen, hnul⟩ := hp.descricao_short
  intro r hr
  rcases List.mem_append.mp hr with hr | hr
  · exact hd r hr
  · obtain rfl := List.mem_singleton.mp hr
    exact ⟨hvalor, hp.tipo, htext.1, hlen, hnul⟩

end

section
variable {P : Type} [DecidableEq P] {J : Jansson} {R : Relogio} {tr : List (Rotulo P)}
  {s : Estado P}

theorem gravadas (h : Execucao J R tr s) : s.store.Gravadas := by
  refine run_store_inv (handler_meets J R) (fun r hr => absurd hr List.not_mem_nil) ?_ h
  intro req past c agora d d' hpre hd hrun
  obtain ⟨_, _, _, _, t, _, ha, _, rfl⟩ := hpre.last
  exact gravadas_run hd ha.toPedido hrun

end

/-! ## What is read back -/

/-- The transactions `transacao_repo_find_last_10` makes of a result. -/
def listadas : Option DBResultSet → List Transacao
  | some resultSet => resultSet.records.map transacaoDe
  | none => []

section
variable {r : TransacaoRow} {d : Db} {toChar : Nat → Bytes}

theorem valor_transacaoDe (h : IsInteger r.valor) :
    (transacaoDe (r.record toChar)).valor.toInt = r.valor :=
  atol_showInt ⟨by have := h.1; omega, by have := h.2; omega⟩

theorem tipo_transacaoDe (h : r.tipo = [99] ∨ r.tipo = [100]) :
    (transacaoDe (r.record toChar)).tipo = r.tipo := by
  have hn : 0 ∉ r.tipo := by rcases h with h | h <;> rw [h] <;> decide
  show copied r.tipo transacaoTipoLen = r.tipo
  rw [copied_eq _ hn, List.take_of_length_le]
  rcases h with h | h <;> rw [h] <;> decide

theorem descricao_transacaoDe (h : r.Gravada) :
    (transacaoDe (r.record toChar)).descricao = r.descricao := by
  show copied r.descricao utf8TransacaoDescricaoLen = r.descricao
  rw [copied_eq _ h.noNul, List.take_of_length_le h.length]

theorem buildJsonTransacao_isSome (h : r.Gravada)
    (htime : ∀ b ∈ toChar r.realizadaEm, 0 < b.toNat ∧ b.toNat < 0x80) :
    (buildJsonTransacao (transacaoDe (r.record toChar))).isSome := by
  have htipo : Utf8.valid (transacaoDe (r.record toChar)).tipo = true := by
    rw [tipo_transacaoDe h.tipo]
    rcases h.tipo with ht | ht <;> rw [ht] <;> decide
  have htext : Utf8.valid (transacaoDe (r.record toChar)).descricao = true := by
    rw [descricao_transacaoDe h, h.text]
  have hhora : Utf8.valid (transacaoDe (r.record toChar)).realizadaEm = true :=
    valid_copied htime _
  simp [buildJsonTransacao, packStr, htipo, htext, hhora]

/-! ## Sums over what is listed -/

/-- The sum of the listed transactions of one kind. -/
def somaListada (transacoes : List Transacao) (tipo : Bytes) : Int :=
  ((transacoes.filter fun t => t.tipo = tipo).map fun t => t.valor.toInt).sum

theorem somaListada_records (tipo : Bytes) : ∀ {l : List TransacaoRow}, (∀ r ∈ l, r.Gravada) →
    somaListada (l.map fun r => transacaoDe (r.record toChar)) tipo =
      ((l.filter fun r => r.tipo = tipo).map (·.valor)).sum := by
  intro l
  induction l with
  | nil => intro _; rfl
  | cons r l ih =>
    intro h
    have hr := h r List.mem_cons_self
    have hl := ih fun x hx => h x (List.mem_cons_of_mem _ hx)
    simp only [somaListada] at hl
    simp only [somaListada, List.map_cons, List.filter_cons, tipo_transacaoDe hr.tipo]
    split <;> simp [hl, valor_transacaoDe hr.valor]

/-- With at most ten rows, all of them are listed, in some order. -/
theorem ultimas_perm {id : Nat}
    (few : (d.transacao.filter fun r => r.idCliente = id).length ≤ 10) :
    (d.ultimas id).Perm (d.transacao.filter fun r => r.idCliente = id) := by
  have hp := List.perm_insertionSort (fun a b : TransacaoRow => b.realizadaEm ≤ a.realizadaEm)
    (d.transacao.filter fun r => r.idCliente = id)
  rw [Db.ultimas, List.take_of_length_le (by rw [hp.length_eq]; exact few)]
  exact hp

theorem mem_ultimas {id : Nat} (h : r ∈ d.ultimas id) : r ∈ d.transacao ∧ r.idCliente = id := by
  have hm := (List.perm_insertionSort _ _).mem_iff.mp (List.mem_of_mem_take h)
  simpa using hm

theorem somaListada_answer (hd : d.Gravadas) {id : Nat} (tipo : Bytes)
    (few : (d.transacao.filter fun r => r.idCliente = id).length ≤ 10) :
    somaListada (listadas (d.answer toChar (.ultimas id))) tipo = d.soma id tipo := by
  have hl : listadas (d.answer toChar (.ultimas id)) =
      (d.ultimas id).map fun r => transacaoDe (r.record toChar) := List.map_map
  rw [hl, somaListada_records tipo fun r hr => hd r (mem_ultimas hr).1]
  have hp := ((ultimas_perm few).filter fun r => r.tipo = tipo).map TransacaoRow.valor
  rw [hp.sum_eq, List.filter_filter, Db.soma]
  simp only [Bool.decide_and, Bool.and_comm]

end

/-! ## The two reads of a GET -/

/-- What a GET answered 200 has read and shows. -/
def Extrai (R : Relogio) : Requisicao → List Ato → Resposta → Prop
  | .post .., _, _ => True
  | .get url agora, acts, resp => resp.status = 200 → ∃ r r' cliente,
      (firstRecord r).map clienteDe = some cliente ∧
      acts = [.asked (.cliente (atoi (extractUrlParam url))) r,
        .asked (.ultimas (atoi (extractUrlParam url))) r'] ∧
      resp = .ok (buildJsonExtrato (buildJsonSaldoData (R.isoStr agora) cliente)
        (some (buildJsonTransacoes (listadas r'))))

theorem transacaoServiceFindLast10_lista {pre : List Ato → Prop} {past : List Ato} (id : Nat) :
    (transacaoServiceFindLast10 id).Meets pre
      (fun acts l => ∃ r, acts = past ++ [.asked (.ultimas id) r] ∧ l = listadas r) past := by
  intro r
  cases r with
  | none => exact ⟨_, rfl, rfl⟩
  | some r => exact ⟨_, rfl, rfl⟩

theorem findById_extrai (url dataExtrato : Bytes) :
    (clienteControllerFindById url dataExtrato).Meets (fun _ => True)
      (fun acts resp => resp.status = 200 → ∃ r r' cliente,
        (firstRecord r).map clienteDe = some cliente ∧
        acts = [.asked (.cliente (atoi (extractUrlParam url))) r,
          .asked (.ultimas (atoi (extractUrlParam url))) r'] ∧
        resp = .ok (buildJsonExtrato (buildJsonSaldoData dataExtrato cliente)
          (some (buildJsonTransacoes (listadas r'))))) [] := by
  unfold clienteControllerFindById
  simp only
  split
  · apply Prog.Meets.bind (clienteServiceFindOne_meets _)
    rintro acts cliente ⟨r, rfl, hr⟩
    cases cliente with
    | none =>
      intro ok
      cases ok
    | some cliente =>
      apply Prog.Meets.bind (transacaoServiceFindLast10_lista _)
      rintro acts transacoes ⟨r', rfl, rfl⟩ _
      exact ⟨r, r', cliente, hr.symm, rfl, rfl⟩
  · intro ok
    cases ok

theorem handler_extrai (J : Jansson) (R : Relogio) (req : Requisicao) :
    (handler J R req).Meets (fun _ => True) (Extrai R req) [] := by
  cases req with
  | post url body => exact Prog.Meets.of_true _ _
  | get url agora => exact findById_extrai url (R.isoStr agora)

section
variable {P : Type} [DecidableEq P] {B : Postgres} {J : Jansson} {R : Relogio}
  {tr : List (Rotulo P)} {s : Estado P}

/-- A 200 answer to a GET shows what its two reads found. -/
theorem extrato_mostra {q : P} {m id : Nat} {url : Bytes} {agora : Nat} {resp : Resposta}
    {r r' : Option DBResultSet} (h : Execucao J R tr s) (ha : ⟨q, m, .accept (.get url agora)⟩ ∈ tr)
    (hread : ⟨q, m, .read (.cliente id) r⟩ ∈ tr) (hread' : ⟨q, m, .read (.ultimas id) r'⟩ ∈ tr)
    (hr : ⟨q, m, .answer resp⟩ ∈ tr) (ok : resp.status = 200) :
    ∃ cliente, (firstRecord r).map clienteDe = some cliente ∧
      resp = .ok (buildJsonExtrato (buildJsonSaldoData (R.isoStr agora) cliente)
        (some (buildJsonTransacoes (listadas r')))) := by
  have htrack := run_track (handler_extrai J R) h
  obtain ⟨req, hreq, hpost⟩ := htrack.answered hr
  obtain rfl := (htrack.accepted ha hreq).2
  obtain ⟨r₀, r₀', cliente, hlido, hacts, rfl⟩ := hpost ok
  have hmem := asked_mem_actsOf.mpr hread
  have hmem' := asked_mem_actsOf.mpr hread'
  rw [hacts] at hmem hmem'
  obtain ⟨_, rfl⟩ : id = atoi (extractUrlParam url) ∧ r = r₀ := by simpa using hmem
  obtain ⟨_, rfl⟩ : id = atoi (extractUrlParam url) ∧ r' = r₀' := by simpa using hmem'
  exact ⟨cliente, hlido, rfl⟩

theorem soma_of_saldo {d : Db} (hd : Consistente d) {id : Nat} {x : Int} (h : d.saldo id = some x) :
    x = d.soma id [99] - d.soma id [100] := by
  obtain ⟨c, hc, rfl, rfl⟩ := saldo_mem h
  exact hd.saldo c hc

/-- **The total of an extrato** and the sums of the transactions it lists differ by
what the queries of the same client add that were committed between its two reads.
With at most ten transactions and none of these, the extrato is consistent. -/
theorem extrato_total {q : P} {m id : Nat} {url : Bytes} {agora : Nat} {resp : Resposta}
    {r r' : Option DBResultSet} {a b c : List (Rotulo P)}
    (lidas : Lidas J
      (a ++ ⟨q, m, .read (.cliente id) r⟩ :: (b ++ ⟨q, m, .read (.ultimas id) r'⟩ :: c)))
    (h : ExecucaoSql B J R
      (a ++ ⟨q, m, .read (.cliente id) r⟩ :: (b ++ ⟨q, m, .read (.ultimas id) r'⟩ :: c)) s)
    (ha : ⟨q, m, .accept (.get url agora)⟩ ∈
      a ++ ⟨q, m, .read (.cliente id) r⟩ :: (b ++ ⟨q, m, .read (.ultimas id) r'⟩ :: c))
    (hr : ⟨q, m, .answer resp⟩ ∈
      a ++ ⟨q, m, .read (.cliente id) r⟩ :: (b ++ ⟨q, m, .read (.ultimas id) r'⟩ :: c))
    (ok : resp.status = 200) :
    ∃ cliente s₁, (firstRecord r).map clienteDe = some cliente ∧
      resp = .ok (buildJsonExtrato (buildJsonSaldoData (R.isoStr agora) cliente)
        (some (buildJsonTransacoes (listadas r')))) ∧
      (∀ t ∈ listadas r', (buildJsonTransacao t).isSome) ∧
      ExecucaoSql B J R (a ++ ⟨q, m, .read (.cliente id) r⟩ :: b) s₁ ∧
      r' = s₁.store.answer R.toChar (.ultimas id) ∧
      ((s₁.store.transacao.filter fun x => x.idCliente = id).length ≤ 10 →
        cliente.saldo.toInt + ((commits b).map fun e => efeito id e.2.2).sum =
          somaListada (listadas r') (ascii "c") - somaListada (listadas r') (ascii "d")) := by
  have lidas' : Lidas J (a ++ ⟨q, m, .read (.cliente id) r⟩ :: b) :=
    Lidas.left (b := ⟨q, m, .read (.ultimas id) r'⟩ :: c) (by simpa using lidas)
  rw [execucaoSql_iff lidas] at h
  obtain ⟨cliente, hlido, rfl⟩ := extrato_mostra h ha
    (List.mem_append_right _ List.mem_cons_self)
    (List.mem_append_right _ (List.mem_cons_of_mem _ (List.mem_append_right _ List.mem_cons_self)))
    hr ok
  obtain ⟨s₀, s₀', h₀, hstep₀, h₀'⟩ := h.split _
  obtain ⟨s₁, s₂, hb, hstep₁, _⟩ := h₀'.split _
  obtain ⟨hread, hstore⟩ := hstep₀.read_inv
  have hread' : r' = s₁.store.answer R.toChar (.ultimas id) := hstep₁.read_inv.1
  have h₁ : Execucao J R (a ++ ⟨q, m, .read (.cliente id) r⟩ :: b) s₁ := by
    simpa using (h₀.next hstep₀).append hb
  have hgrav := gravadas h₁
  refine ⟨cliente, s₁, hlido, rfl, ?_, (execucaoSql_iff lidas').mpr h₁, hread', fun few => ?_⟩
  · intro t ht
    rw [hread'] at ht
    obtain ⟨record, hrec, rfl⟩ := List.mem_map.mp ht
    obtain ⟨row, hrow, rfl⟩ := List.mem_map.mp hrec
    exact buildJsonTransacao_isSome (hgrav row (mem_ultimas hrow).1) (R.toChar_ascii _)
  · rw [hread] at hlido
    obtain ⟨row, hrow, _, hx, rfl⟩ := lido_answer R.toChar hlido
    have hsaldo := saldo_eq_commits hb id
    rw [hstore, hx, Option.map_some] at hsaldo
    rw [saldo_clienteDe ((consistente h₀).bigint row hrow).1, hread',
      somaListada_answer hgrav _ few, somaListada_answer hgrav _ few]
    exact soma_of_saldo (consistente h₁) hsaldo

end

/-- An extrato after a credit, with nothing between its two reads. -/
def leSeguido : List (Rotulo Bool) → Bool
  | [_, _, _, _, _, ⟨true, 1, .accept (.get _ _)⟩, ⟨true, 1, .read (.cliente 1) _⟩,
      ⟨true, 1, .read (.ultimas 1) r⟩, ⟨true, 1, .answer resp⟩] =>
    resp.status == 200 && somaListada (listadas r) (ascii "c") == 10
  | _ => false

/-- What the two reads found is what the answer shows. -/
theorem extrato_total_alone : ∃ (J : Jansson) (tr : List (Rotulo Bool)) (s : Estado Bool),
    ExecucaoSql .estrito J .parado tr s ∧
    ∃ (cliente : Cliente) (r r' : Option DBResultSet) (agora : Nat),
      ⟨true, 1, .read (.cliente 1) r⟩ ∈ tr ∧ ⟨true, 1, .read (.ultimas 1) r'⟩ ∈ tr ∧
      (firstRecord r).map clienteDe = some cliente ∧
      ⟨true, 1, .answer (.ok (buildJsonExtrato
        (buildJsonSaldoData (Relogio.parado.isoStr agora) cliente)
        (some (buildJsonTransacoes (listadas r')))))⟩ ∈ tr ∧
      somaListada (listadas r') (ascii "c") = 10 ∧
      ∃ s₁ : Estado Bool, r' = s₁.store.answer Relogio.parado.toChar (.ultimas 1) ∧
        ((s₁.store.transacao.filter fun x => x.idCliente = 1).length ≤ 10 →
          cliente.saldo.toInt + 0 =
            somaListada (listadas r') (ascii "c") - somaListada (listadas r') (ascii "d")) := by
  obtain ⟨tr, s, lidas, h, hs⟩ := execucaoSql_of_play (R := .parado) .estrito
    (J := .pedido 10 (ascii "c") (ascii "pix") (by decide)) (lida_pedido (by decide))
    [.accept true credito, .go true, .go true, .go true, .exec true 0, .accept true extrato,
      .go true, .go true, .go true]
    (fun tr _ => leSeguido tr) (by decide)
  unfold leSeguido at hs
  split at hs
  · rename_i l₀ l₁ l₂ l₃ l₄ url agora r r' resp
    simp only [Bool.and_eq_true, beq_iff_eq] at hs
    obtain ⟨cliente, s₁, hlido, rfl, _, _, hr, hsum⟩ :=
      extrato_total (a := [_, _, _, _, _, _]) (b := []) (c := [_]) lidas h
        (List.mem_of_getElem? (i := 5) rfl) (List.mem_of_getElem? (i := 8) rfl) hs.1
    exact ⟨_, _, s, h, cliente, r, r', agora, by simp, by simp, hlido, by simp, hs.2, s₁, hr, hsum⟩
  · cases hs

/-- An extrato with a credit of the other process between its two reads. -/
def leSeparado : List (Rotulo Bool) → Bool
  | [⟨true, 0, .accept (.get _ _)⟩, ⟨true, 0, .read (.cliente 1) r⟩, _, _, _, _, _,
      ⟨true, 0, .read (.ultimas 1) r'⟩, ⟨true, 0, .answer resp⟩] =>
    resp.status == 200 && saldoLido r == some 0 &&
      somaListada (listadas r') (ascii "c") == 10 && somaListada (listadas r') (ascii "d") == 0
  | _ => false

/-- The extrato shows a total of 0 and lists a credit of 10. -/
theorem extrato_total_torn : ∃ (tr : List (Rotulo Bool)) (s : Estado Bool) (resp : Resposta)
    (cliente : Cliente) (r : Option DBResultSet),
    Execucao (.pedido 10 (ascii "c") (ascii "pix") (by decide)) .parado tr s ∧
    ⟨true, 0, .answer resp⟩ ∈ tr ∧
    resp = .ok (buildJsonExtrato (buildJsonSaldoData (Relogio.parado.isoStr 0) cliente)
      (some (buildJsonTransacoes (listadas r)))) ∧
    s.store.transacao.length ≤ 10 ∧ cliente.saldo.toInt = 0 ∧
    somaListada (listadas r) (ascii "c") - somaListada (listadas r) (ascii "d") = 10 := by
  obtain ⟨tr, s, h, hs⟩ := execucao_of_play
    (.pedido 10 (ascii "c") (ascii "pix") (by decide)) .parado
    [.accept true extrato, .go true, .accept false credito, .go false, .go false, .go false,
      .exec false 0, .go true, .go true]
    (fun tr s => decide (s.store.transacao.length ≤ 10) && leSeparado tr) (by decide)
  rw [Bool.and_eq_true, decide_eq_true_eq] at hs
  obtain ⟨hlen, hs⟩ := hs
  unfold leSeparado at hs
  split at hs
  · rename_i url agora r l₂ l₃ l₄ l₅ l₆ r' resp
    simp only [Bool.and_eq_true, beq_iff_eq] at hs
    obtain ⟨⟨⟨hok, hsaldo⟩, hc⟩, hd⟩ := hs
    obtain ⟨cliente, hlido, hresp⟩ :=
      extrato_mostra h (List.mem_of_getElem? (i := 0) rfl) (List.mem_of_getElem? (i := 1) rfl)
        (List.mem_of_getElem? (i := 7) rfl) (List.mem_of_getElem? (i := 8) rfl) hok
    obtain ⟨record, hrec, rfl⟩ := Option.map_eq_some_iff.mp hlido
    have hzero : (clienteDe record).saldo = 0 := by simpa [saldoLido, hrec] using hsaldo
    refine ⟨_, s, resp, clienteDe record, r', h, List.mem_of_getElem? (i := 8) rfl, hresp, hlen,
      ?_, ?_⟩
    · rw [hzero]
      rfl
    · rw [hc, hd]
      rfl
  · cases hs

end Crinha
