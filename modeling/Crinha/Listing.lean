import Crinha.Amounts
import Crinha.Extrato
import Crinha.Failures
import Crinha.Pipeline.Paths

/-!
# The transactions of an extrato

* `listing_faithful`: every row that was read is listed, in the same order.
-/

namespace Crinha
open Pipeline CString

/-! ## The JSON of an extrato -/

section
variable {attempts : List Tentativa} {json : Json}

/-- What a 200 lists is what its query for the transactions returned. -/
theorem findById_json {url data : Bytes}
    (h : (clienteControllerFindById url data).Exec attempts (some (.ok json))) :
    ∃ cliente r, (∀ id r', .asked (.ultimas id) r' ∈ attempts ↔
        id = atoi (extractUrlParam url) ∧ r' = r) ∧
      json = buildJsonExtrato (buildJsonSaldoData data cliente)
        (some (buildJsonTransacoes (listadas r))) := by
  obtain ⟨r, r', cliente, _, hacts, hjson⟩ := (findById_extrai url data).exec h rfl
  refine ⟨cliente, r', ?_, Resposta.ok.inj hjson⟩
  intro id r''
  rw [← asked_mem_acts, ← List.nil_append (attempts.filterMap _), hacts]
  simp

/-- A failed query crashes it. -/
theorem clienteServiceFindOne_eq (id : Nat) :
    clienteServiceFindOne id = .query (.cliente id) fun r =>
      r.elim .halt fun resultSet => .done ((firstRecord (some resultSet)).map clienteDe) := by
  show Prog.query _ _ = _
  congr 1
  funext r
  cases r <;> rfl

theorem transacaoServiceFindLast10_eq (id : Nat) :
    transacaoServiceFindLast10 id = .query (.ultimas id) fun r => .done (listadas r) := by
  show Prog.query _ _ = _
  congr 1
  funext r
  cases r <;> rfl

/-- Once the client is found, the handler asks for its transactions, and lists what it gets. -/
theorem findById_exec {url data : Bytes} {cliente : Cliente} {attempts : List Tentativa}
    {result : Option Resposta} (answer : Consulta → Option DBResultSet)
    (param : isIdClienteValido (extractUrlParam url) = true)
    (lido : (firstRecord (answer (.cliente (atoi (extractUrlParam url))))).map clienteDe =
      some cliente)
    (hreads : ∀ q r, .asked q r ∈ attempts → r = answer q) :
    (clienteControllerFindById url data).Exec attempts result ↔
      attempts = [.asked (.cliente (atoi (extractUrlParam url)))
          (answer (.cliente (atoi (extractUrlParam url)))),
        .asked (.ultimas (atoi (extractUrlParam url)))
          (answer (.ultimas (atoi (extractUrlParam url))))] ∧
      result = some (.ok (buildJsonExtrato (buildJsonSaldoData data cliente)
        (some (buildJsonTransacoes
          (listadas (answer (.ultimas (atoi (extractUrlParam url))))))))) := by
  cases hcliente : answer (.cliente (atoi (extractUrlParam url))) with
  | none =>
    rw [hcliente] at lido
    cases lido
  | some resultSet =>
    rw [hcliente] at lido
    rw [clienteControllerFindById, if_pos param]
    simp only [clienteServiceFindOne_eq, transacaoServiceFindLast10_eq, Prog.query_bind,
      Prog.exec_query]
    constructor
    · rintro ⟨r, rest, rfl, hx⟩
      obtain rfl := hreads _ _ List.mem_cons_self
      rw [hcliente] at hx ⊢
      simp only [Option.elim_some, Prog.done_bind, lido, Prog.pure_eq, Prog.exec_query,
        Prog.exec_done] at hx
      obtain ⟨r, _, rfl, rfl, rfl⟩ := hx
      obtain rfl := hreads _ _ (List.mem_cons_of_mem _ List.mem_cons_self)
      exact ⟨rfl, rfl⟩
    · rintro ⟨rfl, rfl⟩
      refine ⟨_, _, rfl, ?_⟩
      simp only [Option.elim_some, Prog.done_bind, lido]
      exact .query (.done _)

theorem packStr_eq_some {s : Bytes} (h : packStr s = some json) : json = .string s := by
  unfold packStr at h
  split at h
  · exact (Option.some.inj h).symm
  · cases h

theorem buildJsonTransacao_eq_some {t : Transacao} (h : buildJsonTransacao t = some json) :
    json = .object [("valor", packInt t.valor), ("tipo", .string t.tipo),
      ("descricao", .string t.descricao), ("realizada_em", .string t.realizadaEm)] := by
  simp only [buildJsonTransacao, Option.bind_eq_bind, Option.bind_eq_some_iff, Option.pure_def,
    Option.some.injEq] at h
  obtain ⟨tipo, htipo, descricao, hdescricao, realizadaEm, hrealizadaEm, rfl⟩ := h
  rw [packStr_eq_some htipo, packStr_eq_some hdescricao, packStr_eq_some hrealizadaEm]

end

/-! ## The rows -/

/-- `json` shows what is stored in a row. -/
def Mostra (toChar : Nat → Bytes) (r : TransacaoRow) (json : Json) : Prop :=
  ∃ valor : Int64, valor.toInt = r.valor ∧
    json = .object [("valor", .integer valor), ("tipo", .string r.tipo),
      ("descricao", .string r.descricao), ("realizada_em", .string (toChar r.realizadaEm))]

section
variable {toChar : Nat → Bytes} {r : TransacaoRow}

theorem realizadaEm_transacaoDe (hlen : (toChar r.realizadaEm).length ≤ transacaoRealizadaEmLen)
    (htime : ∀ b ∈ toChar r.realizadaEm, 0 < b.toNat ∧ b.toNat < 0x80) :
    (transacaoDe (r.record toChar)).realizadaEm = toChar r.realizadaEm := by
  have hn : 0 ∉ toChar r.realizadaEm := fun hm => absurd (htime 0 hm).1 (by decide)
  show copied (toChar r.realizadaEm) transacaoRealizadaEmLen = toChar r.realizadaEm
  rw [copied_eq _ hn, List.take_of_length_le hlen]

/-- The amount is not narrowed, no text is cut, and nothing makes `json_pack` fail. -/
theorem mostra_record (h : r.Gravada)
    (hlen : (toChar r.realizadaEm).length ≤ transacaoRealizadaEmLen)
    (htime : ∀ b ∈ toChar r.realizadaEm, 0 < b.toNat ∧ b.toNat < 0x80) :
    ∃ json, buildJsonTransacao (transacaoDe (r.record toChar)) = some json ∧
      Mostra toChar r json := by
  obtain ⟨json, hjson⟩ := Option.isSome_iff_exists.mp (buildJsonTransacao_isSome h htime)
  have hvalor : (transacaoDe (r.record toChar)).valor.toInt = r.valor := valor_transacaoDe h.valor
  refine ⟨json, hjson, (transacaoDe (r.record toChar)).valor, hvalor, ?_⟩
  have hpack : packInt (transacaoDe (r.record toChar)).valor = .integer _ :=
    packInt_exact.mpr (by rw [hvalor]; exact h.valor)
  rw [buildJsonTransacao_eq_some hjson, hpack, tipo_transacaoDe h.tipo, descricao_transacaoDe h,
    realizadaEm_transacaoDe hlen htime]

/-- What is built from a list of rows shows them one by one. -/
theorem forall₂_mostra {l : List TransacaoRow}
    (h : ∀ r ∈ l, ∃ json, buildJsonTransacao (transacaoDe (r.record toChar)) = some json ∧
      Mostra toChar r json) :
    List.Forall₂ (Mostra toChar) l
      ((l.map fun r => transacaoDe (r.record toChar)).filterMap buildJsonTransacao) := by
  induction l with
  | nil => exact .nil
  | cons r l ih =>
    obtain ⟨json, hjson, hm⟩ := h r List.mem_cons_self
    have hl := ih fun x hx => h x (List.mem_cons_of_mem _ hx)
    rw [List.map_cons, List.filterMap_cons, hjson]
    exact .cons hm hl

end

section
variable {P : Type} [DecidableEq P] {J : Jansson} {R : Relogio} {tr : List (Rotulo P)}
  {s : Estado P}

/-- What a read finds: clients in `d`, transactions in `d'`, which may be a later state. -/
def leitura (toChar : Nat → Bytes) (d d' : Db) : Consulta → Option DBResultSet
  | .cliente id => d.answer toChar (.cliente id)
  | .ultimas id => d'.answer toChar (.ultimas id)

/-- **The listing is faithful.** For a valid id of a client that exists, with reads that are
answered, the handler asks for the client and for its transactions and builds an extrato.
If these are read in a reached state, it lists as many as the query returned, at most ten,
in its order, each as it is stored. -/
theorem listing_faithful (h : Execucao J R tr s)
    (hlen : ∀ x, (R.toChar x).length ≤ transacaoRealizadaEmLen) {url data : Bytes} {d : Db}
    (param : isIdClienteValido (extractUrlParam url) = true)
    (existe : ∃ c ∈ d.cliente, c.id = atoi (extractUrlParam url)) :
    ∃ resultSet saldo items,
      s.store.answer R.toChar (.ultimas (atoi (extractUrlParam url))) = some resultSet ∧
      (∀ attempts result,
        (∀ q r, .asked q r ∈ attempts → r = leitura R.toChar d s.store q) →
        ((clienteControllerFindById url data).Exec attempts result ↔
          attempts = [.asked (.cliente (atoi (extractUrlParam url)))
              (d.answer R.toChar (.cliente (atoi (extractUrlParam url)))),
            .asked (.ultimas (atoi (extractUrlParam url))) (some resultSet)] ∧
          result = some (.ok
            (.object [("saldo", saldo), ("ultimas_transacoes", .array items)])))) ∧
      items.length = resultSet.records.length ∧ items.length ≤ 10 ∧
      resultSet.records = (s.store.ultimas (atoi (extractUrlParam url))).map
        (TransacaoRow.record R.toChar) ∧
      List.Forall₂ (Mostra R.toChar) (s.store.ultimas (atoi (extractUrlParam url))) items := by
  have hgrav := gravadas h
  have hall := forall₂_mostra fun r (hm : r ∈ s.store.ultimas (atoi (extractUrlParam url))) =>
    mostra_record (hgrav r (mem_ultimas hm).1) (hlen _) (R.toChar_ascii _)
  have hcount := hall.length_eq
  obtain ⟨cliente, hlido⟩ : ∃ cliente, (firstRecord (d.answer R.toChar
      (.cliente (atoi (extractUrlParam url))))).map clienteDe = some cliente := by
    rw [firstRecord_answer]
    obtain ⟨c, hc⟩ := Option.isSome_iff_exists.mp (List.find?_isSome.mpr
      (by simpa using existe : ∃ c ∈ d.cliente, decide (c.id = atoi (extractUrlParam url)) = true))
    exact ⟨_, by rw [hc]; rfl⟩
  have hlist : listadas (s.store.answer R.toChar (.ultimas (atoi (extractUrlParam url)))) =
      (s.store.ultimas (atoi (extractUrlParam url))).map fun r =>
        transacaoDe (r.record R.toChar) := List.map_map
  refine ⟨_, (buildJsonSaldoData data cliente).getD .null, _, rfl, ?_, ?_, ?_, rfl, hall⟩
  · intro attempts result hreads
    rw [findById_exec (leitura R.toChar d s.store) param hlido hreads]
    simp only [leitura, hlist]
    rfl
  · rw [List.length_map, hcount]
  · rw [← hcount]
    exact List.length_take_le _ _

end

/-- The extrato of client 1 after two credits. -/
theorem listing_faithful_two : ∃ (J : Jansson) (tr : List (Rotulo Bool)) (s : Estado Bool)
    (saldo : Json) (items : List Json), Execucao J .parado tr s ∧
    (clienteControllerFindById (ascii "/clientes/1/extrato") (Relogio.parado.isoStr 2)).Exec
      [.asked (.cliente 1) (s.store.answer Relogio.parado.toChar (.cliente 1)),
        .asked (.ultimas 1) (s.store.answer Relogio.parado.toChar (.ultimas 1))]
      (some (.ok (.object [("saldo", saldo), ("ultimas_transacoes", .array items)]))) ∧
    items.length = 2 ∧ List.Forall₂ (Mostra Relogio.parado.toChar) (s.store.ultimas 1) items := by
  obtain ⟨tr, s, h, hs⟩ := execucao_of_play
    (.pedido 10 (ascii "c") (ascii "pix") (by decide)) .parado
    [.accept true credito, .go true, .go true, .go true, .exec true 0,
      .accept true credito, .go true, .go true, .go true, .exec true 1]
    (fun _ s => decide ((s.store.ultimas 1).length = 2 ∧ ∃ c ∈ s.store.cliente, c.id = 1))
    (by decide)
  obtain ⟨htwo, existe⟩ := of_decide_eq_true hs
  have hlen : ∀ x, (Relogio.parado.toChar x).length ≤ transacaoRealizadaEmLen := by
    intro x
    show (ascii "2024-03-01T00:00:00.000000Z").length ≤ transacaoRealizadaEmLen
    decide
  have hid : atoi (extractUrlParam (ascii "/clientes/1/extrato")) = 1 := by decide
  have param : isIdClienteValido (extractUrlParam (ascii "/clientes/1/extrato")) = true := by decide
  obtain ⟨resultSet, saldo, items, hanswer, hexec, _, _, _, hall⟩ :=
    listing_faithful h hlen param (hid ▸ existe)
  rw [hid] at hanswer hexec hall
  refine ⟨_, tr, s, saldo, items, h, (hexec _ _ ?_).mpr ⟨by rw [hanswer], rfl⟩, ?_, hall⟩
  · simp only [List.mem_cons, List.not_mem_nil, or_false, Attempt.asked.injEq]
    rintro q r (⟨rfl, rfl⟩ | ⟨rfl, rfl⟩) <;> rfl
  · rw [← hall.length_eq, htwo]

end Crinha
