import Crinha.BankAnswers
import Crinha.Postgres
import Crinha.ReadYourWrites

/-!
# The answers of any number of processes

* `post_timely`, `extrato_timely`: an answer tells what the bank does at a moment between
  the accept and the answer.
-/

namespace Crinha
open Pipeline CString Accounts

/-! ## The bank of a moment -/

def Contas.apos {P : Type} (tr : List (Rotulo P)) : Option Contas :=
  ((commits tr).map fun e => e.2.2).foldlM Contas.executa Contas.inicial

section
variable {P : Type} [DecidableEq P] {J : Jansson} {R : Relogio} {tr : List (Rotulo P)}
  {s : Estado P} {p : P} {n : Nat} {resp : Resposta}

theorem representa_apos (h : Execucao J R tr s) :
    ∃ b, Contas.apos tr = some b ∧ Representa s.store b := by
  have hlabels : labels (tr.map .step) = tr := by
    rw [labels, List.filterMap_map]
    exact List.filterMap_some
  obtain ⟨b, hb, hrep⟩ := faultyRun_simulates (handler_meets J R) Representa Contas.executa
    representa_init representa_envia (.of_run none h)
  rw [hlabels] at hb
  exact ⟨b, hb, hrep⟩

/-! ## A POST -/

/-- A POST that has read has read its client, and nothing else. -/
theorem percurso_post_reads {url : Bytes} {body : Option Bytes} {attempts : List Tentativa}
    (hx : Percurso J R (.post url body) attempts resp) :
    attempts = [] ∨ ∃ q r rest, attempts = .asked q r :: rest ∧ ∀ q' r', .asked q' r' ∉ rest := by
  cases hx with
  | semCorpo | recusado => exact .inl rfl
  | semConta | excedido => exact .inr ⟨_, _, [], rfl, fun _ _ => List.not_mem_nil⟩
  | enviado aceito taken => exact .inr ⟨_, _, [_], rfl, fun _ _ => by simp⟩

/-- The answer of a POST that has read the tables `d`. -/
theorem relata_percurso_post {d : Db} {b : Contas} {url : Bytes} {body : Option Bytes}
    {attempts : List Tentativa} (hd : Valida d) (hrep : Representa d b)
    (small : ∀ text t, body = some text → Pedido J url text t → t.valor.toInt ≤ 2147483647)
    (hx : Percurso J R (.post url body) attempts resp)
    (reads : ∀ q r, .asked q r ∈ attempts → r = d.answer R.toChar q)
    (taken : ∀ query, .tried query false ∉ attempts) :
    Relata (b.cumpre J (.post url body)).2 resp := by
  cases hx with
  | semCorpo url => exact .badRequest
  | recusado refused =>
    rw [cumpre_recusado refused]
    exact .unprocessable
  | semConta pedido lido =>
    obtain rfl := reads _ _ List.mem_cons_self
    rw [cumpre_semConta (R := R) hrep pedido lido]
    exact .unknown
  | excedido pedido lido limite =>
    obtain rfl := reads _ _ List.mem_cons_self
    rw [cumpre_excedido (R := R) hd hrep pedido (small _ _ rfl pedido) lido limite]
    exact .refused
  | @enviado url body t r cliente aceito sent =>
    obtain rfl := reads _ _ List.mem_cons_self
    obtain ⟨_, _, _, hrel⟩ :=
      cumpre_aceito (R := R) hd hrep aceito (small _ _ rfl aceito.toPedido)
    cases sent with
    | true => exact hrel
    | false => exact absurd (List.mem_cons_of_mem _ List.mem_cons_self) (taken (insertStmts t))

end

theorem Pedido.valor_pedido {valor : Int64} {tipo descricao url body : Bytes} {t : Transacao}
    {h : ∀ s ∈ [tipo, descricao], Utf8.valid s = true ∧ 0 ∉ s}
    (hp : Pedido (.pedido valor tipo descricao h) url body t) : t.valor = valor := by
  have hvalor := hp.valor.1
  simp only [Jansson.pedido] at hvalor
  split at hvalor
  · exact (Json.integer.inj (Option.some.inj hvalor)).symm
  · cases hvalor

section
variable {P : Type} [DecidableEq P] {J : Jansson} {R : Relogio} {tr : List (Rotulo P)}
  {s : Estado P} {p : P} {n : Nat} {resp : Resposta}

/-- An extrato whose list shows entries of an account, ten if it has as many. -/
inductive RelataExtrato : Except Nat (Outcome Int Bytes) → Option Conta → Resposta → Prop where
  | refused {outcome : Except Nat (Outcome Int Bytes)} {conta : Option Conta} {resp : Resposta}
      (h : Relata outcome resp) (status : resp.status ≠ 200) : RelataExtrato outcome conta resp
  | statement (floor balance : Int) (latest : List (Entry Int Bytes)) {conta : Conta} (hora : Bytes)
      {listed : List (Entry Int Bytes)} {items : List Json} (some_of : listed.Subperm conta.entries)
      (ten : listed.length = min 10 conta.entries.length)
      (h : List.Forall₂ RelataEntry listed items) :
      RelataExtrato (.ok (.statement floor balance latest)) (some conta)
        (.ok (.object [("saldo", .object [("total", inteiro balance), ("data_extrato", .string hora),
          ("limite", inteiro (-floor))]), ("ultimas_transacoes", .array items)]))

/-- Whatever the time stamps of the rows are, those that are listed are entries of the
account. -/
theorem ultimas_entries {d : Db} {a : Conta} {c : ClienteRow} (h : Espelha d a c) :
    ((d.ultimas c.id).map TransacaoRow.entry).Subperm a.entries ∧
      ((d.ultimas c.id).map TransacaoRow.entry).length = min 10 a.entries.length := by
  have hsort := List.perm_insertionSort (fun a b : TransacaoRow => b.realizadaEm ≤ a.realizadaEm)
    (d.transacao.filter fun r => r.idCliente = c.id)
  constructor
  · rw [h.entries]
    exact ((List.take_sublist 10 _).map _).subperm.trans
      ((hsort.map _).trans (List.reverse_perm _).symm).subperm
  · rw [h.entries, Db.ultimas, List.length_map, List.length_take, hsort.length_eq,
      List.length_reverse, List.length_map]

/-- A client has an account at any time. -/
theorem Representa.conta_sempre {d d' : Db} {b' : Contas} {c : ClienteRow} (h : Representa d' b')
    (hd : Contido d) (hd' : Contido d') (hc : c ∈ d.cliente) :
    ∃ c' a, c'.id = c.id ∧ b' c.id = some a ∧ Espelha d' a c' := by
  have hm : (c.id, c.limite) ∈ d'.cliente.map fun c => (c.id, c.limite) := by
    rw [hd'.limites, ← hd.limites]
    exact List.mem_map.mpr ⟨c, hc, rfl⟩
  obtain ⟨c₁, hc₁, he⟩ := List.mem_map.mp hm
  have hid₁ : c₁.id = c.id := (Prod.mk.inj he).1
  obtain ⟨c', hc'⟩ : ∃ c', (d'.cliente.find? fun c' => c'.id = c.id) = some c' :=
    Option.isSome_iff_exists.mp (List.find?_isSome.mpr ⟨c₁, hc₁, by simpa using hid₁⟩)
  obtain ⟨a, ha, hesp⟩ := h.conta _ _ hc'
  exact ⟨c', a, by simpa using List.find?_some hc', ha, hesp⟩

end

end Crinha
