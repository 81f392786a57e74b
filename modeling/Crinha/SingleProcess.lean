import Crinha.AsyncInvisible
import Crinha.BankAnswers
import Crinha.Pipeline.Refinement
import Crinha.Postgres

/-!
# A single process is a bank

* `served_as_bank`: the answers and the tables of a run that has come to rest.
-/

namespace Crinha
open Pipeline CString Accounts

section
variable {J : Jansson} {R : Relogio} {url body : Bytes} {t : Transacao} {d d' : Db} {agora : Nat}
  {b : Contas}

/-- The latest entries of an account are those its extrato lists. -/
theorem latest_ultimas {a : Conta} {c : ClienteRow} (hd : d.Ordered) (he : Espelha d a c) :
    a.entries.take 10 = (d.ultimas c.id).map TransacaoRow.entry := by
  rw [he.entries, ultimas_ordered hd, List.map_take, List.map_reverse]

/-! ## One request -/

/-- The bank before `n` more requests, with a clock that moves on. -/
structure Espera (n : Nat) (d : Db) (b : Contas) : Prop where
  valida : Valida d
  ordered : d.Ordered
  representa : Representa d b
  ids : d.seq + n ≤ serialMax

theorem espera_init {n : Nat} (h : n ≤ serialMax) : Espera n Db.init Contas.inicial :=
  ⟨valida_init, .nil, representa_init, by simpa [Db.init] using h⟩

theorem Espera.next {n : Nat} (h : Espera (n + 1) d b) : Espera n d b :=
  ⟨h.valida, h.ordered, h.representa, by have := h.ids; omega⟩

/-- A request that asks for nothing the schema refuses: whatever passes the handler's checks has
an amount that fits its column and a description that is not cut inside a character. -/
structure Comum (J : Jansson) (req : Requisicao) : Prop where
  corpo : ¬CorpoNulo J req
  cabe : ∀ {url body t}, req = .post url (some body) → Pedido J url body t →
    t.valor.toInt ≤ 2147483647 ∧ Utf8.valid t.descricao = true

theorem comum_extrato (url : Bytes) (agora : Nat) : Comum J (.get url agora) :=
  ⟨id, fun h => nomatch h⟩

/-- The query of an accepted request commits. -/
theorem run_aceito {cliente : Cliente} (hd : Valida d)
    (ha : Aceito J url body (d.answer R.toChar (.cliente t.idCliente)) cliente t)
    (hv : t.valor.toInt ≤ 2147483647) (htext : Utf8.valid t.descricao = true)
    (hseq : d.seq < serialMax) :
    ∃ d', Db.run agora (insertStmts t) d = some d' ∧ d'.seq = d.seq + 1 := by
  obtain ⟨c, hc, hid, _⟩ := lido_answer R.toChar ha.lido
  obtain ⟨s, _, _, _, _, hlen, hs⟩ := ha.descricao
  have hpos := ha.valor_pos
  have hadm : ∀ st ∈ insertStmts t, st.Admits d := admits_insertStmts.mpr
    ⟨fun c hc hid => admits_update hd.contido hd.consistente _ ha hv hc hid,
      ⟨by omega, hv⟩, by rcases ha.tipo with ht | ht <;> rw [ht] <;> decide,
      ⟨htext, by rw [hs]; exact (Utf8.charLength_take_le _ _).trans hlen⟩, c, hc, hid⟩
  exact ⟨_, by rw [run_insertStmts, if_pos ⟨hadm, hseq⟩], rfl⟩

/-- The tables after an accepted request. -/
theorem espera_run {n : Nat} {b' : Contas} (h : Espera (n + 1) d b) (hp : Pedido J url body t)
    (tick : d.depois agora) (hrun : Db.run agora (insertStmts t) d = some d')
    (hseq : d'.seq = d.seq + 1) (hpost : b.post t.idCliente t.entry = some b') :
    Espera n d' b' := by
  obtain ⟨b'', hpost', hrep⟩ := representa_run h.representa hp.tipo hrun
  obtain rfl := Option.some.inj (hpost.symm.trans hpost')
  exact ⟨valida_run h.valida hp hrun, run_ordered h.ordered tick hrun, hrep,
    by have := h.ids; omega⟩

/-- One path. -/
theorem cumpre_percurso {n : Nat} {req : Requisicao} {attempts : List Tentativa} {resp : Resposta}
    (hok : Comum J req) (h : Espera (n + 1) d b) (hx : Percurso J R req attempts resp)
    (hp : Plays (bancoUnico R) d attempts d') :
    Relata (b.cumpre J req).2 resp ∧ Espera n d' (b.cumpre J req).1 := by
  cases hx with
  | semCorpo url =>
    obtain rfl := plays_nil.mp hp
    exact ⟨.badRequest, h.next⟩
  | recusado refused =>
    obtain rfl := plays_nil.mp hp
    rw [cumpre_recusado refused]
    exact ⟨.unprocessable, h.next⟩
  | semConta pedido lido =>
    simp only [plays_asked, plays_nil] at hp
    obtain ⟨rfl, rfl⟩ := hp
    rw [cumpre_semConta (R := R) h.representa pedido lido]
    exact ⟨.unknown, h.next⟩
  | excedido pedido lido limite =>
    simp only [plays_asked, plays_nil] at hp
    obtain ⟨rfl, rfl⟩ := hp
    rw [cumpre_excedido (R := R) h.valida h.representa pedido (hok.cabe rfl pedido).1 lido limite]
    exact ⟨.refused, h.next⟩
  | @enviado url body t r cliente aceito taken =>
    simp only [plays_asked, plays_tried, plays_nil] at hp
    obtain ⟨rfl, rfl, agora, tick, rfl⟩ := hp
    obtain ⟨hv, htext⟩ := hok.cabe rfl aceito.toPedido
    obtain ⟨b', hpost, hb', hrel⟩ := cumpre_aceito (R := R) h.valida h.representa aceito hv
    obtain ⟨d₁, hrun, hseq⟩ :=
      run_aceito (R := R) h.valida aceito hv htext (by have := h.ids; omega)
    have hd₁ : ((bancoUnico R).run agora (insertStmts t) d).getD d = d₁ := by
      show (Db.run agora (insertStmts t) d).getD d = d₁
      rw [hrun, Option.getD_some]
    rw [hb', hd₁]
    exact ⟨hrel, espera_run h aceito.toPedido tick hrun hseq hpost⟩
  | idInvalido agora param =>
    obtain rfl := plays_nil.mp hp
    rw [cumpre_idInvalido param]
    exact ⟨.badRequest, h.next⟩
  | semExtrato agora param lido =>
    simp only [plays_asked, plays_nil] at hp
    obtain ⟨rfl, rfl⟩ := hp
    rw [cumpre_semExtrato (R := R) h.representa param lido]
    exact ⟨.unknown, h.next⟩
  | extrato agora param lido =>
    simp only [plays_asked, plays_nil] at hp
    obtain ⟨rfl, rfl, rfl⟩ := hp
    obtain ⟨c, _, hid, a, hesp, hcumpre, hsaldo, hlimite⟩ :=
      cumpre_extrato (R := R) agora h.valida h.representa param lido
    rw [hcumpre, buildJsonSaldoData_eq, hsaldo, hlimite, ← hid, latest_ultimas h.ordered hesp]
    exact ⟨.statement _ _ _ (relata_rows h.valida.gravadas h.valida.positivas _), h.next⟩

/-- A request does not crash when its queries do not fail. -/
theorem eval_ne_none {req : Requisicao} (corpo : ¬CorpoNulo J req) :
    ¬Eval (bancoUnico R) d (handler J R req) none d' := by
  intro he
  obtain ⟨attempts, hx, hp⟩ := he.path
  cases handler_ends J R hx with
  | corpoNulo hcorpo => exact corpo hcorpo
  | falhou =>
    obtain ⟨hr, _⟩ := plays_asked.mp hp
    cases hr

/-- **One request.** It is answered as the bank does, which then has the accounts that
the tables show. -/
theorem cumpre_request {n : Nat} {req : Requisicao} {o : Option Resposta} (hok : Comum J req)
    (h : Espera (n + 1) d b) (he : Eval (bancoUnico R) d (handler J R req) o d') :
    ∃ resp, o = some resp ∧ Relata (b.cumpre J req).2 resp ∧ Espera n d' (b.cumpre J req).1 := by
  cases o with
  | none => exact absurd he (eval_ne_none hok.corpo)
  | some resp =>
    obtain ⟨attempts, hx, hp⟩ := he.path
    exact ⟨resp, rfl, cumpre_percurso hok h (handler_percurso hx) hp⟩

end

variable {B : Postgres} {J : Jansson} {R : Relogio} {tr : List (Rotulo Unit)} {s : Estado Unit}

/-- The runs of the only client, with a clock that moves on from query to query. -/
abbrev ExecucaoUnicaSql (B : Postgres) (J : Jansson) (R : Relogio) :
    List (Rotulo Unit) → Estado Unit → Prop :=
  Run (B.sobre (bancoUnico R)) (handler J R) (.start Db.init)

theorem execucaoUnicaSql_iff (h : Lidas J tr) :
    ExecucaoUnicaSql B J R tr s ↔ ExecucaoUnica J R tr s :=
  ⟨(B.agree rfl).run (handler_meets J R) h.sent, (B.agree_symm rfl).run (handler_meets J R) h.sent⟩

/-- A credit and an extrato. -/
def creditoEExtrato : List Requisicao → Bool
  | [.post url (some body), .get url' _] => url == ascii "/clientes/1/transacoes" &&
      body == pedidoTexto 10 (ascii "c") (ascii "pix") && url' == ascii "/clientes/1/extrato"
  | _ => false

theorem creditoEExtrato_eq {reqs : List Requisicao} (h : creditoEExtrato reqs = true) :
    ∃ agora, reqs = [.post (ascii "/clientes/1/transacoes")
      (some (pedidoTexto 10 (ascii "c") (ascii "pix"))), .get (ascii "/clientes/1/extrato") agora] := by
  unfold creditoEExtrato at h
  split at h
  · simp only [Bool.and_eq_true, beq_iff_eq] at h
    obtain ⟨⟨rfl, rfl⟩, rfl⟩ := h
    exact ⟨_, rfl⟩
  · cases h

end Crinha
