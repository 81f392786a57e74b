import Crinha.Controller
import Crinha.Pipeline.Commits
import Crinha.Pipeline.Schedule

/-!
# The API processes and their database

What one handler may do (`handler_meets`), and the system of any number of
processes, each with one connection to the same database.
-/

namespace Crinha
open Pipeline CString

/-- The two renderings of a time stamp, by `to_char` and by `strftime`. -/
structure Relogio where
  toChar : Nat → Bytes
  isoStr : Nat → Bytes
  toChar_ascii : ∀ t, ∀ b ∈ toChar t, 0 < b.toNat ∧ b.toNat < 0x80
  isoStr_ascii : ∀ t, ∀ b ∈ isoStr t, 0 < b.toNat ∧ b.toNat < 0x80

/-- A clock that stands still. -/
def Relogio.parado : Relogio where
  toChar := fun _ => ascii "2024-03-01T00:00:00.000000Z"
  isoStr := fun _ => ascii "2024-03-01T00:00:00.000000Z"
  toChar_ascii := fun _ => by decide +kernel
  isoStr_ascii := fun _ => by decide +kernel

/-- A routed request; a GET with the time at which its extrato is built. -/
inductive Requisicao where
  | post (url : Bytes) (body : Option Bytes)
  | get (url : Bytes) (agora : Nat)
  deriving DecidableEq

def handler (J : Jansson) (R : Relogio) : Requisicao → DbProg Resposta
  | .post url body => clienteControllerSaveTransacao J url body
  | .get url agora => clienteControllerFindById url (R.isoStr agora)

/-- `current_timestamp` may be anything. -/
def banco (R : Relogio) : Store Db Consulta (Option DBResultSet) (List Stmt) Nat where
  answer := Db.answer R.toChar
  run := Db.run
  tick := fun _ _ => True

instance (R : Relogio) (d : Db) (t : Nat) : Decidable ((banco R).tick d t) :=
  inferInstanceAs (Decidable True)

abbrev Rotulo (P : Type) :=
  Label P Db Consulta (Option DBResultSet) (List Stmt) Resposta Requisicao

abbrev Estado (P : Type) :=
  State P Db Consulta (Option DBResultSet) (List Stmt) Resposta Requisicao

/-- The runs of the processes `P` from the tables of `init.sql`. -/
abbrev Execucao {P : Type} [DecidableEq P] (J : Jansson) (R : Relogio) :
    List (Rotulo P) → Estado P → Prop :=
  Run (banco R) (handler J R) (.start Db.init)

/-- **The drain of `db_execute_async`.** On connections that refuse a query while another is in
progress, no query of the processes is refused, and they do the same. -/
theorem execucao_conn {P : Type} [DecidableEq P] {J : Jansson} {R : Relogio}
    {tr : List (Rotulo P)} :
    (∀ s p n req query k,
      ConnRun (banco R) (fun req => (handler J R req).draining) (.start Db.init) tr s →
      (s.client p).job = some ⟨n, req, .send query k⟩ → (s.client p).inFlight = []) ∧
    ∀ d, (∃ s, ConnRun (banco R) (fun req => (handler J R req).draining) (.start Db.init) tr s ∧
      s.store = d) ↔ ∃ s, Execucao J R tr s ∧ s.store = d :=
  ⟨fun _ _ _ _ _ _ h running => h.not_refused running, fun _ => connRun_iff⟩

abbrev Ato := Act Consulta (Option DBResultSet) (List Stmt)

/-! ## What a request asks for -/

/-- `transacao` is what the body of a request to `url` asks for, and passes the
checks of its fields. -/
structure Pedido (J : Jansson) (url body : Bytes) (transacao : Transacao) : Prop where
  param : isIdClienteValido (extractUrlParam url) = true
  campos : camposValidos (jsonObjectGet (J.loads body) "descricao")
    (jsonObjectGet (J.loads body) "tipo") (jsonObjectGet (J.loads body) "valor") = some true
  montada : transacao = novaTransacao (atoi (extractUrlParam url))
    (jsonObjectGet (J.loads body) "descricao") (jsonObjectGet (J.loads body) "tipo")
    (jsonObjectGet (J.loads body) "valor")

/-- The request also finds its client and does not exceed the limit, going by `r`. -/
structure Aceito (J : Jansson) (url body : Bytes) (r : Option DBResultSet) (cliente : Cliente)
    (transacao : Transacao) : Prop extends Pedido J url body transacao where
  lido : (firstRecord r).map clienteDe = some cliente
  limite : isLimiteExcedido cliente transacao = false

section
variable {J : Jansson} {url body : Bytes} {t : Transacao}

theorem isDescricaoTransacaoValida_iff {descricao : Option Bytes} :
    isDescricaoTransacaoValida descricao = true ↔
      ∃ s, descricao = some s ∧ 1 ≤ Utf8.charLength s ∧ Utf8.charLength s ≤ 10 := by
  cases descricao <;>
    simp [isDescricaoTransacaoValida, stringUtilUtf8Strlen_eq, transacaoDescricaoLen]

theorem camposValidos_iff {jsonDescricao jsonTipo jsonValor : Option Json} :
    camposValidos jsonDescricao jsonTipo jsonValor = some true ↔
    (∃ s, jsonStringValue jsonDescricao = some s ∧ 1 ≤ Utf8.charLength s ∧ Utf8.charLength s ≤ 10) ∧
    (jsonStringValue jsonTipo = some [99] ∨ jsonStringValue jsonTipo = some [100]) ∧
    (∃ v, jsonValor = some (.integer v) ∧ 0 < v) := by
  have ht : isTipoTransacaoValido (jsonStringValue jsonTipo) = some true ↔
      jsonStringValue jsonTipo = some [99] ∨ jsonStringValue jsonTipo = some [100] := by
    rcases jsonStringValue jsonTipo with _ | _ | ⟨b, _ | ⟨_, _⟩⟩ <;> simp [isTipoTransacaoValido]
  have hv :
      (jsonIsInteger jsonValor && isValorTransacaoValido (jsonIntegerValue jsonValor)) = true ↔
      ∃ v, jsonValor = some (.integer v) ∧ 0 < v := by
    rcases jsonValor with _ | v
    · simp [jsonIsInteger]
    · cases v <;> simp [jsonIsInteger, jsonIntegerValue, isValorTransacaoValido]
      exact decide_eq_true_iff
  rw [← isDescricaoTransacaoValida_iff, ← ht, ← hv]
  unfold camposValidos
  cases isDescricaoTransacaoValida (jsonStringValue jsonDescricao) <;>
    cases isTipoTransacaoValido (jsonStringValue jsonTipo) <;> simp [Bool.and_assoc]

theorem Pedido.tipo (h : Pedido J url body t) : t.tipo = [99] ∨ t.tipo = [100] := by
  obtain ⟨_, ht, _⟩ := camposValidos_iff.mp h.campos
  rw [h.montada]
  rcases ht with ht | ht <;> simp only [novaTransacao, ht, Option.getD_some]
  · exact .inl (by decide)
  · exact .inr (by decide)

/-- The amount is the one of the body. -/
theorem Pedido.valor (h : Pedido J url body t) :
    jsonObjectGet (J.loads body) "valor" = some (.integer t.valor) ∧ 0 < t.valor := by
  obtain ⟨_, _, v, hv, hpos⟩ := camposValidos_iff.mp h.campos
  rw [h.montada]
  simpa only [novaTransacao, hv, jsonIntegerValue] using ⟨trivial, hpos⟩

theorem Pedido.valor_pos (h : Pedido J url body t) : 0 < t.valor.toInt :=
  Int64.lt_iff_toInt_lt.mp h.valor.2

/-- The description is the one of the body, cut after twenty bytes. -/
theorem Pedido.descricao (h : Pedido J url body t) :
    ∃ s, jsonStringValue (jsonObjectGet (J.loads body) "descricao") = some s ∧
      Utf8.valid s = true ∧ 0 ∉ s ∧ 1 ≤ Utf8.charLength s ∧ Utf8.charLength s ≤ 10 ∧
      t.descricao = s.take 20 := by
  obtain ⟨⟨s, hs, hlo, hhi⟩, _⟩ := camposValidos_iff.mp h.campos
  obtain ⟨json, hjson⟩ : ∃ json, J.loads body = some json := by
    cases hl : J.loads body with
    | none => simp [hl, jsonObjectGet, jsonStringValue] at hs
    | some json => exact ⟨json, rfl⟩
  obtain ⟨hv, hn⟩ := J.text hjson (by rw [← hjson]; exact hs)
  refine ⟨s, hs, hv, hn, hlo, hhi, ?_⟩
  rw [h.montada]
  simp only [novaTransacao, hs, Option.getD_some]
  exact copied_eq _ hn

end

/-! ## What a handler may do -/

/-- The acts of a request whose query is handed over. -/
def enviar (r : Option DBResultSet) (t : Transacao) : List Ato :=
  [.asked (.cliente t.idCliente) r, .sent (insertStmts t)]

/-- What a request has done when it sends. -/
def Envia (J : Jansson) : Requisicao → List Ato → Prop
  | .post url body, acts => ∃ body' r cliente t, body = some body' ∧
      Aceito J url body' r cliente t ∧ acts = enviar r t
  | .get .., _ => False

/-- What a request has done when it answers. -/
def Responde (J : Jansson) (R : Relogio) : Requisicao → List Ato → Resposta → Prop
  | .post url body, acts, resp =>
      (∃ body' r cliente t, body = some body' ∧ Aceito J url body' r cliente t ∧
        acts = enviar r t ∧ resp = .ok (buildJsonSaldo (updateSaldoCliente cliente t))) ∨
      resp.status ≠ 200 ∧ acts.filterMap Act.sent? = []
  | .get url agora, acts, resp => acts.filterMap Act.sent? = [] ∧ (resp.status ≠ 200 ∨
      ∃ r r' cliente transacoes, (firstRecord r).map clienteDe = some cliente ∧
        acts = [.asked (.cliente (atoi (extractUrlParam url))) r,
          .asked (.ultimas (atoi (extractUrlParam url))) r'] ∧
        resp = .ok (buildJsonExtrato (buildJsonSaldoData (R.isoStr agora) cliente) transacoes))

section
variable {pre : List Ato → Prop} {past : List Ato}

theorem clienteServiceFindOne_meets (id : Nat) :
    (clienteServiceFindOne id).Meets pre
      (fun acts a => ∃ r, acts = past ++ [.asked (.cliente id) r] ∧
        a = (firstRecord r).map clienteDe) past := by
  intro r
  cases r with
  | none => exact trivial
  | some r => exact ⟨_, rfl, rfl⟩

theorem transacaoServiceSaveAsync_meets {t : Transacao}
    (h : pre (past ++ [.sent (insertStmts t)])) :
    (transacaoServiceSaveAsync t).Meets pre
      (fun acts ret => acts = past ++ if ret then [.sent (insertStmts t)] else []) past :=
  ⟨h, rfl, by simp [Prog.Meets]⟩

theorem transacaoServiceFindLast10_meets (id : Nat) :
    (transacaoServiceFindLast10 id).Meets pre
      (fun acts _ => ∃ r, acts = past ++ [.asked (.ultimas id) r]) past := by
  intro r
  cases r with
  | none => exact ⟨_, rfl⟩
  | some r => exact ⟨_, rfl⟩

end

variable (J : Jansson) (R : Relogio)

theorem saveTransacao_meets (url : Bytes) (body : Option Bytes) :
    (clienteControllerSaveTransacao J url body).Meets (Envia J (.post url body))
      (Responde J R (.post url body)) [] := by
  cases body with
  | none => exact .inr ⟨by decide, rfl⟩
  | some body =>
    unfold clienteControllerSaveTransacao
    simp only
    split
    · exact .inr ⟨by decide, rfl⟩
    · rename_i hparam
      split
      · exact trivial
      · exact .inr ⟨by decide, rfl⟩
      · rename_i hcampos
        have pedido : Pedido J url body _ := ⟨by simpa using hparam, hcampos, rfl⟩
        refine Prog.Meets.bind (clienteServiceFindOne_meets _) ?_
        rintro acts cliente ⟨r, rfl, hr⟩
        cases cliente with
        | none => exact .inr ⟨by decide, rfl⟩
        | some cliente =>
          simp only
          split
          · exact .inr ⟨by decide, rfl⟩
          · rename_i hlimite
            have aceito : Aceito J url body r cliente _ := ⟨pedido, hr.symm, by simpa using hlimite⟩
            refine Prog.Meets.bind
              (transacaoServiceSaveAsync_meets ⟨body, r, cliente, _, rfl, aceito, rfl⟩) ?_
            rintro acts ret rfl
            cases ret with
            | true => exact .inl ⟨body, r, cliente, _, rfl, aceito, rfl, rfl⟩
            | false => exact .inr ⟨by decide, rfl⟩

theorem findById_meets (url : Bytes) (agora : Nat) :
    (clienteControllerFindById url (R.isoStr agora)).Meets (Envia J (.get url agora))
      (Responde J R (.get url agora)) [] := by
  unfold clienteControllerFindById
  simp only
  split
  · refine Prog.Meets.bind (clienteServiceFindOne_meets _) ?_
    rintro acts cliente ⟨r, rfl, hr⟩
    cases cliente with
    | none => exact ⟨rfl, .inl (by decide)⟩
    | some cliente =>
      refine Prog.Meets.bind (transacaoServiceFindLast10_meets _) ?_
      rintro acts transacoes ⟨r', rfl⟩
      exact ⟨rfl, .inr ⟨r, r', cliente, _, hr.symm, rfl, rfl⟩⟩
  · exact ⟨rfl, .inl (by decide)⟩

/-- A POST reads its client and sends at most the one query it was accepted for,
and reports the new saldo only if it sent; a GET sends nothing. -/
theorem handler_meets (req : Requisicao) :
    (handler J R req).Meets (Envia J req) (Responde J R req) [] := by
  cases req with
  | post url body => exact saveTransacao_meets J R url body
  | get url agora => exact findById_meets J R url agora

variable {P : Type} [DecidableEq P] {J R} {tr : List (Rotulo P)} {s : Estado P}

/-- A computed schedule of the processes is one of their runs. -/
theorem execucao_of_play (J : Jansson) (R : Relogio) (ms : List (Move P Requisicao Nat))
    (p : List (Rotulo P) → Estado P → Bool)
    (h : ((State.start Db.init).play (banco R) (handler J R) ms).map (fun r => p r.1 r.2) =
      some true) : ∃ tr s, Execucao J R tr s ∧ p tr s = true :=
  exists_run_of_play ms p h

theorem track (h : Execucao J R tr s) : Track (Envia J) (Responde J R) tr s :=
  run_track (handler_meets J R) h

theorem answered {p : P} {n : Nat} {req : Requisicao} {resp : Resposta} (h : Execucao J R tr s)
    (ha : ⟨p, n, .accept req⟩ ∈ tr) (hr : ⟨p, n, .answer resp⟩ ∈ tr) :
    Responde J R req (actsOf tr p n) resp := by
  obtain ⟨req', ha', hpost⟩ := (track h).answered hr
  rwa [((track h).accepted ha ha').2]

/-- A POST answered 200 read its client and sent the query of its transaction. -/
theorem answered_ok {p : P} {n : Nat} {url : Bytes} {body : Option Bytes} {resp : Resposta}
    (h : Execucao J R tr s) (ha : ⟨p, n, .accept (.post url body)⟩ ∈ tr)
    (hr : ⟨p, n, .answer resp⟩ ∈ tr) (ok : resp.status = 200) :
    ∃ body' r cliente t, body = some body' ∧ Aceito J url body' r cliente t ∧
      actsOf tr p n = enviar r t ∧ resp = .ok (buildJsonSaldo (updateSaldoCliente cliente t)) := by
  rcases answered h ha hr with he | ⟨hn, _⟩
  · exact he
  · exact absurd ok hn

/-- A request answered otherwise sent nothing. -/
theorem answered_refused {p : P} {n : Nat} {resp : Resposta} (h : Execucao J R tr s)
    (hr : ⟨p, n, .answer resp⟩ ∈ tr) (refused : resp.status ≠ 200) :
    (actsOf tr p n).filterMap Act.sent? = [] := by
  obtain ⟨req, ha, hpost⟩ := (track h).answered hr
  cases req with
  | post url body =>
    rcases hpost with ⟨_, _, _, _, _, _, _, rfl⟩ | ⟨_, hn⟩
    · exact absurd rfl refused
    · exact hn
  | get url agora => exact hpost.1

end Crinha
