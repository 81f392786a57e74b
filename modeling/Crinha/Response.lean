import Crinha.CurrentTime
import Crinha.JsonText
import Crinha.Listing

/-!
# The text of a response

* `response_fits`: every 200 and its NUL fit the static buffer of its handler.
-/

namespace Crinha
open Pipeline CString Decimal

def maxBufferFindById : Nat := 2048
def maxBufferTransacaoSave : Nat := 256

/-- A `size_t` printed by `%d`: its low 32 bits, as an `int`. -/
def intArg (n : Nat) : Int := (Int32.ofNat n).toInt

def templateResponseHttp200Json (len : Nat) (json : Bytes) : Bytes :=
  [ascii "HTTP/1.1 200 OK\r\n", ascii "Content-Type: application/json; charset=utf-8\r\n",
    ascii "Content-Length: ", showInt (intArg len), ascii "\r\n\r\n", json].flatten

/-- What is sent for a response. -/
def Resposta.text : Resposta → Bytes
  | badRequest => ascii "HTTP/1.1 400 Bad Request\r\n\r\n"
  | notFound => ascii "HTTP/1.1 404 Not Found\r\n\r\n"
  | unprocessableEntity => ascii "HTTP/1.1 422 Unprocessable Entity/Content\r\n\r\n"
  | ok json =>
    let buffer := cstr (jsonDumps json)
    templateResponseHttp200Json buffer.length buffer

/-- What `sprintf` stores for a response, with its NUL. -/
def Resposta.stored (resp : Resposta) : Bytes := resp.text ++ [0]

/-! ## Reading a response -/

/-- What follows the first `mark`. -/
def after (mark : Bytes) : Bytes → Option Bytes
  | [] => none
  | b :: text =>
    if mark.isPrefixOf (b :: text) then some ((b :: text).drop mark.length) else after mark text

theorem after_skip {m : UInt8} (mark rest : Bytes) :
    ∀ {text : Bytes}, m ∉ text → after (m :: mark) (text ++ rest) = after (m :: mark) rest
  | [], _ => rfl
  | b :: text, h => by
    have hb : (m == b) = false := by
      simpa using (List.ne_of_not_mem_cons h)
    rw [List.cons_append, after, List.isPrefixOf, hb, Bool.false_and, if_neg (by decide)]
    exact after_skip mark rest (List.not_mem_of_not_mem_cons h)

theorem after_here (m : UInt8) (mark rest : Bytes) :
    after (m :: mark) (m :: mark ++ rest) = some rest := by
  have hp : (m :: mark).isPrefixOf (m :: mark ++ rest) = true :=
    List.isPrefixOf_iff_prefix.mpr (List.prefix_append _ _)
  rw [List.cons_append] at hp ⊢
  rw [after, if_pos hp]
  simp

/-- The text after the blank line. -/
def Resposta.body (resp : Resposta) : Option Bytes := after (ascii "\r\n\r\n") resp.text

def Resposta.contentLength (resp : Resposta) : Option Int :=
  (after (ascii "Content-Length: ") resp.text).map parseInt

/-- Every response names its status. -/
theorem status_prefix (resp : Resposta) :
    ascii "HTTP/1.1 " ++ showNat resp.status <+: resp.text := by
  cases resp with
  | badRequest => exact List.isPrefixOf_iff_prefix.mp (by decide +kernel)
  | notFound => exact List.isPrefixOf_iff_prefix.mp (by decide +kernel)
  | unprocessableEntity => exact List.isPrefixOf_iff_prefix.mp (by decide +kernel)
  | ok json =>
    have hline : ascii "HTTP/1.1 " ++ showNat 200 <+: ascii "HTTP/1.1 200 OK\r\n" :=
      List.isPrefixOf_iff_prefix.mp (by decide +kernel)
    rw [Resposta.status, Resposta.text, templateResponseHttp200Json, List.flatten_cons]
    exact hline.trans (List.prefix_append _ _)

section
variable {json : Json}

theorem intArg_eq {n : Nat} (h : n < 2 ^ 31) : intArg n = n := Int32.toInt_ofNat_of_lt h

theorem cstr_jsonDumps (json : Json) : cstr (jsonDumps json) = jsonDumps json :=
  cstr_of_noNul (val_ne_of_noNul (noNul_jsonDumps json))

theorem text_ok (h : (jsonDumps json).length < 2 ^ 31) :
    (Resposta.ok json).text = ascii "HTTP/1.1 200 OK\r\n" ++
      (ascii "Content-Type: application/json; charset=utf-8\r\n" ++ (ascii "Content-Length: " ++
        (showNat (jsonDumps json).length ++ (ascii "\r\n\r\n" ++ jsonDumps json)))) := by
  have hlen : showInt (intArg (jsonDumps json).length) = showNat (jsonDumps json).length := by
    rw [intArg_eq h, showInt, if_neg (by omega), Int.natAbs_natCast]
  simp only [Resposta.text, templateResponseHttp200Json, cstr_jsonDumps, hlen, List.flatten_cons,
    List.flatten_nil, List.append_nil]

/-- The number and the text are those of the JSON, if its length is an `int`. -/
theorem framed (h : (jsonDumps json).length < 2 ^ 31) :
    (Resposta.ok json).body = some (jsonDumps json) ∧
    (Resposta.ok json).contentLength = some ((jsonDumps json).length : Int) := by
  constructor
  · have hdigits : (13 : UInt8) ∉ showNat (jsonDumps json).length := by
      intro hm
      have hd := isDigit_of_mem_showNat hm
      revert hd
      decide
    have hhead : after (ascii "\r\n\r\n") (Resposta.ok json).text = after (ascii "\r\n\r\n")
        (showNat (jsonDumps json).length ++ (ascii "\r\n\r\n" ++ jsonDumps json)) := by
      rw [text_ok h]
      rfl
    rw [Resposta.body, hhead]
    exact (after_skip _ _ hdigits).trans (after_here _ _ _)
  · have hhead : after (ascii "Content-Length: ") (Resposta.ok json).text =
        some (showNat (jsonDumps json).length ++ (ascii "\r\n\r\n" ++ jsonDumps json)) := by
      rw [text_ok h]
      rfl
    rw [Resposta.contentLength, hhead, Option.map_some]
    exact congrArg some (parseInt_showNat_append _ (by decide) _)

/-- A 200 with a JSON text of at most `n` bytes, and its NUL. -/
theorem length_stored_le {n k : Nat} (hk : 0 < k) (hn : n < 10 ^ k) (hi : n < 2 ^ 31)
    (h : (jsonDumps json).length ≤ n) : (Resposta.ok json).stored.length ≤ n + k + 85 := by
  have hdigits := length_showNat_le hk (Nat.lt_of_le_of_lt h hn)
  have hhead : (ascii "HTTP/1.1 200 OK\r\n").length = 17 ∧
      (ascii "Content-Type: application/json; charset=utf-8\r\n").length = 47 ∧
      (ascii "Content-Length: ").length = 16 ∧ (ascii "\r\n\r\n").length = 4 := by
    decide
  rw [Resposta.stored, text_ok (by omega)]
  simp only [List.length_append, List.length_cons, List.length_nil]
  omega

end

/-! ## How long the texts are -/

/-- A row that is short when it is printed. -/
structure TransacaoRow.Curta (toChar : Nat → Bytes) (r : TransacaoRow) : Prop where
  codePoints : Utf8.charLength r.descricao ≤ 10
  length : (toChar r.realizadaEm).length = 27
  hora : ∀ b ∈ toChar r.realizadaEm, isHora b = true

def Db.Curtas (toChar : Nat → Bytes) (d : Db) : Prop := ∀ r ∈ d.transacao, r.Curta toChar

theorem copied_sublist (ori : Bytes) (len : Nat) : (copied ori len).Sublist ori := by
  rw [copied, cstr_strzcpy]
  exact (List.take_sublist _ _).trans (List.takeWhile_sublist _)

theorem length_copied_le (ori : Bytes) (len : Nat) : (copied ori len).length ≤ len := by
  rw [copied, cstr_strzcpy]
  exact List.length_take_le _ _

theorem escapeByte_hora {b : UInt8} (h : isHora b = true) : escapeByte b = [b] := by
  revert b
  apply forall_byte
  decide +kernel

section
variable {toChar : Nat → Bytes} {r : TransacaoRow} {json : Json}

theorem length_buildJsonTransacao_le {t : Transacao} (h : buildJsonTransacao t = some json) :
    (jsonDumps json).length ≤ 58 + (quoted t.tipo).length + (quoted t.descricao).length +
      (quoted t.realizadaEm).length := by
  have hvalor := length_packInt_le t.valor
  have hkeys : (quoted (ascii "valor")).length = 7 ∧ (quoted (ascii "tipo")).length = 6 ∧
      (quoted (ascii "descricao")).length = 11 ∧ (quoted (ascii "realizada_em")).length = 14 := by
    decide +kernel
  rw [buildJsonTransacao_eq_some h]
  simp only [jsonDumps, dumpMembers, separated, List.length_cons, List.length_append,
    List.length_nil]
  omega

/-- Twenty bytes of ten characters are 72 at most, with their quotes. -/
theorem length_descricao_le (h : r.Curta toChar) :
    (quoted (transacaoDe (r.record toChar)).descricao).length ≤ 72 := by
  have hq := length_quoted_le (transacaoDe (r.record toChar)).descricao
  have hlen : (transacaoDe (r.record toChar)).descricao.length ≤ 20 := length_copied_le _ _
  have hchars : Utf8.charLength (transacaoDe (r.record toChar)).descricao ≤
      Utf8.charLength r.descricao := (copied_sublist r.descricao _).countP_le
  have hcodePoints := h.codePoints
  omega

theorem length_transacao_le (h : r.Curta toChar)
    (hjson : buildJsonTransacao (transacaoDe (r.record toChar)) = some json) :
    (jsonDumps json).length ≤ 167 := by
  have hall := length_buildJsonTransacao_le hjson
  have hdescricao := length_descricao_le h
  have htipo : (quoted (transacaoDe (r.record toChar)).tipo).length ≤ 8 := by
    have hq := length_quoted_le (transacaoDe (r.record toChar)).tipo
    have hlen : (transacaoDe (r.record toChar)).tipo.length ≤ 1 := length_copied_le _ _
    have hchars : Utf8.charLength (transacaoDe (r.record toChar)).tipo ≤
        (transacaoDe (r.record toChar)).tipo.length := List.countP_le_length
    omega
  have hrealizadaEm : (quoted (transacaoDe (r.record toChar)).realizadaEm).length ≤ 29 := by
    have hsub : (transacaoDe (r.record toChar)).realizadaEm.Sublist (toChar r.realizadaEm) :=
      copied_sublist _ _
    have hlen := hsub.length_le
    rw [h.length] at hlen
    rw [length_quoted fun b hb => escapeByte_hora (h.hora b (hsub.subset hb))]
    omega
  omega

/-- Ten rows. -/
theorem length_transacoes_le {d : Db} (hd : d.Curtas toChar) (id : Nat) :
    (jsonDumps (buildJsonTransacoes (listadas (d.answer toChar (.ultimas id))))).length ≤ 1682 := by
  have hlist : listadas (d.answer toChar (.ultimas id)) =
      (d.ultimas id).map fun r => transacaoDe (r.record toChar) := List.map_map
  have hten : (d.ultimas id).length ≤ 10 := List.length_take_le _ _
  rw [buildJsonTransacoes, hlist, List.filterMap_map]
  have hitems : ∀ json ∈ (d.ultimas id).filterMap
      (buildJsonTransacao ∘ fun r => transacaoDe (r.record toChar)),
      (jsonDumps json).length ≤ 167 := by
    intro json hm
    obtain ⟨r, hr, hjson⟩ := List.mem_filterMap.mp hm
    exact length_transacao_le (hd r (mem_ultimas hr).1) hjson
  have harray := length_array_le hitems
  have hcount := List.length_filterMap_le
    (buildJsonTransacao ∘ fun r => transacaoDe (r.record toChar)) (d.ultimas id)
  omega

theorem length_saldo_le (cliente : Cliente) : (jsonDumps (buildJsonSaldo cliente)).length ≤ 42 := by
  have hlimite := length_packInt_le cliente.limite
  have hsaldo := length_packInt_le cliente.saldo
  have hkeys : (quoted (ascii "limite")).length = 8 ∧ (quoted (ascii "saldo")).length = 7 := by
    decide +kernel
  simp only [buildJsonSaldo, jsonDumps, dumpMembers, separated, List.length_cons,
    List.length_append, List.length_nil]
  omega

theorem length_saldoData_le {data : Bytes} (hlen : data.length < maxBufferDateTimeIsoStr)
    (hhora : ∀ b ∈ data, isHora b = true) (cliente : Cliente) :
    (jsonDumps ((buildJsonSaldoData data cliente).getD .null)).length ≤ 123 := by
  have htotal := length_packInt_le cliente.saldo
  have hlimite := length_packInt_le cliente.limite
  have hkeys : (quoted (ascii "total")).length = 7 ∧ (quoted (ascii "data_extrato")).length = 14 ∧
      (quoted (ascii "limite")).length = 8 := by decide +kernel
  have hdata := length_quoted fun b hb => escapeByte_hora (hhora b hb)
  rw [maxBufferDateTimeIsoStr] at hlen
  cases hjson : packStr data with
  | none =>
    rw [buildJsonSaldoData, hjson]
    show (ascii "null").length ≤ 123
    decide
  | some json =>
    rw [packStr_eq_some hjson] at hjson
    simp only [buildJsonSaldoData, hjson, Option.bind_eq_bind, Option.bind_some, Option.pure_def,
      Option.getD_some, jsonDumps, dumpMembers, separated, List.length_cons, List.length_append,
      List.length_nil]
    omega

theorem length_extrato (jsonSaldo jsonTransacoes : Option Json) :
    (jsonDumps (buildJsonExtrato jsonSaldo jsonTransacoes)).length =
      (jsonDumps (jsonSaldo.getD .null)).length + (jsonDumps (jsonTransacoes.getD .null)).length +
        32 := by
  have hkeys : (quoted (ascii "saldo")).length = 7 ∧
      (quoted (ascii "ultimas_transacoes")).length = 20 := by decide +kernel
  simp only [buildJsonExtrato, jsonDumps, dumpMembers, separated, List.length_cons,
    List.length_append, List.length_nil]
  omega

end

/-! ## The responses of the handlers -/

/-- A 200 that fits a buffer of `size` bytes and is framed as it should be. -/
structure Enquadrada (size : Nat) (json : Json) : Prop where
  fits : (Resposta.ok json).stored.length ≤ size
  body : (Resposta.ok json).body = some (jsonDumps json)
  contentLength : (Resposta.ok json).contentLength = some ((jsonDumps json).length : Int)

theorem Enquadrada.of_length {json : Json} {n : Nat} (h : (jsonDumps json).length ≤ n) (k : Nat)
    (hk : 0 < k) (hn : n < 10 ^ k) (hi : n < 2 ^ 31) : Enquadrada (n + k + 85) json := by
  obtain ⟨hbody, hlen⟩ := framed (Nat.lt_of_le_of_lt h hi)
  exact ⟨length_stored_le hk hn hi h, hbody, hlen⟩

theorem Enquadrada.mono {json : Json} {n size : Nat} (h : Enquadrada n json) (hle : n ≤ size) :
    Enquadrada size json :=
  ⟨h.fits.trans hle, h.body, h.contentLength⟩

section
variable {past attempts : List Tentativa} {toChar : Nat → Bytes} {localtime : Nat → Tm}
  {t tval : Nat} {json : Json}

theorem enquadrada_saldo (cliente : Cliente) :
    Enquadrada maxBufferTransacaoSave (buildJsonSaldo cliente) := by
  have h := Enquadrada.of_length (length_saldo_le cliente) 2 (by decide) (by decide) (by decide)
  exact h.mono (by decide)

theorem enquadrada_extrato {d : Db} (hd : d.Curtas toChar) (cliente : Cliente) (id : Nat) :
    Enquadrada maxBufferFindById (buildJsonExtrato
      (buildJsonSaldoData (getCurrentTimeAsIsoStr localtime t tval) cliente)
      (some (buildJsonTransacoes (listadas (d.answer toChar (.ultimas id)))))) := by
  have hsize : (getCurrentTimeAsIsoStr localtime t tval).length < maxBufferDateTimeIsoStr :=
    length_getCurrentTime
  have hsaldo := length_saldoData_le hsize isHora_getCurrentTime cliente
  have htransacoes := length_transacoes_le hd id
  have hall := length_extrato
    (buildJsonSaldoData (getCurrentTimeAsIsoStr localtime t tval) cliente)
    (some (buildJsonTransacoes (listadas (d.answer toChar (.ultimas id)))))
  rw [Option.getD_some] at hall
  have hlen : (jsonDumps (buildJsonExtrato
      (buildJsonSaldoData (getCurrentTimeAsIsoStr localtime t tval) cliente)
      (some (buildJsonTransacoes (listadas (d.answer toChar (.ultimas id))))))).length ≤ 1837 := by
    omega
  have h := Enquadrada.of_length hlen 4 (by decide) (by decide) (by decide)
  exact h.mono (by decide)

/-- The JSON of an accepted transaction. -/
theorem saveTransacao_json {J : Jansson} {url : Bytes} {body : Option Bytes}
    (h : (clienteControllerSaveTransacao J url body).Exec attempts (some (.ok json))) :
    ∃ cliente, json = buildJsonSaldo cliente := by
  rcases (saveTransacao_meets J .parado url body).exec h with
    ⟨_, _, cliente, t, _, _, _, hjson⟩ | ⟨refused, _⟩
  · exact ⟨_, Resposta.ok.inj hjson⟩
  · exact absurd rfl refused

/-- **Every 200 fits its buffer**, with its NUL, and its `Content-Length` is the length of
the JSON after the blank line, however the reads of the client are answered and whatever
short rows are listed. -/
theorem response_fits (J : Jansson) (url : Bytes) (body : Option Bytes) (toChar : Nat → Bytes)
    (localtime : Nat → Tm) (t tval : Nat) :
    ((clienteControllerFindById url (getCurrentTimeAsIsoStr localtime t tval)).Exec attempts
        (some (.ok json)) →
      (∀ id resultSet, .asked (.ultimas id) (some resultSet) ∈ attempts →
        ∃ d : Db, d.Curtas toChar ∧ d.answer toChar (.ultimas id) = some resultSet) →
      Enquadrada maxBufferFindById json) ∧
    ((clienteControllerSaveTransacao J url body).Exec attempts (some (.ok json)) →
      Enquadrada maxBufferTransacaoSave json) := by
  constructor
  · intro h hcurtas
    obtain ⟨cliente, r, hread, rfl⟩ := findById_json h
    cases r with
    | none =>
      have hd : (⟨[], [], 0⟩ : Db).Curtas toChar := fun r hr => absurd hr List.not_mem_nil
      exact enquadrada_extrato hd cliente (atoi (extractUrlParam url))
    | some resultSet =>
      obtain ⟨d, hd, hanswer⟩ := hcurtas _ resultSet ((hread _ _).mpr ⟨rfl, rfl⟩)
      rw [← hanswer]
      exact enquadrada_extrato hd cliente _
  · intro h
    obtain ⟨cliente, rfl⟩ := saveTransacao_json h
    exact enquadrada_saldo cliente

end

/-- Ten rows whose descriptions are ten control characters. -/
def Db.dezLinhas : Db where
  cliente := [⟨1, 9223372036854775807, -9223372036854775808⟩]
  transacao := List.replicate 10 ⟨1, 1, 2147483647, [100], List.replicate 10 1, 0⟩
  seq := 10

theorem response_fits_dezLinhas :
    (∃ attempts json, (clienteControllerFindById (ascii "/clientes/1/extrato")
        (getCurrentTimeAsIsoStr (fun _ => .marco) 12900000 13050000)).Exec attempts
          (some (.ok json)) ∧ Enquadrada maxBufferFindById json) ∧
    ∃ J attempts json, (clienteControllerSaveTransacao J (ascii "/clientes/1/transacoes")
        (some (pedidoTexto 10 (ascii "c") (ascii "pix")))).Exec attempts (some (.ok json)) ∧
      Enquadrada maxBufferTransacaoSave json := by
  have hd : Db.dezLinhas.Curtas Relogio.parado.toChar := by
    intro r hr
    obtain rfl := List.eq_of_mem_replicate hr
    exact ⟨by decide, by decide, List.all_eq_true.mp rfl⟩
  constructor
  · obtain ⟨json, h⟩ : ∃ json, (clienteControllerFindById (ascii "/clientes/1/extrato")
        (getCurrentTimeAsIsoStr (fun _ => .marco) 12900000 13050000)).Exec
        [.asked (.cliente 1) (Db.dezLinhas.answer Relogio.parado.toChar (.cliente 1)),
          .asked (.ultimas 1) (Db.dezLinhas.answer Relogio.parado.toChar (.ultimas 1))]
        (some (.ok json)) := ⟨_, .query (.query (.done _))⟩
    refine ⟨_, json, h, ?_⟩
    apply (response_fits (.pedido 10 (ascii "c") (ascii "pix") (by decide))
      (ascii "/clientes/1/extrato") none Relogio.parado.toChar (fun _ => .marco) 12900000
      13050000).1 h
    intro id resultSet hm
    obtain ⟨rfl, hanswer⟩ : id = 1 ∧ some resultSet =
        Db.dezLinhas.answer Relogio.parado.toChar (.ultimas 1) := by simpa using hm
    exact ⟨Db.dezLinhas, hd, hanswer.symm⟩
  · obtain ⟨attempts, json, h⟩ : ∃ attempts json, (clienteControllerSaveTransacao
        (.pedido 10 (ascii "c") (ascii "pix") (by decide)) (ascii "/clientes/1/transacoes")
        (some (pedidoTexto 10 (ascii "c") (ascii "pix")))).Exec attempts (some (.ok json)) := by
      exact ⟨[.asked (.cliente 1) (Db.init.answer Relogio.parado.toChar (.cliente 1)),
        .tried _ true], _, .query (.send (.done _))⟩
    exact ⟨_, attempts, json, h,
      (response_fits _ _ _ Relogio.parado.toChar (fun _ => .marco) 0 0).2 h⟩

/-! ## Responses in a run -/

section
variable {J : Jansson} {url body : Bytes} {t : Transacao} {toChar : Nat → Bytes} {d d' : Db}
  {agora : Nat}

theorem curtas_run (hora : ∀ x, (toChar x).length = 27 ∧ ∀ b ∈ toChar x, isHora b = true)
    (hd : d.Curtas toChar) (hp : Pedido J url body t)
    (h : Db.run agora (insertStmts t) d = some d') : d'.Curtas toChar := by
  obtain ⟨_, _, rfl⟩ := run_insertStmts_some h
  obtain ⟨s, _, _, _, _, hs, hdescricao⟩ := hp.descricao
  have hchars : Utf8.charLength t.descricao ≤ 10 := by
    rw [hdescricao]
    exact (List.take_sublist 20 s).countP_le.trans hs
  intro r hr
  rcases List.mem_append.mp hr with hr | hr
  · exact hd r hr
  · obtain rfl := List.mem_singleton.mp hr
    exact ⟨hchars, (hora agora).1, (hora agora).2⟩

end

/-- The size of the buffer of the handler. -/
def Requisicao.maxBuffer : Requisicao → Nat
  | post .. => maxBufferTransacaoSave
  | get .. => maxBufferFindById

section
variable {P : Type} [DecidableEq P] {J : Jansson} {R : Relogio} {tr : List (Rotulo P)}
  {s : Estado P}

theorem curtas (h : Execucao J R tr s)
    (hora : ∀ x, (R.toChar x).length = 27 ∧ ∀ b ∈ R.toChar x, isHora b = true) :
    s.store.Curtas R.toChar := by
  refine run_store_inv (handler_meets J R) (fun r hr => absurd hr List.not_mem_nil) ?_ h
  intro req past c agora d d' hpre hd hrun
  obtain ⟨_, _, _, _, t, _, ha, _, rfl⟩ := hpre.last
  exact curtas_run hora hd ha.toPedido hrun

/-- Every 200 of a run fits the buffer of its handler and is framed. -/
theorem run_response_fits {q : P} {m : Nat} {req : Requisicao} {json : Json}
    (h : Execucao J R tr s)
    (hora : ∀ x, (R.toChar x).length = 27 ∧ ∀ b ∈ R.toChar x, isHora b = true)
    (hiso : ∀ agora, ∃ localtime t tval, R.isoStr agora = getCurrentTimeAsIsoStr localtime t tval)
    (ha : ⟨q, m, .accept req⟩ ∈ tr) (hr : ⟨q, m, .answer (.ok json)⟩ ∈ tr) :
    Enquadrada req.maxBuffer json := by
  cases req with
  | post url body =>
    obtain ⟨_, _, cliente, t, _, _, _, hjson⟩ := answered_ok h ha hr rfl
    obtain rfl := Resposta.ok.inj hjson
    exact enquadrada_saldo _
  | get url agora =>
    have htrack := run_track (handler_extrai J R) h
    obtain ⟨req, hreq, hpost⟩ := htrack.answered hr
    obtain rfl := (htrack.accepted ha hreq).2
    obtain ⟨r, r', cliente, _, hacts, hjson⟩ := hpost rfl
    obtain rfl := Resposta.ok.inj hjson
    have hread : ⟨q, m, .read (.ultimas (atoi (extractUrlParam url))) r'⟩ ∈ tr := by
      apply asked_mem_actsOf.mp
      rw [hacts]
      simp
    obtain ⟨a, b, rfl⟩ := List.append_of_mem hread
    obtain ⟨s₁, _, h₁, hstep, _⟩ := h.split _
    obtain ⟨localtime, tm, tval, hdata⟩ := hiso agora
    rw [hstep.read_inv.1, hdata]
    exact enquadrada_extrato (curtas h₁ hora) cliente _

end

end Crinha
