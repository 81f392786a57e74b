import Crinha.RepositoryMemory
import Crinha.Response

/-!
# The handlers on the heap

* `saveTransacao_refines`, `findById_refines`: a handler answers with the text of the
  response and leaves the heap as it found it.
-/

namespace Crinha
open Pipeline Memory Assertion CString

/-! ## jansson -/

/-- A new reference to a value, `NULL` if there is none. -/
def jsonNew (al : Allocator Celula) : Option Json → MemProg Ptr
  | some json => do
    let p ← malloc al 1
    store p 0 (.json json)
    pure p
  | none => pure 0

/-- The member of an object a reference was borrowed of. -/
def jsonGet (root : Ptr) (key : String) : MemProg (Option Json) :=
  if root = 0 then pure none
  else do
    let json ← loadAs Celula.json? root 0
    pure (jsonObjectGet (some json) key)

def jsonDecref (json : Ptr) : MemProg Unit := free json

def jsonDumpsMem (al : Allocator Celula) (json : Ptr) : MemProg Ptr := do
  let value ← loadAs Celula.json? json 0
  let buffer ← malloc al ((jsonDumps value).length + 1)
  strcpy buffer (jsonDumps value)
  pure buffer

/-- The reference to `value` goes over to the array. -/
def jsonArrayAppendNew (array value : Ptr) : MemProg Unit :=
  if value = 0 then pure ()
  else do
    let json ← loadAs Celula.json? value 0
    free value
    let values ← loadAs Celula.json? array 0
    match values with
    | .array l => store array 0 (.json (.array (l ++ [json])))
    | _ => pure ()

/-- Format `o?` of `json_pack`: the reference goes over to the object. -/
def jsonSteal (value : Ptr) : MemProg (Option Json) :=
  if value = 0 then pure none
  else do
    let json ← loadAs Celula.json? value 0
    free value
    pure (some json)

/-! ## `controller/cliente_controller.c` -/

def isLimiteExcedidoMem (cliente transacao : Ptr) : MemProg Bool := do
  let tipo ← loadAs Celula.text? transacao 3
  let valor ← loadAs Celula.long? transacao 2
  let limite ← loadAs Celula.long? cliente 1
  let saldo ← loadAs Celula.long? cliente 2
  pure (isLimiteExcedido ⟨0, limite, saldo⟩ ⟨0, 0, valor, tipo, [], []⟩)

def updateSaldoClienteMem (cliente transacao : Ptr) : MemProg Unit := do
  let tipo ← loadAs Celula.text? transacao 3
  let valor ← loadAs Celula.long? transacao 2
  let saldo ← loadAs Celula.long? cliente 2
  store cliente 2 (.long (updateSaldoCliente ⟨0, 0, saldo⟩ ⟨0, 0, valor, tipo, [], []⟩).saldo)

def buildJsonSaldoMem (al : Allocator Celula) (cliente : Ptr) : MemProg Ptr := do
  let limite ← loadAs Celula.long? cliente 1
  let saldo ← loadAs Celula.long? cliente 2
  jsonNew al (some (buildJsonSaldo ⟨0, limite, saldo⟩))

def buildJsonSaldoDataMem (al : Allocator Celula) (dataExtrato : Bytes) (cliente : Ptr) :
    MemProg Ptr := do
  let saldo ← loadAs Celula.long? cliente 2
  let limite ← loadAs Celula.long? cliente 1
  jsonNew al (buildJsonSaldoData dataExtrato ⟨0, limite, saldo⟩)

/-- Of `&transacoes.values[i]`. -/
def buildJsonTransacaoMem (al : Allocator Celula) (values : Ptr) (i : Nat) : MemProg Ptr := do
  let valor ← loadAs Celula.long? values (sizeofTransacao * i + 2)
  let tipo ← loadAs Celula.text? values (sizeofTransacao * i + 3)
  let descricao ← loadAs Celula.text? values (sizeofTransacao * i + 4)
  let realizadaEm ← loadAs Celula.text? values (sizeofTransacao * i + 5)
  jsonNew al (buildJsonTransacao ⟨0, 0, valor, tipo, descricao, realizadaEm⟩)

def buildJsonTransacoesMem (al : Allocator Celula) (transacoes : TransacaoList) : MemProg Ptr := do
  let jsonTransacoes ← jsonNew al (some (.array []))
  loop (fun i => do
    let jsonTransacao ← buildJsonTransacaoMem al transacoes.values i
    jsonArrayAppendNew jsonTransacoes jsonTransacao) 0 transacoes.size
  pure jsonTransacoes

def buildJsonExtratoMem (al : Allocator Celula) (jsonSaldo jsonTransacoes : Ptr) : MemProg Ptr := do
  let saldo ← jsonSteal jsonSaldo
  let transacoes ← jsonSteal jsonTransacoes
  jsonNew al (some (buildJsonExtrato saldo transacoes))

/-- `sprintf` of a JSON value and its length into the buffer of the response. -/
def sprintfResponse (buffer : Ptr) : MemProg Bytes := do
  let json ← loadString buffer
  pure (templateResponseHttp200Json json.length json)

/-- The fields of the body, each read through the reference to the whole. -/
def lerCampos (jsonTransacao : Ptr) : MemProg (Option Json × Option Json × Option Json) := do
  let jsonValor ← jsonGet jsonTransacao "valor"
  let jsonTipo ← jsonGet jsonTransacao "tipo"
  let jsonDescricao ← jsonGet jsonTransacao "descricao"
  pure (jsonDescricao, jsonTipo, jsonValor)

/-- The `Transacao` of the request; `id` and `realizada_em` stay unset. -/
def novaTransacaoMem (al : Allocator Celula) (idCliente : Nat) (jsonTransacao : Ptr) :
    MemProg Ptr := do
  let transacao ← malloc al sizeofTransacao
  store transacao 1 (.int idCliente)
  let (jsonDescricao, jsonTipo, jsonValor) ← lerCampos jsonTransacao
  let nova := novaTransacao idCliente jsonDescricao jsonTipo jsonValor
  store transacao 2 (.long nova.valor)
  store transacao 3 (.text nova.tipo)
  store transacao 4 (.text nova.descricao)
  pure transacao

/-- What is answered to a transaction that was sent. -/
def responderSaldo (al : Allocator Celula) (cliente transacao : Ptr) : MemProg Bytes := do
  updateSaldoClienteMem cliente transacao
  let jsonSaldo ← buildJsonSaldoMem al cliente
  let bufferSaldo ← jsonDumpsMem al jsonSaldo
  let resp ← sprintfResponse bufferSaldo
  jsonDecref jsonSaldo
  free bufferSaldo
  pure resp

/-- From the lookup of the client on. -/
def salvar (al : Allocator Celula) (idCliente : Nat) (transacao : Ptr) : MemProg Bytes := do
  let cliente ← clienteServiceFindOneMem al idCliente
  if cliente = 0 then pure Resposta.notFound.text
  else do
    let excedido ← isLimiteExcedidoMem cliente transacao
    let resp ← (if excedido then pure Resposta.unprocessableEntity.text
      else do
        let ret ← transacaoServiceSaveAsyncMem al transacao
        if ret then responderSaldo al cliente transacao
        else pure Resposta.unprocessableEntity.text : MemProg Bytes)
    free cliente
    pure resp

def clienteControllerSaveTransacaoMem (J : Jansson) (al : Allocator Celula) (url : Bytes) :
    Option Bytes → MemProg Bytes
  | none => pure Resposta.badRequest.text
  | some body =>
    let param := extractUrlParam url
    if !isIdClienteValido param then pure Resposta.unprocessableEntity.text
    else do
      let jsonTransacao ← jsonNew al (J.loads body)
      let (jsonDescricao, jsonTipo, jsonValor) ← lerCampos jsonTransacao
      match camposValidos jsonDescricao jsonTipo jsonValor with
      | none => crash
      | some false => do
        jsonDecref jsonTransacao
        pure Resposta.unprocessableEntity.text
      | some true => do
        let transacao ← novaTransacaoMem al (atoi param) jsonTransacao
        let resp ← salvar al (atoi param) transacao
        free transacao
        jsonDecref jsonTransacao
        pure resp

def clienteControllerFindByIdMem (al : Allocator Celula) (url dataExtrato : Bytes) :
    MemProg Bytes :=
  let param := extractUrlParam url
  if isIdClienteValido param then do
    let cliente ← clienteServiceFindOneMem al (atoi param)
    if cliente = 0 then pure Resposta.notFound.text
    else do
      let transacoes ← transacaoServiceFindLast10Mem al (atoi param)
      let jsonSaldo ← buildJsonSaldoDataMem al dataExtrato cliente
      let jsonTransacoes ← buildJsonTransacoesMem al transacoes
      let jsonExtrato ← buildJsonExtratoMem al jsonSaldo jsonTransacoes
      let bufferExtrato ← jsonDumpsMem al jsonExtrato
      let resp ← sprintfResponse bufferExtrato
      free bufferExtrato
      jsonDecref jsonExtrato
      transacaoServiceFreeListMem transacoes
      free cliente
      pure resp
  else pure Resposta.badRequest.text

/-! ## JSON values on the heap -/

def jsonAt (p : Ptr) (json : Json) : Assertion Celula := block p [some (.json json)]

section
variable {A A' : Type} {L : List (Assertion Celula)} {p : DbProg A'} {Q' : A → A' → Assertion Celula}
  (al : Allocator Celula)

theorem jsonNew_spec : ∀ json : Option Json,
    Triple Legal 1 (jsonNew al json) fun p => orNull jsonAt p json
  | none => .pure_eq (fact_true rfl).symm
  | some json => by
    refine .of_eq List.prod_nil.symm (.mallocAt fun p _ => ?_)
    exact .storeAt 0 rfl (by simp) (.pure_eq List.prod_singleton)

variable {al}

theorem reads_jsonGet {root : Ptr} (key : String) : ∀ {json : Option Json},
    Reads (orNull jsonAt root json) (jsonGet root key) (jsonObjectGet json key)
  | none => by
    rintro _ f ⟨rfl, rfl⟩ _
    rfl
  | some json => by
    have hload : Reads (jsonAt root json) (loadAs Celula.json? root 0 : MemProg Json) json :=
      .loadAs rfl rfl
    rintro h f hh hd
    rw [jsonGet, if_neg hh.1]
    exact hload.bind (k := fun json => pure (jsonObjectGet (some json) key)) .pure h f hh hd

theorem reads_lerCampos {root : Ptr} {json : Option Json} :
    Reads (orNull jsonAt root json) (lerCampos root) (jsonObjectGet json "descricao",
      jsonObjectGet json "tipo", jsonObjectGet json "valor") :=
  (reads_jsonGet "valor").bind ((reads_jsonGet "tipo").bind ((reads_jsonGet "descricao").bind .pure))

theorem jsonDecref_spec {root : Ptr} : ∀ {json : Option Json},
    Triple Legal (orNull jsonAt root json) (jsonDecref root) fun _ => 1
  | none => .of_eq (mul_one _).symm (.of_fact fun h0 => h0 ▸ .pure_eq rfl)
  | some _ => .of_eq (List.prod_singleton).symm (.last (.freeAt 0 rfl (.pure_eq rfl)))

/-- The text of a value, to be printed and freed. -/
theorem jsonDumps_spec {root : Ptr} {json : Json} :
    Triple Legal (jsonAt root json) (jsonDumpsMem al root)
      fun buffer => campo buffer (jsonDumps json) * jsonAt root json := by
  refine .of_eq (List.prod_singleton).symm (.loadAt 0 rfl rfl rfl (.mallocAt fun buffer _ => ?_))
  refine .stepAt 0 rfl (strcpy_spec buffer (jsonDumps json)) fun _ => .pure_eq ?_
  exact congrArg _ List.prod_singleton

theorem reads_sprintfResponse {buffer : Ptr} {json : Json} :
    Reads (campo buffer (jsonDumps json)) (sprintfResponse buffer) (Resposta.ok json).text := by
  have hload :
      Reads (campo buffer (jsonDumps json)) (loadString buffer) (cstr (jsonDumps json)) := by
    rintro _ f ⟨hq, rfl⟩ _
    rw [loadString, block_cells hq, Option.bind_some, cString_chars]
  exact hload.bind .pure

theorem jsonSteal_spec {root : Ptr} : ∀ {json : Option Json},
    Triple Legal (orNull jsonAt root json) (jsonSteal root) fun json' => fact (json' = json)
  | none => .of_eq (mul_one _).symm (.of_fact fun h0 => h0 ▸ .pure_eq (fact_true rfl).symm)
  | some json => by
    refine .of_eq (List.prod_singleton).symm (.knowAt 0 rfl (fun _ h => h.1) fun h0 => ?_)
    rw [jsonSteal, if_neg h0]
    exact .loadAt 0 rfl rfl rfl (.freeAt 0 rfl (.pure_eq (fact_true rfl).symm))

/-! ## Answering a transaction -/

variable (al) {cliente transacao : Ptr} {c : Cliente} {t : Transacao}

theorem isLimiteExcedidoAt (n m : Nat) {k : Bool → MemProg A}
    (hn : L[n]? = some (clienteAt cliente c)) (hm : L[m]? = some (pedidoAt transacao t))
    (h : Refines Legal L.prod (k (isLimiteExcedido c t)) p Q') :
    Refines Legal L.prod (isLimiteExcedidoMem cliente transacao >>= k) p Q' :=
  .assoc (.loadAt m hm rfl rfl (.assoc (.loadAt m hm rfl rfl (.assoc (.loadAt n hn rfl rfl
    (.assoc (.loadAt n hn rfl rfl (.ret h))))))))

/-- The client of the response is the client with its new saldo. -/
theorem updateSaldoClienteAt (n m : Nat) {k : Unit → MemProg A}
    (hn : L[n]? = some (clienteAt cliente c)) (hm : L[m]? = some (pedidoAt transacao t))
    (h : Refines Legal (L.set n (clienteAt cliente (updateSaldoCliente c t))).prod (k ()) p Q') :
    Refines Legal L.prod (updateSaldoClienteMem cliente transacao >>= k) p Q' := by
  refine .assoc (.loadAt m hm rfl rfl (.assoc (.loadAt m hm rfl rfl ?_)))
  refine .assoc (.loadAt n hn rfl rfl ?_)
  refine .storeAt n hn (by simp [clienteCells]) ?_
  convert h using 4
  unfold updateSaldoCliente
  split <;> rfl

theorem buildJsonSaldoAt (n : Nat) {k : Ptr → MemProg A}
    (hn : L[n]? = some (clienteAt cliente c))
    (h : ∀ q, Refines Legal (jsonAt q (buildJsonSaldo c) :: L).prod (k q) p Q') :
    Refines Legal L.prod (buildJsonSaldoMem al cliente >>= k) p Q' :=
  .assoc (.loadAt n hn rfl rfl (.assoc (.loadAt n hn rfl rfl (.newAt (jsonNew_spec al _) h))))

/-- The answer is the text of the response, and only the client has changed. -/
theorem responderSaldo_spec :
    Triple Legal [pedidoAt transacao t, clienteAt cliente c].prod
      (responderSaldo al cliente transacao)
      fun text => fact (text = (Resposta.ok (buildJsonSaldo (updateSaldoCliente c t))).text) *
        [pedidoAt transacao t, clienteAt cliente (updateSaldoCliente c t)].prod := by
  refine updateSaldoClienteAt 1 0 rfl rfl (buildJsonSaldoAt al 1 rfl fun jsonSaldo => ?_)
  refine .stepAt 0 rfl jsonDumps_spec fun buffer => .splitAt 0 rfl ?_
  refine .readAt 1 rfl reads_sprintfResponse ?_
  exact .freeAt 0 rfl (.freeAt 0 rfl (.pure_fact rfl rfl))

/-- The request's part without a heap, from the lookup of the client on. -/
theorem salvar_refines (id : Nat) :
    Refines Legal (pedidoAt transacao t) (salvar al id transacao)
      ((do
        let cliente ← clienteServiceFindOne id
        match cliente with
        | none => pure .notFound
        | some cliente =>
          if isLimiteExcedido cliente t then pure .unprocessableEntity
          else do
            let ret ← transacaoServiceSaveAsync t
            if ret then pure (.ok (buildJsonSaldo (updateSaldoCliente cliente t)))
            else pure .unprocessableEntity) : DbProg Resposta)
      fun text resp => fact (text = resp.text) * pedidoAt transacao t := by
  refine .of_eq (List.prod_singleton).symm
    (.callNewAt (clienteRepoFindOne_refines al id) fun cliente c => ?_)
  cases c with
  | none =>
    refine .factAt 0 rfl fun h0 => ?_
    rw [if_pos h0]
    exact .pure_fact rfl List.prod_singleton
  | some c =>
    refine .knowAt 0 rfl (fun _ h => h.1) fun h0 => ?_
    rw [if_neg h0]
    refine isLimiteExcedidoAt 0 1 rfl rfl ?_
    show Refines Legal [clienteAt cliente c, pedidoAt transacao t].prod _
      (if isLimiteExcedido c t then pure Resposta.unprocessableEntity
      else transacaoServiceSaveAsync t >>= fun ret =>
        if ret then pure (.ok (buildJsonSaldo (updateSaldoCliente c t)))
        else pure .unprocessableEntity) _
    cases isLimiteExcedido c t with
    | true => exact .ret (.freeAt 0 rfl (.pure_fact rfl List.prod_singleton))
    | false =>
      rw [if_neg (by decide), if_neg (by decide)]
      refine .assoc (.callAt 1 rfl (transacaoRepoInsertAsync_refines al transacao t)
        fun ret ret' => ?_)
      refine .splitAt 0 rfl (.factAt 1 rfl fun hret => ?_)
      subst hret
      cases ret with
      | false => exact .ret (.freeAt 1 rfl (.pure_fact rfl List.prod_singleton))
      | true =>
        refine .andThen (responderSaldo_spec al) fun text => .of_fact fun htext => ?_
        subst htext
        exact .freeAt 1 rfl (.pure_fact rfl List.prod_singleton)

theorem novaTransacao_spec (id : Nat) {root : Ptr} {json : Option Json} :
    Triple Legal (orNull jsonAt root json) (novaTransacaoMem al id root) fun transacao =>
      pedidoAt transacao (novaTransacao id (jsonObjectGet json "descricao")
        (jsonObjectGet json "tipo") (jsonObjectGet json "valor")) * orNull jsonAt root json := by
  refine .of_eq (List.prod_singleton).symm (.mallocAt fun transacao _ => ?_)
  refine .storeAt 0 rfl (by simp [sizeofTransacao]) (.readAt 1 rfl reads_lerCampos ?_)
  refine .storeAt 0 rfl (by simp [sizeofTransacao]) ?_
  refine .storeAt 0 rfl (by simp [sizeofTransacao]) ?_
  refine .storeAt 0 rfl (by simp [sizeofTransacao]) (.pure_eq ?_)
  exact congrArg _ List.prod_singleton

/-- **A POST leaves the heap as it found it**, answers with the text of its response, and
crashes only where it does without a heap. -/
theorem saveTransacao_refines (J : Jansson) (url : Bytes) (body : Option Bytes) :
    Refines Legal 1 (clienteControllerSaveTransacaoMem J al url body)
      (clienteControllerSaveTransacao J url body) fun text resp => fact (text = resp.text) := by
  cases body with
  | none => exact .pure_eq (fact_true rfl).symm
  | some body =>
    unfold clienteControllerSaveTransacaoMem clienteControllerSaveTransacao
    simp only
    by_cases hparam : (!isIdClienteValido (extractUrlParam url)) = true
    · rw [if_pos hparam, if_pos hparam]
      exact .pure_eq (fact_true rfl).symm
    · rw [if_neg hparam, if_neg hparam]
      refine .of_eq List.prod_nil.symm (.newAt (jsonNew_spec al _) fun root => ?_)
      refine .readAt 0 rfl reads_lerCampos ?_
      simp only
      cases camposValidos (jsonObjectGet (J.loads body) "descricao")
        (jsonObjectGet (J.loads body) "tipo") (jsonObjectGet (J.loads body) "valor") with
      | none => exact .crash
      | some valido =>
        cases valido with
        | false => exact .stepAt 0 rfl jsonDecref_spec fun _ =>
            .pure_eq (List.prod_singleton.trans (fact_true rfl).symm)
        | true =>
          refine .stepAt 0 rfl (novaTransacao_spec al _) fun transacao => .splitAt 0 rfl ?_
          refine .result (.callAt 1 rfl (salvar_refines al _) fun text resp => ?_)
          refine .splitAt 0 rfl (.factAt 1 rfl fun htext => .freeAt 0 rfl ?_)
          exact .stepAt 0 rfl jsonDecref_spec fun _ =>
            .pure_eq (List.prod_singleton.trans (fact_true htext).symm)

/-! ## Building an extrato -/

theorem transacaoCells_get {ts : List Transacao} {t : Transacao} {i k : Nat} (hi : ts[i]? = some t)
    (hk : k < sizeofTransacao) :
    (ts.flatMap transacaoCells)[sizeofTransacao * i + k]? = (transacaoCells t)[k]? := by
  induction ts generalizing i with
  | nil => simp at hi
  | cons t' ts ih =>
    have hlen : (transacaoCells t').length = sizeofTransacao := rfl
    rw [List.flatMap_cons]
    cases i with
    | zero =>
      obtain rfl : t' = t := by simpa using hi
      rw [Nat.mul_zero, Nat.zero_add, List.getElem?_append_left (hlen ▸ hk)]
    | succ i =>
      rw [List.getElem?_append_right (by rw [hlen, Nat.mul_succ]; omega), hlen, ← ih hi]
      congr 1
      rw [Nat.mul_succ]
      omega

theorem buildJsonTransacao_spec {values : Ptr} {ts : List Transacao} {t : Transacao} {i : Nat}
    (hi : ts[i]? = some t) :
    Triple Legal (block values (ts.flatMap transacaoCells)) (buildJsonTransacaoMem al values i)
      fun p => orNull jsonAt p (buildJsonTransacao t) *
        block values (ts.flatMap transacaoCells) := by
  refine .of_eq (List.prod_singleton).symm ?_
  refine .loadAt 0 rfl (transacaoCells_get hi (by decide)) rfl ?_
  refine .loadAt 0 rfl (transacaoCells_get hi (by decide)) rfl ?_
  refine .loadAt 0 rfl (transacaoCells_get hi (by decide)) rfl ?_
  refine .loadAt 0 rfl (transacaoCells_get hi (by decide)) rfl (.last ?_)
  exact .newAt (jsonNew_spec al _) fun p => .pure_eq (congrArg _ List.prod_singleton)

theorem jsonArrayAppendNew_spec {array value : Ptr} {l : List Json} : ∀ {json : Option Json},
    Triple Legal [orNull jsonAt value json, jsonAt array (.array l)].prod
      (jsonArrayAppendNew array value) fun _ => jsonAt array (.array (l ++ json.toList))
  | none => .factAt 0 rfl fun h0 => by
    subst h0
    rw [Option.toList_none, List.append_nil]
    exact .pure_eq List.prod_singleton
  | some json => by
    refine .knowAt 0 rfl (fun _ h => h.1) fun h0 => ?_
    rw [jsonArrayAppendNew, if_neg h0]
    refine .loadAt 0 rfl rfl rfl (.freeAt 0 rfl (.loadAt 0 rfl rfl rfl (.last ?_)))
    exact .storeAt 0 rfl (by simp) (.pure_eq List.prod_singleton)

/-- One pass through the loop over the list. -/
theorem buildJsonTransacoes_step {values array : Ptr} {ts : List Transacao} {t : Transacao}
    {i : Nat} (hi : ts[i]? = some t) :
    Triple Legal [jsonAt array (.array ((ts.take i).filterMap buildJsonTransacao)),
        block values (ts.flatMap transacaoCells)].prod
      (do
        let jsonTransacao ← buildJsonTransacaoMem al values i
        jsonArrayAppendNew array jsonTransacao)
      fun _ => [jsonAt array (.array ((ts.take (i + 1)).filterMap buildJsonTransacao)),
        block values (ts.flatMap transacaoCells)].prod := by
  have hnext : (ts.take (i + 1)).filterMap buildJsonTransacao =
      (ts.take i).filterMap buildJsonTransacao ++ (buildJsonTransacao t).toList := by
    rw [take_concat hi, List.filterMap_append]
    cases h : buildJsonTransacao t <;> simp [h]
  rw [hnext]
  refine .stepAt 1 rfl (buildJsonTransacao_spec al hi) fun value => .splitAt 0 rfl (.last ?_)
  refine .of_eq (mul_comm _ _) (.step jsonArrayAppendNew_spec fun _ => .pure_eq ?_)
  exact congrArg _ List.prod_singleton.symm

theorem buildJsonTransacoes_spec {transacoes : TransacaoList} {ts : List Transacao} :
    Triple Legal (listaAt transacoes ts) (buildJsonTransacoesMem al transacoes)
      fun p => jsonAt p (buildJsonTransacoes ts) * listaAt transacoes ts := by
  refine .of_fact fun hsize => .of_eq (List.prod_singleton).symm
    (.newAt (jsonNew_spec al _) fun array => ?_)
  rw [listaAt, fact_true hsize, one_mul, hsize, transacoesAt]
  split
  · rename_i hts
    subst hts
    exact .ret (.pure_eq (congrArg _ List.prod_singleton))
  · have h := Refines.loop (fun i => [jsonAt array (.array ((ts.take i).filterMap buildJsonTransacao)),
        block transacoes.values (ts.flatMap transacaoCells)].prod) _ (n := ts.length)
      fun i hi => buildJsonTransacoes_step al (List.getElem?_eq_getElem hi)
    rw [List.take_length] at h
    exact .andThen h fun _ => .pure_eq (congrArg _ List.prod_singleton)

theorem buildJsonSaldoDataAt (dataExtrato : Bytes) (n : Nat) {k : Ptr → MemProg A}
    (hn : L[n]? = some (clienteAt cliente c))
    (h : ∀ q, Refines Legal (orNull jsonAt q (buildJsonSaldoData dataExtrato c) :: L).prod (k q) p
      Q') :
    Refines Legal L.prod (buildJsonSaldoDataMem al dataExtrato cliente >>= k) p Q' :=
  .assoc (.loadAt n hn rfl rfl (.assoc (.loadAt n hn rfl rfl (.newAt (jsonNew_spec al _) h))))

/-- Both values go over to the extrato. -/
theorem buildJsonExtrato_spec {jsonSaldo jsonTransacoes : Ptr} {saldo transacoes : Option Json} :
    Triple Legal [orNull jsonAt jsonTransacoes transacoes, orNull jsonAt jsonSaldo saldo].prod
      (buildJsonExtratoMem al jsonSaldo jsonTransacoes)
      fun p => jsonAt p (buildJsonExtrato saldo transacoes) := by
  refine .stepAt 1 rfl jsonSteal_spec fun saldo' => .factAt 0 rfl fun hs => ?_
  refine .stepAt 0 rfl jsonSteal_spec fun transacoes' => .factAt 0 rfl fun ht => ?_
  subst hs ht
  exact .last (.newAt (jsonNew_spec al _) fun p => .pure_eq List.prod_singleton)

/-- **A GET leaves the heap as it found it** and answers with the text of its response. -/
theorem findById_refines (url dataExtrato : Bytes) :
    Refines Legal 1 (clienteControllerFindByIdMem al url dataExtrato)
      (clienteControllerFindById url dataExtrato) fun text resp => fact (text = resp.text) := by
  unfold clienteControllerFindByIdMem clienteControllerFindById
  simp only
  split
  · refine .of_eq List.prod_nil.symm (.callNewAt (clienteRepoFindOne_refines al _)
      fun cliente c => ?_)
    cases c with
    | none =>
      refine .factAt 0 rfl fun h0 => ?_
      rw [if_pos h0]
      exact .pure_eq (fact_true rfl).symm
    | some c =>
      refine .knowAt 0 rfl (fun _ h => h.1) fun h0 => ?_
      rw [if_neg h0]
      refine .callNewAt (transacaoRepoFindLast10_refines al _) fun transacoes ts => ?_
      refine buildJsonSaldoDataAt al dataExtrato 1 rfl fun jsonSaldo => ?_
      refine .stepAt 1 rfl (buildJsonTransacoes_spec al) fun jsonTransacoes => .splitAt 0 rfl ?_
      refine .seenAs ([orNull jsonAt jsonTransacoes (some (buildJsonTransacoes ts)),
        orNull jsonAt jsonSaldo (buildJsonSaldoData dataExtrato c)].prod *
        [listaAt transacoes ts, clienteAt cliente c].prod) ?_
        (.step (buildJsonExtrato_spec al) fun jsonExtrato => ?_)
      · simp only [List.set_cons_zero, List.eraseIdx_cons_succ, List.eraseIdx_cons_zero,
          List.prod_cons, List.prod_nil, mul_one, orNull_some]
        ac_rfl
      · rw [← List.prod_cons]
        refine .stepAt 0 rfl jsonDumps_spec fun buffer => .splitAt 0 rfl ?_
        refine .readAt 1 rfl reads_sprintfResponse (.freeAt 1 rfl (.freeAt 0 rfl ?_))
        refine .stepAt 0 rfl (transacaoRepoFreeList_spec _ _) fun _ => .freeAt 1 rfl ?_
        exact .pure_eq (List.prod_singleton.trans (fact_true rfl).symm)
  · exact .pure_eq (fact_true rfl).symm

end

end Crinha
