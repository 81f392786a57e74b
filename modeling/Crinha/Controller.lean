import Crinha.Repository
import Crinha.Jansson

/-!
# `controller/cliente_controller.c`

The two request handlers and what they are made of.
-/

namespace Crinha
open Pipeline CString

/-! ## Parameters and validation -/

def digitsOnly (s : Bytes) : Bool := s.all Decimal.isDigit

/-- The digits between the first two slashes that have only digits between them:
the leftmost match of `/([0-9]*)/`, without its slashes. -/
def matchUrlParam : Bytes → Option Bytes
  | [] => none
  | b :: str =>
    if b = 47 ∧ (str.dropWhile Decimal.isDigit).head? = some 47 then
      some (str.takeWhile Decimal.isDigit)
    else matchUrlParam str

def extractUrlParam (url : Bytes) : Bytes := (matchUrlParam url).getD []

def isIdClienteValido (id : Bytes) : Bool :=
  decide (0 < id.length) && decide (id.length < 10) && digitsOnly id

def isDescricaoTransacaoValida : Option Bytes → Bool
  | some descricao =>
    let len := stringUtilUtf8Strlen descricao
    decide (1 ≤ len) && decide (len ≤ transacaoDescricaoLen)
  | none => false

/-- `none` for `strlen(NULL)`. -/
def isTipoTransacaoValido : Option Bytes → Option Bool
  | some tipo => some (tipo.length == 1 && (tipo.head? == some 99 || tipo.head? == some 100))
  | none => none

def isValorTransacaoValido (valor : Int64) : Bool := decide (0 < valor)

def isLimiteExcedido (cliente : Cliente) (transacao : Transacao) : Bool :=
  if transacao.tipo.head? = some 99 then false
  else decide (cliente.saldo - transacao.valor < -cliente.limite)

def updateSaldoCliente (cliente : Cliente) (transacao : Transacao) : Cliente :=
  if transacao.tipo.head? = some 99 then { cliente with saldo := cliente.saldo + transacao.valor }
  else { cliente with saldo := cliente.saldo - transacao.valor }

/-! ## Responses -/

/-- The status of a response and, for a 200, the value `json_dumps` printed. -/
inductive Resposta where
  | badRequest
  | notFound
  | unprocessableEntity
  | ok (json : Json)

def Resposta.status : Resposta → Nat
  | badRequest => 400
  | notFound => 404
  | unprocessableEntity => 422
  | ok _ => 200

def Resposta.json? : Resposta → Option Json
  | ok json => some json
  | _ => none

def buildJsonSaldo (cliente : Cliente) : Json :=
  .object [("limite", packInt cliente.limite), ("saldo", packInt cliente.saldo)]

def buildJsonSaldoData (dataExtrato : Bytes) (cliente : Cliente) : Option Json := do
  let data ← packStr dataExtrato
  pure (.object [("total", packInt cliente.saldo), ("data_extrato", data),
    ("limite", packInt cliente.limite)])

def buildJsonTransacao (transacao : Transacao) : Option Json := do
  let tipo ← packStr transacao.tipo
  let descricao ← packStr transacao.descricao
  let realizadaEm ← packStr transacao.realizadaEm
  pure (.object [("valor", packInt transacao.valor), ("tipo", tipo), ("descricao", descricao),
    ("realizada_em", realizadaEm)])

/-- `json_array_append_new` skips a value that could not be packed. -/
def buildJsonTransacoes (transacoes : List Transacao) : Json :=
  .array (transacoes.filterMap buildJsonTransacao)

def buildJsonExtrato (jsonSaldo jsonTransacoes : Option Json) : Json :=
  .object [("saldo", jsonSaldo.getD .null), ("ultimas_transacoes", jsonTransacoes.getD .null)]

/-! ## Handlers -/

/-- The test on the three fields of the body; `none` is a crash. -/
def camposValidos (jsonDescricao jsonTipo jsonValor : Option Json) : Option Bool :=
  if isDescricaoTransacaoValida (jsonStringValue jsonDescricao) then
    (isTipoTransacaoValido (jsonStringValue jsonTipo)).map fun valido =>
      valido && jsonIsInteger jsonValor && isValorTransacaoValido (jsonIntegerValue jsonValor)
  else some false

/-- `id` and `realizada_em` stay unset and are never read. -/
def novaTransacao (idCliente : Nat) (jsonDescricao jsonTipo jsonValor : Option Json) :
    Transacao where
  id := 0
  idCliente := idCliente
  valor := jsonIntegerValue jsonValor
  tipo := copied ((jsonStringValue jsonTipo).getD []) transacaoTipoLen
  descricao := copied ((jsonStringValue jsonDescricao).getD []) utf8TransacaoDescricaoLen
  realizadaEm := []

def clienteControllerSaveTransacao (J : Jansson) (url : Bytes) : Option Bytes → DbProg Resposta
  | none => pure .badRequest
  | some body =>
    let param := extractUrlParam url
    if !isIdClienteValido param then pure .unprocessableEntity
    else
      let idCliente := atoi param
      let jsonTransacao := J.loads body
      let jsonValor := jsonObjectGet jsonTransacao "valor"
      let jsonTipo := jsonObjectGet jsonTransacao "tipo"
      let jsonDescricao := jsonObjectGet jsonTransacao "descricao"
      match camposValidos jsonDescricao jsonTipo jsonValor with
      | none => .halt
      | some false => pure .unprocessableEntity
      | some true => do
        let transacao := novaTransacao idCliente jsonDescricao jsonTipo jsonValor
        let cliente ← clienteServiceFindOne idCliente
        match cliente with
        | none => pure .notFound
        | some cliente =>
          if isLimiteExcedido cliente transacao then pure .unprocessableEntity
          else do
            let ret ← transacaoServiceSaveAsync transacao
            if ret then pure (.ok (buildJsonSaldo (updateSaldoCliente cliente transacao)))
            else pure .unprocessableEntity

/-- `dataExtrato` is what `get_current_time_as_iso_str` left in its buffer. -/
def clienteControllerFindById (url dataExtrato : Bytes) : DbProg Resposta :=
  let param := extractUrlParam url
  if isIdClienteValido param then do
    let idCliente := atoi param
    let cliente ← clienteServiceFindOne idCliente
    match cliente with
    | some cliente =>
      let transacoes ← transacaoServiceFindLast10 idCliente
      pure (.ok (buildJsonExtrato (buildJsonSaldoData dataExtrato cliente)
        (some (buildJsonTransacoes transacoes))))
    | none => pure .notFound
  else pure .badRequest

end Crinha
