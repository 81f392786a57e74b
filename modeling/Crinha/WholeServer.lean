import Crinha.Pipeline.Refinement
import Crinha.ReadBuffer
import Crinha.Response
import Crinha.Router
import Crinha.Server

/-!
# From bytes to answers

The connections that `socket_loop` reads, with the handlers that their calls come to, as
one program that talks to the database. It ends where the code stores outside an array.
-/

namespace Crinha
open Pipeline CString

/-! ## `router_route` -/

section
variable (J : Jansson) (R : Relogio)

/-- `buffer_url_param` has room for the id and its terminator. -/
def IdCabe (url : Bytes) : Prop := (extractUrlParam url).length < maxBufferUrlParam

instance (url : Bytes) : Decidable (IdCabe url) := inferInstanceAs (Decidable (_ < _))

/-- `router_route` at the time `agora`. The call of a `NULL` handler is a crash. -/
def routerRouteCall (call : RouterCall UInt8) (agora : Nat) : DbProg Resposta :=
  match (clienteControllerInit J (R.isoStr agora)).bind fun routes =>
    (routerRoute routerMatchUrl routes call.method call.url (some call.body)).1 with
  | some .badRequest => pure .badRequest
  -- both handlers store the id first
  | some (.handler (some prog)) => if IdCabe call.url then prog else .halt
  | some (.handler none) | none => .halt

end

/-- The request a call is routed as. -/
def RouterCall.requisicao? (call : RouterCall UInt8) (agora : Nat) : Option Requisicao :=
  if call.method = 1 ∧ routerMatchUrl routeFindById.url call.url = true then
    some (.get call.url agora)
  else if call.method = httpPost ∧ routerMatchUrl routeTransacaoSave.url call.url = true then
    some (.post call.url (some call.body))
  else none

theorem requisicao?_url {call : RouterCall UInt8} {agora : Nat} {req : Requisicao}
    (h : call.requisicao? agora = some req) : req.url = call.url := by
  unfold RouterCall.requisicao? at h
  split_ifs at h <;> cases h <;> rfl

/-- A call that is routed is a request, whose id must fit. -/
theorem routerRouteCall_eq (J : Jansson) (R : Relogio) (call : RouterCall UInt8) (agora : Nat) :
    routerRouteCall J R call agora = (call.requisicao? agora).elim (pure .badRequest)
      fun req => if IdCabe req.url then handler J R req else .halt := by
  unfold routerRouteCall RouterCall.requisicao?
  simp only [router_service]
  by_cases hget : call.method = 1 ∧ routerMatchUrl routeFindById.url call.url = true
  · rw [if_pos hget, if_pos hget]
    rfl
  · rw [if_neg hget, if_neg hget]
    by_cases hpost : call.method = httpPost ∧ routerMatchUrl routeTransacaoSave.url call.url = true
    · rw [if_pos hpost, if_pos hpost]
      rfl
    · rw [if_neg hpost, if_neg hpost]
      rfl

/-! ## `server.c` -/

/-- What a `recv` returns, the time at which it does, and whether the peer is still there when
it is answered: otherwise `send` raises `SIGPIPE`, which ends the process. -/
structure Recebido where
  bytes : Bytes
  agora : Nat
  presente : Bool
  deriving DecidableEq

section
variable {α σ : Type} (L : Llhttp σ) (J : Jansson) (R : Relogio)

/-- The text of each response is sent. -/
def socketReadSend (parser : Parser σ UInt8) :
    List Recebido → DbProg (Parser σ UInt8 × List Bytes)
  | [] => pure (parser, [])
  | segment :: segments =>
    -- `buffer[valread] = 0` is outside
    if socketMaxReadBuffer ≤ segment.bytes.length then .halt
    else
      let (parser, parsed) := httpParserParse L parser segment.bytes
      if parsed && httpParserRequestIsComplete parser then do
        let response ← routerRouteCall J R
          ⟨L.method parser.state, parser.request.url.str, parser.request.body.str⟩ segment.agora
        if segment.presente then do
          let (parser, sent) ← socketReadSend (httpParserResetRequest L parser) segments
          pure (parser, response.text :: sent)
        else .halt
      else socketReadSend parser segments

def socketLoopSend (parser : Parser σ UInt8) :
    List (α × List Recebido) → DbProg (Parser σ UInt8 × List (α × List Bytes))
  | [] => pure (parser, [])
  | (connection, segments) :: connections => do
    let (parser, sent) ← socketReadSend L J R parser segments
    let (parser, served) ← socketLoopSend parser connections
    pure (parser, (connection, sent) :: served)

end

end Crinha
