import Crinha.Extrato
import Crinha.Failures
import Crinha.Pipeline.Paths

/-!
# The paths of a request

`Percurso` says on which paths a request is answered, and with what, when a failed query
that crashes the handler is left aside (`handler_percurso`).
-/

namespace Crinha
open Pipeline CString

inductive Percurso (J : Jansson) (R : Relogio) : Requisicao → List Tentativa → Resposta → Prop where
  | semCorpo (url : Bytes) : Percurso J R (.post url none) [] .badRequest
  | recusado {url body : Bytes} (refused : ∀ t, ¬Pedido J url body t) :
      Percurso J R (.post url (some body)) [] .unprocessableEntity
  | semConta {url body : Bytes} {t : Transacao} {r : Option DBResultSet}
      (pedido : Pedido J url body t) (lido : firstRecord r = none) :
      Percurso J R (.post url (some body)) [.asked (.cliente t.idCliente) r] .notFound
  | excedido {url body : Bytes} {t : Transacao} {r : Option DBResultSet} {cliente : Cliente}
      (pedido : Pedido J url body t) (lido : (firstRecord r).map clienteDe = some cliente)
      (limite : isLimiteExcedido cliente t = true) :
      Percurso J R (.post url (some body)) [.asked (.cliente t.idCliente) r] .unprocessableEntity
  | enviado {url body : Bytes} {t : Transacao} {r : Option DBResultSet} {cliente : Cliente}
      (aceito : Aceito J url body r cliente t) (taken : Bool) :
      Percurso J R (.post url (some body))
        [.asked (.cliente t.idCliente) r, .tried (insertStmts t) taken]
        (if taken then .ok (buildJsonSaldo (updateSaldoCliente cliente t)) else .unprocessableEntity)
  | idInvalido {url : Bytes} (agora : Nat)
      (param : isIdClienteValido (extractUrlParam url) = false) :
      Percurso J R (.get url agora) [] .badRequest
  | semExtrato {url : Bytes} (agora : Nat) {r : Option DBResultSet}
      (param : isIdClienteValido (extractUrlParam url) = true) (lido : firstRecord r = none) :
      Percurso J R (.get url agora) [.asked (.cliente (atoi (extractUrlParam url))) r] .notFound
  | extrato {url : Bytes} (agora : Nat) {r r' : Option DBResultSet} {cliente : Cliente}
      (param : isIdClienteValido (extractUrlParam url) = true)
      (lido : (firstRecord r).map clienteDe = some cliente) :
      Percurso J R (.get url agora) [.asked (.cliente (atoi (extractUrlParam url))) r,
          .asked (.ultimas (atoi (extractUrlParam url))) r']
        (.ok (buildJsonExtrato (buildJsonSaldoData (R.isoStr agora) cliente)
          (some (buildJsonTransacoes (listadas r')))))

section
variable {J : Jansson} {R : Relogio} {attempts : List Tentativa} {resp : Resposta} {id : Nat}

/-- A failed query is no way to an answer. -/
theorem exec_clienteServiceFindOne {k : Option Cliente → DbProg Resposta}
    (h : (clienteServiceFindOne id >>= k).Exec attempts (some resp)) :
    ∃ r rest, attempts = .asked (.cliente id) r :: rest ∧
      (k ((firstRecord r).map clienteDe)).Exec rest (some resp) := by
  obtain ⟨r, rest, rfl, hx⟩ := Prog.exec_query.mp h
  cases r with
  | none => cases hx
  | some resultSet => exact ⟨_, rest, rfl, hx⟩

theorem exec_transacaoServiceFindLast10 {k : List Transacao → DbProg Resposta}
    (h : (transacaoServiceFindLast10 id >>= k).Exec attempts (some resp)) :
    ∃ r rest, attempts = .asked (.ultimas id) r :: rest ∧
      (k (listadas r)).Exec rest (some resp) := by
  obtain ⟨r, rest, rfl, hx⟩ := Prog.exec_query.mp h
  cases r with
  | none => exact ⟨none, rest, rfl, hx⟩
  | some resultSet => exact ⟨some resultSet, rest, rfl, hx⟩

theorem percurso_post {url : Bytes} {body : Option Bytes}
    (h : (clienteControllerSaveTransacao J url body).Exec attempts (some resp)) :
    Percurso J R (.post url body) attempts resp := by
  cases body with
  | none =>
    cases h
    exact .semCorpo url
  | some body =>
    simp only [clienteControllerSaveTransacao] at h
    split at h
    · rename_i hparam
      cases h
      exact .recusado fun t hp => by simp [hp.param] at hparam
    · rename_i hparam
      split at h
      · cases h
      · rename_i hcampos
        cases h
        exact .recusado fun t hp => by simp [hp.campos] at hcampos
      · rename_i hcampos
        have pedido : Pedido J url body _ := ⟨by simpa using hparam, hcampos, rfl⟩
        obtain ⟨r, rest, rfl, hx⟩ := exec_clienteServiceFindOne h
        cases hr : firstRecord r with
        | none =>
          rw [hr] at hx
          cases hx
          exact .semConta pedido hr
        | some record =>
          have lido : (firstRecord r).map clienteDe = some (clienteDe record) := by rw [hr]; rfl
          rw [hr] at hx
          simp only [Option.map_some] at hx
          split at hx
          · cases hx
            exact .excedido pedido lido ‹_›
          · rename_i hlimite
            obtain ⟨taken, rest, rfl, hsend⟩ := Prog.exec_send.mp hx
            have aceito : Aceito J url body r _ _ := ⟨pedido, lido, by simpa using hlimite⟩
            cases taken with
            | true =>
              obtain ⟨rfl, hresp⟩ := Prog.exec_done.mp hsend
              obtain rfl := Option.some.inj hresp
              exact .enviado aceito true
            | false =>
              obtain ⟨rfl, hresp⟩ := Prog.exec_done.mp hsend
              obtain rfl := Option.some.inj hresp
              exact .enviado aceito false

theorem percurso_get {url : Bytes} {agora : Nat}
    (h : (clienteControllerFindById url (R.isoStr agora)).Exec attempts (some resp)) :
    Percurso J R (.get url agora) attempts resp := by
  simp only [clienteControllerFindById] at h
  split at h
  · rename_i hparam
    obtain ⟨r, rest, rfl, hx⟩ := exec_clienteServiceFindOne h
    cases hr : firstRecord r with
    | none =>
      rw [hr] at hx
      cases hx
      exact .semExtrato agora hparam hr
    | some record =>
      rw [hr] at hx
      obtain ⟨r', rest, rfl, hlist⟩ := exec_transacaoServiceFindLast10 hx
      cases hlist
      exact .extrato agora hparam (by rw [hr]; rfl)
  · rename_i hparam
    cases h
    exact .idInvalido agora (by simpa using hparam)

theorem handler_percurso {req : Requisicao} (h : (handler J R req).Exec attempts (some resp)) :
    Percurso J R req attempts resp := by
  cases req with
  | post url body => exact percurso_post h
  | get url agora => exact percurso_get h

end

end Crinha
