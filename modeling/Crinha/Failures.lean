import Crinha.Pipeline.Outcomes
import Crinha.Body

/-!
# Failures of the database

* `failures_contained`: when a request ends as it should, whatever queries fail.
-/

namespace Crinha
open Pipeline CString

abbrev Tentativa := Attempt Consulta (Option DBResultSet) (List Stmt)

def Requisicao.url : Requisicao → Bytes
  | post url _ => url
  | get url _ => url

/-- The client a request is about. -/
def Requisicao.cliente (req : Requisicao) : Consulta := .cliente (atoi (extractUrlParam req.url))

/-- A POST with a valid id that comes to a `tipo` that is no string. -/
def CorpoNulo (J : Jansson) : Requisicao → Prop
  | .post url (some body) =>
      isIdClienteValido (extractUrlParam url) = true ∧ TipoNulo (J.loads body)
  | _ => False

/-- How a request ends. -/
inductive Desfecho (J : Jansson) (req : Requisicao) : List Tentativa → Option Resposta → Prop where
  | recusado (resp : Resposta) (refused : resp.status = 400 ∨ resp.status = 422)
      (corpo : ¬CorpoNulo J req) : Desfecho J req [] (some resp)
  | corpoNulo (corpo : CorpoNulo J req) : Desfecho J req [] none
  | falhou (corpo : ¬CorpoNulo J req) : Desfecho J req [.asked req.cliente none] none
  | semLinha (resultSet : DBResultSet) (empty : resultSet.records = []) (corpo : ¬CorpoNulo J req) :
      Desfecho J req [.asked req.cliente (some resultSet)] (some .notFound)
  | excedido (resultSet : DBResultSet) (corpo : ¬CorpoNulo J req) :
      Desfecho J req [.asked req.cliente (some resultSet)] (some .unprocessableEntity)
  | enviado (resultSet : DBResultSet) (query : List Stmt) (json : Json) (corpo : ¬CorpoNulo J req) :
      Desfecho J req [.asked req.cliente (some resultSet), .tried query true] (some (.ok json))
  | naoEnviado (resultSet : DBResultSet) (query : List Stmt) (corpo : ¬CorpoNulo J req) :
      Desfecho J req [.asked req.cliente (some resultSet), .tried query false]
        (some .unprocessableEntity)
  | extrato (resultSet : DBResultSet) (ultimas : Consulta) (r : Option DBResultSet) (json : Json)
      (corpo : ¬CorpoNulo J req) :
      Desfecho J req [.asked req.cliente (some resultSet), .asked ultimas r] (some (.ok json))

/-! ## How the functions end -/

section
variable {past : List Tentativa}

/-- A failed query crashes it. -/
theorem clienteServiceFindOne_ends (id : Nat) :
    (clienteServiceFindOne id).Ends
      (fun attempts result => ∃ r, attempts = past ++ [.asked (.cliente id) r] ∧
        result = r.map fun resultSet => resultSet.records.head?.map clienteDe) past := by
  intro r
  cases r with
  | none => exact ⟨none, rfl, rfl⟩
  | some resultSet => exact ⟨some resultSet, rfl, rfl⟩

/-- A failed query does not show. -/
theorem transacaoServiceFindLast10_ends (id : Nat) :
    (transacaoServiceFindLast10 id).Ends
      (fun attempts result => ∃ r transacoes, attempts = past ++ [.asked (.ultimas id) r] ∧
        result = some transacoes) past := by
  intro r
  cases r with
  | none => exact ⟨none, _, rfl, rfl⟩
  | some resultSet => exact ⟨some resultSet, _, rfl, rfl⟩

theorem transacaoServiceSaveAsync_ends (t : Transacao) :
    (transacaoServiceSaveAsync t).Ends
      (fun attempts result => ∃ taken, attempts = past ++ [.tried (insertStmts t) taken] ∧
        result = some taken) past :=
  fun taken => ⟨taken, rfl, rfl⟩

end

/-! ## How the handlers end -/

section
variable (J : Jansson) (R : Relogio)

/-- How a handler ends that first reads the client of its request. -/
theorem findOne_ends {req : Requisicao} {f : Option Cliente → DbProg Resposta}
    (corpo : ¬CorpoNulo J req) (hnone : f none = .done .notFound)
    (hsome : ∀ cliente resultSet,
      (f (some cliente)).Ends (Desfecho J req) [.asked req.cliente (some resultSet)]) :
    (clienteServiceFindOne (atoi (extractUrlParam req.url)) >>= f).Ends (Desfecho J req) [] := by
  refine Prog.Ends.bind ?_ ?_ (clienteServiceFindOne_ends _)
  · intro attempts cliente h
    obtain ⟨r, rfl, hr⟩ := h
    obtain ⟨resultSet, rfl, hrecords⟩ := Option.map_eq_some_iff.mp hr.symm
    cases cliente with
    | none =>
      rw [hnone]
      exact .semLinha resultSet (by simpa using hrecords) corpo
    | some cliente => exact hsome cliente resultSet
  · intro attempts h
    obtain ⟨r, rfl, hr⟩ := h
    obtain rfl := Option.map_eq_none_iff.mp hr.symm
    exact .falhou corpo

theorem saveTransacao_ends (url : Bytes) (body : Option Bytes) :
    (clienteControllerSaveTransacao J url body).Ends (Desfecho J (.post url body)) [] := by
  cases body with
  | none => exact .recusado _ (.inl rfl) id
  | some body =>
    by_cases hid : isIdClienteValido (extractUrlParam url) = true
    · cases hc : campos J body with
      | none =>
        rw [saveTransacao_crash hid hc]
        exact .corpoNulo ⟨hid, campos_crash.mp hc⟩
      | some accept =>
        have corpo : ¬CorpoNulo J (.post url (some body)) := by
          intro hcorpo
          rw [campos_crash.mpr hcorpo.2] at hc
          cases hc
        cases accept with
        | false =>
          rw [saveTransacao_refuse hid hc]
          exact .recusado _ (.inr rfl) corpo
        | true =>
          simp only [campos] at hc
          simp only [clienteControllerSaveTransacao, hid, hc, Bool.not_true, Bool.false_eq_true,
            if_false]
          apply findOne_ends J corpo rfl
          intro cliente resultSet
          simp only
          split
          · exact .excedido resultSet corpo
          · refine Prog.Ends.bind ?_ ?_ (transacaoServiceSaveAsync_ends _)
            · intro attempts ret h
              obtain ⟨taken, rfl, hret⟩ := h
              obtain rfl := Option.some.inj hret
              cases ret with
              | true => exact .enviado resultSet _ _ corpo
              | false => exact .naoEnviado resultSet _ corpo
            · intro attempts h
              obtain ⟨_, _, hret⟩ := h
              cases hret
    · rw [saveTransacao_badId (Bool.eq_false_iff.mpr hid)]
      exact .recusado _ (.inr rfl) fun corpo => hid corpo.1

theorem findById_ends (url : Bytes) (agora : Nat) :
    (clienteControllerFindById url (R.isoStr agora)).Ends (Desfecho J (.get url agora)) [] := by
  have corpo : ¬CorpoNulo J (.get url agora) := id
  unfold clienteControllerFindById
  simp only
  split
  · apply findOne_ends J corpo rfl
    intro cliente resultSet
    refine Prog.Ends.bind ?_ ?_ (transacaoServiceFindLast10_ends _)
    · intro attempts transacoes h
      obtain ⟨r, _, rfl, _⟩ := h
      exact .extrato resultSet _ r _ corpo
    · intro attempts h
      obtain ⟨_, _, _, hresult⟩ := h
      cases hresult
  · exact .recusado _ (.inl rfl) corpo

/-- Every run of a request ends in one of these ways. -/
theorem handler_ends {req : Requisicao} {attempts : List Tentativa} {result : Option Resposta}
    (h : (handler J R req).Exec attempts result) : Desfecho J req attempts result := by
  cases req with
  | post url body => exact Prog.ends_iff.mp (saveTransacao_ends J url body) _ _ h
  | get url agora => exact Prog.ends_iff.mp (findById_ends J R url agora) _ _ h

end

/-! ## Containment -/

/-- A response is returned; it is 404 only if the client's query had no row, and 200
only if every query succeeded. -/
structure Contida (req : Requisicao) (attempts : List Tentativa) (result : Option Resposta) :
    Prop where
  returns : ∃ resp, result = some resp
  notFound : ∀ resp, result = some resp → resp.status = 404 →
    ∃ resultSet, .asked req.cliente (some resultSet) ∈ attempts ∧ resultSet.records = []
  ok : ∀ resp, result = some resp → resp.status = 200 →
    (∀ q, .asked q none ∉ attempts) ∧ ∀ query, .tried query false ∉ attempts

section
variable {J : Jansson} {R : Relogio} {req : Requisicao} {attempts : List Tentativa}
  {result : Option Resposta}

theorem Contida.of_some {resp : Resposta}
    (notFound : resp.status = 404 →
      ∃ resultSet, .asked req.cliente (some resultSet) ∈ attempts ∧ resultSet.records = [])
    (ok : resp.status = 200 →
      (∀ q, .asked q none ∉ attempts) ∧ ∀ query, .tried query false ∉ attempts) :
    Contida req attempts (some resp) where
  returns := ⟨resp, rfl⟩
  notFound := fun _ he => Option.some.inj he ▸ notFound
  ok := fun _ he => Option.some.inj he ▸ ok

/-- Without a failed query, what is not a crash of the checks is as it should be. -/
theorem Desfecho.contida (h : Desfecho J req attempts result) (corpo : ¬CorpoNulo J req)
    (hno : ∀ q, .asked q none ∉ attempts) : Contida req attempts result := by
  cases h with
  | recusado resp refused => exact .of_some (by omega) (by omega)
  | corpoNulo hn => exact absurd hn corpo
  | falhou => exact absurd List.mem_cons_self (hno _)
  | semLinha resultSet empty =>
    have hempty : ∃ resultSet', Attempt.asked req.cliente (some resultSet') ∈
        [(Attempt.asked req.cliente (some resultSet) : Tentativa)] ∧ resultSet'.records = [] :=
      ⟨resultSet, List.mem_cons_self, empty⟩
    exact .of_some (fun _ => hempty) (fun hs => by cases hs)
  | excedido resultSet =>
    exact .of_some (fun hs => by cases hs) (fun hs => by cases hs)
  | enviado resultSet query json =>
    exact .of_some (fun hs => by cases hs) (fun _ => ⟨hno, by simp⟩)
  | naoEnviado resultSet query =>
    exact .of_some (fun hs => by cases hs) (fun hs => by cases hs)
  | extrato resultSet ultimas r json =>
    exact .of_some (fun hs => by cases hs) (fun _ => ⟨hno, by simp⟩)

/-- A failed query crashes the handler or is answered 200. -/
theorem Desfecho.failed (h : Desfecho J req attempts result) {q : Consulta}
    (hq : .asked q none ∈ attempts) : result = none ∨ ∃ json, result = some (.ok json) := by
  cases h with
  | recusado | corpoNulo => cases hq
  | falhou => exact .inl rfl
  | semLinha | excedido | enviado | naoEnviado => simp at hq
  | extrato resultSet ultimas r json => exact .inr ⟨json, rfl⟩

/-- **Failures are contained**, whatever the outcomes of the database calls, exactly if
no query fails and the checks do not come to a `tipo` that is no string. -/
theorem failures_contained (h : (handler J R req).Exec attempts result) :
    Contida req attempts result ↔ ¬CorpoNulo J req ∧ ∀ q, .asked q none ∉ attempts := by
  have hends := handler_ends J R h
  constructor
  · intro hc
    obtain ⟨resp, hresp⟩ := hc.returns
    refine ⟨?_, ?_⟩
    · intro corpo
      cases hends with
      | corpoNulo => cases hresp
      | recusado _ _ hn | falhou hn | semLinha _ _ hn | excedido _ hn | enviado _ _ _ hn
      | naoEnviado _ _ hn | extrato _ _ _ _ hn => exact hn corpo
    · intro q hq
      rcases hends.failed hq with rfl | ⟨json, rfl⟩
      · cases hresp
      · exact (hc.ok _ rfl rfl).1 q hq
  · intro h
    exact hends.contida h.1 h.2

end

/-- The extrato of client 9, for whom there is no row. -/
theorem failures_contained_semLinha :
    Contida (.get (ascii "/clientes/9/extrato") 0) [.asked (.cliente 9) (some ⟨[]⟩)]
      (some .notFound) := by
  have h : (handler Jansson.semTipo .parado (.get (ascii "/clientes/9/extrato") 0)).Exec
      [.asked (.cliente 9) (some ⟨[]⟩)] (some .notFound) := .query (.done _)
  exact (failures_contained h).mpr ⟨id, by simp⟩

/-- The first query of an extrato fails: a crash. The second fails: the answer is 200. -/
theorem failures_uncontained :
    (handler Jansson.semTipo .parado (.get (ascii "/clientes/1/extrato") 0)).Exec
      [.asked (.cliente 1) none] none ∧
    ∃ resultSet json,
      (handler Jansson.semTipo .parado (.get (ascii "/clientes/1/extrato") 0)).Exec
        [.asked (.cliente 1) (some resultSet), .asked (.ultimas 1) none] (some (.ok json)) :=
  ⟨.query .halt, ⟨[ClienteRow.record ⟨1, 100000, 0⟩]⟩, _, .query (.query (.done _))⟩

end Crinha
