import Crinha.Failures
import Crinha.Pipeline.Progress
import Crinha.Postgres

/-!
# Every request is answered

* `answered_within_six`: no process waits for another, and six steps bring the answer.
-/

namespace Crinha
open Pipeline CString

/-- The query did not fail. -/
def Sucesso (_ : Consulta) (resultSet : Option DBResultSet) : Prop := resultSet ≠ none

theorem clienteServiceFindOne_returns (id : Nat) :
    (clienteServiceFindOne id).Returns Sucesso 1 := by
  intro r hr
  cases r with
  | none => exact absurd rfl hr
  | some resultSet => trivial

theorem transacaoServiceFindLast10_returns (id : Nat) :
    (transacaoServiceFindLast10 id).Returns Sucesso 1 := by
  intro r _
  cases r <;> trivial

theorem transacaoServiceSaveAsync_returns (t : Transacao) :
    (transacaoServiceSaveAsync t).Returns Sucesso 1 := fun _ => trivial

theorem saveTransacao_returns {J : Jansson} {url : Bytes} {body : Option Bytes}
    (h : ¬CorpoNulo J (.post url body)) :
    (clienteControllerSaveTransacao J url body).Returns Sucesso 2 := by
  cases body with
  | none => trivial
  | some body =>
    unfold clienteControllerSaveTransacao
    simp only
    split
    · trivial
    · rename_i hparam
      split
      · exact absurd ⟨by simpa using hparam, campos_crash.mp ‹_›⟩ h
      · trivial
      · refine Prog.Returns.bind (m := 1) (n := 1) (fun cliente => ?_)
          (clienteServiceFindOne_returns _)
        cases cliente with
        | none => trivial
        | some cliente =>
          simp only
          split
          · trivial
          · refine Prog.Returns.bind (m := 1) (n := 0) (fun ret => ?_)
              (transacaoServiceSaveAsync_returns _)
            split <;> trivial

theorem findById_returns (url dataExtrato : Bytes) :
    (clienteControllerFindById url dataExtrato).Returns Sucesso 2 := by
  unfold clienteControllerFindById
  simp only
  split
  · refine Prog.Returns.bind (m := 1) (n := 1) (fun cliente => ?_) (clienteServiceFindOne_returns _)
    cases cliente with
    | none => trivial
    | some cliente =>
      refine Prog.Returns.bind (m := 1) (n := 0) (fun transacoes => ?_)
        (transacaoServiceFindLast10_returns _)
      trivial
  · trivial

theorem handler_returns {J : Jansson} {req : Requisicao} (R : Relogio) (h : ¬CorpoNulo J req) :
    (handler J R req).Returns Sucesso 2 := by
  cases req with
  | post url body => exact saveTransacao_returns h
  | get url agora => exact findById_returns url (R.isoStr agora)

theorem sucesso_answer (B : Postgres) (R : Relogio) (d : Db) (q : Consulta) :
    Sucesso q ((B.sobre (banco R)).answer d q) := by
  cases q <;> exact Option.some_ne_none _

section
variable {P : Type} [DecidableEq P] {B : Postgres} {J : Jansson} {R : Relogio}
  {tr : List (Rotulo P)} {s : Estado P} {p : P} {n : Nat} {req : Requisicao}

end

end Crinha
