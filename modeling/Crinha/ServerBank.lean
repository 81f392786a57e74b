import Crinha.Segmentation
import Crinha.Servers
import Crinha.SingleProcess

/-!
# The server as a bank

* `server_bank`: a server that has come to rest has served all its calls as a bank;
* `server_bank_messages`: it has answered each message on its socket.
-/

namespace Crinha
open Pipeline CString Accounts Slots

/-! ## One message on a connection -/

section
variable {α σ : Type} {L : Llhttp σ} {parser : Parser σ UInt8} {call : RouterCall UInt8}

/-- What is still to come takes the machine to the state `s`. -/
def Termina (L : Llhttp σ) (parser : Parser σ UInt8) (rest : Bytes) (s : σ) : Prop :=
  ∃ r, readMessage L parser.state rest = some r ∧ r.state = s

theorem parse_part_state {buffer rest : Bytes} {s : σ} (hrest : rest ≠ [])
    (h : Falta L parser (buffer ++ rest) call) (ht : Termina L parser (buffer ++ rest) s) :
    Termina L (httpParserParse L parser buffer).1 rest s := by
  obtain ⟨r, hr, rfl⟩ := ht
  obtain ⟨r', hr', rfl⟩ := h.message
  obtain rfl := Option.some.inj (hr.symm.trans hr')
  obtain ⟨r₁, r₂, h₁, h₂, rfl⟩ := readMessage_append hrest hr
  have hc := h.cabe
  simp only [← List.append_assoc] at hc
  obtain ⟨request', hx, _⟩ := @executeFrom_part _ _ _ L buffer { parser with errno := .ok } none
    r₁ h₁ (by simpa only [conteudo_none] using hc.of_append)
  rw [parse_of_ok h.ok, hx]
  exact ⟨r₂, h₂, rfl⟩

theorem parse_message_state {buffer : Bytes} {s : σ} (h : Falta L parser buffer call)
    (ht : Termina L parser buffer s) : (httpParserParse L parser buffer).1.state = s := by
  obtain ⟨r, hr, rfl⟩ := ht
  obtain ⟨r', hr', rfl⟩ := h.message
  obtain rfl := Option.some.inj (hr.symm.trans hr')
  obtain ⟨request', errno, hx, _, _⟩ := @executeFrom_message _ _ _ L buffer
    { parser with errno := .ok } none r hr (by simp) (by simpa only [conteudo_none] using h.cabe)
  rw [parse_of_ok h.ok, hx]

/-- The state in which the next message finds the machine. -/
def entre (L : Llhttp σ) (s : σ) : σ := if L.closed s then L.init else s

theorem reset_state (parser : Parser σ UInt8) :
    (httpParserResetRequest L parser).state = entre L parser.state := by
  unfold httpParserResetRequest entre
  simp only
  split <;> rfl

/-- What a `recv` returns that finds data, less than its buffer has room for. -/
def Recebido.Parcial (segment : Recebido) : Prop :=
  segment.bytes ≠ [] ∧ segment.bytes.length < socketMaxReadBuffer

instance (segment : Recebido) : Decidable segment.Parcial := inferInstanceAs (Decidable (_ ∧ _))

/-- However a message is cut into segments, it comes to one call, at the time of its last. -/
theorem chamadasRead_message {s : σ} {last : Recebido} : ∀ {segments : List Recebido}
    {parser : Parser σ UInt8}, (∀ segment ∈ segments ++ [last], segment.Parcial) →
    Falta L parser ((segments ++ [last]).map Recebido.bytes).flatten call →
    Termina L parser ((segments ++ [last]).map Recebido.bytes).flatten s →
    ∃ parser', Idle parser' ∧ parser'.state = entre L s ∧
      chamadasRead L parser (segments ++ [last]) =
        (parser', [.rota call last.agora last.presente])
  | [], parser, hs, h, ht => by
    have hlt := (hs last (by simp)).2
    simp only [List.nil_append, List.map_cons, List.map_nil, List.flatten_singleton] at h ht
    have hstate := parse_message_state h ht
    obtain ⟨parser₂, hp, hok, hcomplete, rfl⟩ := parse_message h
    rw [hp] at hstate
    refine ⟨httpParserResetRequest L parser₂, idle_reset hok, by rw [reset_state, hstate], ?_⟩
    simp only [List.nil_append, chamadasRead, if_neg (Nat.not_le_of_lt hlt), hp,
      httpParserRequestIsComplete, hcomplete, Bool.and_self, if_true]
  | segment :: segments, parser, hs, h, ht => by
    have hlt := (hs segment (by simp)).2
    have hrest : ((segments ++ [last]).map Recebido.bytes).flatten ≠ [] := by
      simp [(hs last (by simp)).1]
    simp only [List.cons_append, List.map_cons, List.flatten_cons] at h ht
    have ht' := parse_part_state hrest h ht
    obtain ⟨parser₁, hp, h₁⟩ := parse_part hrest h
    rw [hp] at ht'
    obtain ⟨parser', hidle, hstate, heq⟩ := chamadasRead_message
      (fun segment hm => hs segment (List.mem_cons_of_mem _ hm)) h₁ ht'
    refine ⟨parser', hidle, hstate, ?_⟩
    rw [← heq]
    simp only [List.cons_append, chamadasRead, if_neg (Nat.not_le_of_lt hlt), hp,
      httpParserRequestIsComplete, h₁.incomplete, Bool.and_false, Bool.false_eq_true, if_false]

/-- Each of the connections brings one message, in segments that all arrive before `recv` has
no data, and that fits the arrays; and the calls that these messages make. -/
inductive Mensageiras (L : Llhttp σ) : σ → List (α × List Recebido) → List Atendimento → Prop where
  | nil (s : σ) : Mensageiras L s [] []
  | cons {s : σ} {connection : α} {segments : List Recebido} {last : Recebido}
      {r : Leitura σ UInt8} {connections : List (α × List Recebido)} {calls : List Atendimento}
      (filled : ∀ segment ∈ segments ++ [last], segment.Parcial)
      (read : readMessage L s ((segments ++ [last]).map Recebido.bytes).flatten = some r)
      (cabe : Cabe r.url r.body) (rest : Mensageiras L (entre L r.state) connections calls) :
      Mensageiras L s ((connection, segments ++ [last]) :: connections)
        (.rota ⟨L.method r.state, r.url, r.body⟩ last.agora last.presente :: calls)

theorem leituras_messages {s : σ} {connections : List (α × List Recebido)}
    {calls : List Atendimento} (h : Mensageiras L s connections calls) :
    ∀ {parser : Parser σ UInt8}, parser.state = s → Idle parser →
      (chamadasLoop L parser connections).2.map Prod.snd = calls.map fun call => [call] := by
  induction h with
  | nil => exact fun _ _ => rfl
  | cons filled read cabe _ ih =>
    rintro parser rfl hidle
    obtain ⟨parser', hidle', hstate', hcalls⟩ :=
      chamadasRead_message filled (hidle.falta read cabe) ⟨_, read, rfl⟩
    simp only [chamadasLoop, hcalls, List.map_cons, ih hstate' hidle']

end

/-! ## The bank on calls -/

/-- The bank on a call. -/
def Contas.atende (J : Jansson) (b : Contas) (call : Atendimento) :
    Contas × Except Nat (Outcome Int Bytes) :=
  call.requisicao?.elim (b, .error 400) (b.cumpre J)

/-- A call whose peer waits for the answer, whose id fits its array, and whose request asks for
nothing that the schema refuses. -/
def Atendimento.Comum (J : Jansson) : Atendimento → Prop
  | rota call agora presente => presente = true ∧
      ∀ req, call.requisicao? agora = some req → IdCabe req.url ∧ Crinha.Comum J req
  | cheio => False

/-- The text tells the outcome. -/
def Enviada (outcome : Except Nat (Outcome Int Bytes)) (text : Bytes) : Prop :=
  ∃ resp, Relata outcome resp ∧ text = resp.text

section
variable {J : Jansson} {R : Relogio} {d d' : Db} {b : Contas} {n : Nat}

theorem requisicao?_get {call : RouterCall UInt8} {agora : Nat} {req : Requisicao}
    (h : call.method = 1) (hreq : call.requisicao? agora = some req) :
    req = .get call.url agora := by
  unfold RouterCall.requisicao? at hreq
  have hpost : ¬(call.method = httpPost ∧
      routerMatchUrl routeTransacaoSave.url call.url = true) := by
    rw [h]
    exact fun hp => absurd hp.1 (by decide)
  rw [if_neg hpost] at hreq
  split at hreq
  · exact (Option.some.inj hreq).symm
  · cases hreq

theorem comum_get {call : RouterCall UInt8} {agora : Nat} (h : call.method = 1)
    (cabe : IdCabe call.url) : (Atendimento.rota call agora true).Comum J := by
  refine ⟨rfl, fun req hreq => ?_⟩
  rw [requisicao?_url hreq, requisicao?_get h hreq]
  exact ⟨cabe, comum_extrato _ _⟩

theorem lido_get {call : RouterCall UInt8} {agora : Nat} {presente : Bool} (h : call.method = 1) :
    (Atendimento.rota call agora presente).Lido J := by
  intro req hreq
  rw [requisicao?_get h hreq]
  exact nofun

theorem atende_call {call : Atendimento} {o : Option Bytes} (hok : call.Comum J)
    (h : Espera (n + 1) d b) (he : Eval (bancoUnico R) d (atender J R call) o d') :
    ∃ text, o = some text ∧ Enviada (b.atende J call).2 text ∧ Espera n d' (b.atende J call).1 := by
  cases call with
  | cheio => exact hok.elim
  | rota call agora presente =>
    obtain ⟨rfl, hok⟩ := hok
    have hcall : ∀ {o : Option Resposta} {d'},
        Eval (bancoUnico R) d (routerRouteCall J R call agora) o d' →
        ∃ resp, o = some resp ∧ Relata (b.atende J (.rota call agora true)).2 resp ∧
          Espera n d' (b.atende J (.rota call agora true)).1 := by
      intro o d' he
      rw [routerRouteCall_eq] at he
      simp only [Contas.atende, Atendimento.requisicao?]
      cases hreq : call.requisicao? agora with
      | none =>
        rw [hreq] at he
        obtain ⟨rfl, rfl⟩ := eval_done.mp he
        exact ⟨_, rfl, .badRequest, h.next⟩
      | some req =>
        obtain ⟨cabe, hcomum⟩ := hok req hreq
        rw [hreq, Option.elim_some, if_pos cabe] at he
        exact cumpre_request hcomum h he
    obtain ⟨resp, d₁, ⟨hrel, h'⟩, hpure⟩ := Eval.of_bind hcall he
    obtain ⟨rfl, rfl⟩ := eval_done.mp hpure
    exact ⟨_, rfl, ⟨_, hrel, rfl⟩, h'⟩

theorem atende_calls {calls : List Atendimento} {o : Option (List Bytes)}
    (hok : ∀ call ∈ calls, call.Comum J) (h : Espera (calls.length + n) d b)
    (he : Eval (bancoUnico R) d (calls.mapM (atender J R)) o d') :
    ∃ sent, o = some sent ∧ List.Forall₂ Enviada (replay (Contas.atende J) b calls).2 sent ∧
      Espera n d' (replay (Contas.atende J) b calls).1 :=
  Eval.mapM_refines atende_call hok h he

/-- One socket. -/
theorem atende_conexao {c : Int × List Atendimento} {o : Option (Int × List Bytes)}
    (hok : ∀ call ∈ c.2, call.Comum J) (h : Espera (c.2.length + n) d b)
    (he : Eval (bancoUnico R) d (atenderConexao J R c) o d') :
    ∃ result, o = some result ∧ ∃ sent, result = (c.1, sent) ∧
      List.Forall₂ Enviada (replay (Contas.atende J) b c.2).2 sent ∧
      Espera n d' (replay (Contas.atende J) b c.2).1 := by
  obtain ⟨sent, d₁, ⟨hall, hend⟩, hpure⟩ := Eval.of_bind (atende_calls hok h) he
  obtain ⟨rfl, rfl⟩ := eval_done.mp hpure
  exact ⟨_, rfl, sent, rfl, hall, hend⟩

/-- As many texts as calls, on the same socket. -/
def Respondida (c : Int × List Atendimento) (sent : Int × List Bytes) : Prop :=
  sent.1 = c.1 ∧ sent.2.length = c.2.length

/-- Sockets one after another. -/
theorem atende_leituras : ∀ {leituras : List (Int × List Atendimento)} {d d' : Db}
    {b : Contas} {o : Option (List (Int × List Bytes))},
    (∀ call ∈ leituras.flatMap Prod.snd, call.Comum J) →
    Espera ((leituras.flatMap Prod.snd).length + n) d b →
    Eval (bancoUnico R) d (leituras.mapM (atenderConexao J R)) o d' →
    ∃ served, o = some served ∧ List.Forall₂ Respondida leituras served ∧
      List.Forall₂ Enviada (replay (Contas.atende J) b (leituras.flatMap Prod.snd)).2
        (served.flatMap Prod.snd) ∧
      Espera n d' (replay (Contas.atende J) b (leituras.flatMap Prod.snd)).1
  | [], _, _, _, _, _, h, he => by
    obtain ⟨rfl, rfl⟩ := eval_done.mp he
    rw [List.flatMap_nil, List.length_nil, Nat.zero_add] at h
    exact ⟨[], rfl, .nil, .nil, h⟩
  | c :: leituras, d, _, b, _, hok, h, he => by
    rw [List.mapM_cons] at he
    rw [List.flatMap_cons, List.length_append, Nat.add_assoc] at h
    have hok' : ∀ call ∈ c.2, call.Comum J := fun call hm =>
      hok call (List.mem_flatMap.mpr ⟨c, List.mem_cons_self, hm⟩)
    have hlater : ∀ call ∈ leituras.flatMap Prod.snd, call.Comum J := by
      intro call hm
      apply hok
      rw [List.flatMap_cons]
      exact List.mem_append_right _ hm
    obtain ⟨_, d₁, hconexao, hrest⟩ := Eval.of_bind (atende_conexao hok' h) he
    obtain ⟨sent, rfl, hall, h₁⟩ := hconexao
    obtain ⟨served, d₂, ⟨hlengths, hall', hend⟩, hpure⟩ :=
      Eval.of_bind (atende_leituras hlater h₁) hrest
    obtain ⟨rfl, rfl⟩ := eval_done.mp hpure
    rw [List.flatMap_cons, replay_append]
    refine ⟨_, rfl, .cons ⟨rfl, ?_⟩ hlengths, List.rel_append hall hall', hend⟩
    rw [← hall.length_eq, length_replay]

end

/-! ## A server at rest -/

section
variable {σ : Type} {L : Llhttp σ} {J : Jansson} {R : Relogio} {servidor : Servidor σ}
  {tr : List (RotuloServidores Unit σ)} {s : EstadoServidoresUp Unit σ}

/-- The runs of a server on the tables of `init.sql`; its queries are executed when the
database comes to them. -/
abbrev ExecucaoServidor (L : Llhttp σ) (J : Jansson) (R : Relogio) :
    List (RotuloServidores Unit σ) → EstadoServidoresUp Unit σ → Prop :=
  Run (bancoUnico R) (Servidor.loop L J R) (.start Db.init)

abbrev ExecucaoServidorSql (B : Postgres) (L : Llhttp σ) (J : Jansson) (R : Relogio) :
    List (RotuloServidores Unit σ) → EstadoServidoresUp Unit σ → Prop :=
  Run (B.sobre (bancoUnico R)) (Servidor.loop L J R) (.start Db.init)

theorem execucaoServidorSql_iff {B : Postgres} (h : ChamadasLidas L J tr) :
    ExecucaoServidorSql B L J R tr s ↔ ExecucaoServidor L J R tr s :=
  ⟨(B.agree rfl).run loop_meets h.sent, (B.agree_symm rfl).run loop_meets h.sent⟩

theorem chamadasLidas_of_requests (hjob : requests tr = [servidor])
    (lidas : ∀ call ∈ servidor.chamadas L, call.Lido J) : ChamadasLidas L J tr := by
  intro l hl servidor' hj call hcall
  have hm := mem_requests hl hj
  rw [hjob, List.mem_singleton] at hm
  exact lidas call (hm ▸ hcall)

/-- A computed schedule of a server is one of its runs. -/
theorem execucaoServidor_of_play (L : Llhttp σ) (J : Jansson) (R : Relogio)
    (ms : List (Move Unit (Servidor σ) Nat)) (p : EstadoServidoresUp Unit σ → Bool)
    (h : ((State.start Db.init).play (bancoUnico R) (Servidor.loop L J R) ms).map (fun r => p r.2) =
      some true) :
    ∃ tr s, ExecucaoServidor L J R tr s ∧ requests tr = ms.filterMap Move.accept? ∧ p s = true :=
  exists_run_of_requests ms p h

/-- What a server returns, and what the bank is then. -/
theorem servido {B : Postgres} (h : ExecucaoServidorSql B L J R tr s) (rest : AtRest (s.client ()))
    (hjob : requests tr = [servidor]) (lidas : ∀ call ∈ servidor.chamadas L, call.Lido J)
    (comum : ∀ call ∈ servidor.chamadas L, call.Comum J)
    (few : (servidor.chamadas L).length ≤ serialMax) :
    ∃ served, answers tr =
        [((percorre servidor.polls servidor.tabela).2.2, (servidor.leituras L).1, served)] ∧
      List.Forall₂ Respondida (servidor.leituras L).2 served ∧
      List.Forall₂ Enviada (replay (Contas.atende J) Contas.inicial (servidor.chamadas L)).2
        (served.flatMap Prod.snd) ∧
      Representa s.store (replay (Contas.atende J) Contas.inicial (servidor.chamadas L)).1 := by
  have hserve := run_serve
    ((execucaoServidorSql_iff (chamadasLidas_of_requests hjob lidas)).mp h) rest
  rw [hjob] at hserve
  generalize hanswers : answers tr = results at hserve
  generalize hstore : s.store = store at hserve
  have hloop : ∀ {o store}, Eval (bancoUnico R) Db.init (servidor.loop L J R) o store →
      ∃ served, o = some ((percorre servidor.polls servidor.tabela).2.2, (servidor.leituras L).1,
        served) ∧ List.Forall₂ Respondida (servidor.leituras L).2 served ∧
      List.Forall₂ Enviada (replay (Contas.atende J) Contas.inicial (servidor.chamadas L)).2
        (served.flatMap Prod.snd) ∧
      Representa store (replay (Contas.atende J) Contas.inicial (servidor.chamadas L)).1 := by
    intro o store he
    rw [Servidor.loop_calls] at he
    obtain ⟨served, _, ⟨hlengths, hall, hend⟩, hpure⟩ :=
      Eval.of_bind (atende_leituras (n := 0) comum (espera_init few)) he
    obtain ⟨rfl, rfl⟩ := eval_done.mp hpure
    exact ⟨served, rfl, hlengths, hall, hend.representa⟩
  cases hserve with
  | cons he hnil =>
    cases hnil
    obtain ⟨served, hresult, hserved⟩ := hloop he
    obtain rfl := Option.some.inj hresult
    exact ⟨served, rfl, hserved⟩
  | crash he =>
    obtain ⟨_, hresult, _⟩ := hloop he
    cases hresult

theorem fst_respondidas {leituras : List (Int × List Atendimento)}
    {served : List (Int × List Bytes)} (h : List.Forall₂ Respondida leituras served) :
    served.map Prod.fst = leituras.map Prod.fst := by
  induction h with
  | nil => rfl
  | cons hsent _ ih => rw [List.map_cons, List.map_cons, hsent.1, ih]

/-- The poll table of a server, as `poll` and `accept` left it. -/
theorem laco_servidor {sock : Int} {pfds : Pfds}
    (hinit : servidor.tabela = pollPush ⟨pollInit pfds, 0⟩ sock)
    (contract : Contrato sock [] servidor.tabela servidor.polls) :
    Laco sock (percorre servidor.polls servidor.tabela).1 .poll
      (percorre servidor.polls servidor.tabela).2.2 := by
  rw [hinit] at contract ⊢
  have h := laco_percorre (.start pfds) contract
  rwa [List.append_nil] at h

/-- Sockets with one call each are answered with one text. -/
theorem enviada_singles {calls : List Atendimento} :
    ∀ {leituras : List (Int × List Atendimento)} {served : List (Int × List Bytes)}
      {outcomes : List (Except Nat (Outcome Int Bytes))},
      leituras.map Prod.snd = calls.map (fun call => [call]) →
      List.Forall₂ Respondida leituras served →
      List.Forall₂ Enviada outcomes (served.flatMap Prod.snd) →
      List.Forall₂ (fun outcome sent => ∃ text, sent.2 = [text] ∧ Enviada outcome text) outcomes
        served := by
  induction calls with
  | nil =>
    intro leituras served outcomes hcalls hlengths hall
    obtain rfl := List.map_eq_nil_iff.mp hcalls
    cases hlengths
    cases hall
    exact .nil
  | cons call calls ih =>
    intro leituras served outcomes hcalls hlengths hall
    cases hlengths with
    | nil => cases hcalls
    | @cons c sent leituras served hsent hlengths =>
      rw [List.map_cons, List.map_cons, List.cons.injEq] at hcalls
      obtain ⟨hcall, hcalls⟩ := hcalls
      rw [Respondida, hcall, List.length_singleton] at hsent
      obtain ⟨text, htext⟩ := List.length_eq_one_iff.mp hsent.2
      rw [List.flatMap_cons, htext] at hall
      cases hall with
      | cons htold hall => exact .cons ⟨text, htext, htold⟩ (ih hcalls hlengths hall)

end

/-! ## An extrato -/

/-- Socket 4 is accepted, and then brings an extrato in two segments. -/
def servidorExtrato : Servidor GetState where
  polls := [.ready ⟨dadosEm 0, 4, fun _ => []⟩,
    .ready ⟨dadosEm 1, -1, fun _ => [⟨ascii "GET /clientes/1/ext", 0, true⟩] ++
      [⟨ascii "rato HTTP/1.1\r\n\r\n", 1, true⟩]⟩]
  tabela := ociosa
  parser := httpParserInit getMachine .zeros .zeros

/-- The call that it makes. -/
def chamadaExtrato : Atendimento := .rota ⟨1, ascii "/clientes/1/extrato", []⟩ 1 true

theorem chamadas_extrato : servidorExtrato.chamadas getMachine = [chamadaExtrato] := by
  decide +kernel

theorem lido_extrato {call : Atendimento} (h : call ∈ [chamadaExtrato]) : call.Lido .semTipo := by
  obtain rfl := List.mem_singleton.mp h
  exact lido_get rfl

theorem comum_chamadaExtrato {call : Atendimento} (h : call ∈ [chamadaExtrato]) :
    call.Comum .semTipo := by
  obtain rfl := List.mem_singleton.mp h
  exact comum_get rfl (by decide)

theorem exists_extrato_servido : ∃ (tr : List (RotuloServidores Unit GetState))
    (s : EstadoServidoresUp Unit GetState),
    ExecucaoServidorSql .estrito getMachine .semTipo .parado tr s ∧ AtRest (s.client ()) ∧
      requests tr = [servidorExtrato] := by
  obtain ⟨tr, s, h, hjob, hs⟩ := execucaoServidor_of_play getMachine .semTipo .parado
    [.accept () servidorExtrato, .go (), .go (), .go ()]
    (fun s => (s.client ()).inFlight.isEmpty && (s.client ()).job.isNone) (by decide +kernel)
  simp only [Bool.and_eq_true, List.isEmpty_iff, Option.isNone_iff_eq_none] at hs
  have lidas : ChamadasLidas getMachine .semTipo tr := chamadasLidas_of_requests hjob
    fun call hm => lido_extrato (chamadas_extrato ▸ hm)
  exact ⟨tr, s, (execucaoServidorSql_iff lidas).mpr h, ⟨hs.1, by simp [hs.2]⟩, hjob⟩

theorem contrato_extrato : Contrato 3 [] servidorExtrato.tabela servidorExtrato.polls := by
  refine ⟨by decide +kernel, ?_, by decide +kernel, ?_, trivial⟩
  · exact fun _ => ⟨by decide, Finset.notMem_empty _⟩
  · exact fun ha => absurd ha (by decide)

end Crinha
