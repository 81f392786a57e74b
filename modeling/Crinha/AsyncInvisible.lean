import Mathlib.Data.List.TakeWhile
import Crinha.Pipeline.Sync
import Crinha.Postgres

/-!
# One process: the asynchronous write cannot be seen

* `async_invisible`: a single client is served as if each query were executed when it is sent;
* `async_visible`: with a clock that is set back, an extrato may show when it was.
-/

namespace Crinha
open Pipeline CString

/-! ## Up to time stamps -/

mutual
/-- The value without its time stamps. -/
def Json.semHora : Json → Json
  | .array l => .array (semHoraList l)
  | .object members => .object (semHoraMembers members)
  | j => j

def Json.semHoraList : List Json → List Json
  | [] => []
  | j :: l => j.semHora :: semHoraList l

def Json.semHoraMembers : List (String × Json) → List (String × Json)
  | [] => []
  | (key, j) :: members =>
    (key, if key = "data_extrato" ∨ key = "realizada_em" then .null else j.semHora) ::
      semHoraMembers members
end

def Resposta.semHora : Resposta → Resposta
  | ok json => ok json.semHora
  | resp => resp

def TransacaoRow.semHora (r : TransacaoRow) : TransacaoRow := { r with realizadaEm := 0 }

def Db.semHora (d : Db) : Db := { d with transacao := d.transacao.map TransacaoRow.semHora }

def Requisicao.semHora : Requisicao → Requisicao
  | get url _ => get url 0
  | req => req

/-- The clock has moved on since the last row. -/
def Db.depois (d : Db) (agora : Nat) : Prop := ∀ r ∈ d.transacao, r.realizadaEm < agora

/-- A database whose `current_timestamp` is assumed to move on from one transaction to the
next. Otherwise the order of the rows in an extrato need not be that of the commits
(`async_visible`). -/
def bancoUnico (R : Relogio) : Store Db Consulta (Option DBResultSet) (List Stmt) Nat :=
  { banco R with tick := Db.depois }

instance (R : Relogio) (d : Db) (t : Nat) : Decidable ((bancoUnico R).tick d t) :=
  inferInstanceAs (Decidable (∀ _ ∈ _, _))

/-- The runs of a single process on the tables of `init.sql`. -/
abbrev ExecucaoUnica (J : Jansson) (R : Relogio) : List (Rotulo Unit) → Estado Unit → Prop :=
  Run (bancoUnico R) (handler J R) (.start Db.init)

theorem execucaoUnica_of_play (J : Jansson) (R : Relogio) (ms : List (Move Unit Requisicao Nat))
    (p : List (Rotulo Unit) → Estado Unit → Bool)
    (h : ((State.start Db.init).play (bancoUnico R) (handler J R) ms).map (fun r => p r.1 r.2) =
      some true) : ∃ tr s, ExecucaoUnica J R tr s ∧ p tr s = true :=
  exists_run_of_play ms p h

/-! ## Similar databases -/

def Db.Ordered (d : Db) : Prop := d.transacao.Pairwise fun a b => a.realizadaEm < b.realizadaEm

/-- Two databases that differ in time stamps only, with the rows in the order of
their times. -/
structure Similares (d d' : Db) : Prop where
  eq : d.semHora = d'.semHora
  ordered : d.Ordered
  ordered' : d'.Ordered

theorem semHora_eq_iff {d d' : Db} : d.semHora = d'.semHora ↔ d.cliente = d'.cliente ∧
    d.transacao.map TransacaoRow.semHora = d'.transacao.map TransacaoRow.semHora ∧
    d.seq = d'.seq := by
  simp only [Db.semHora, Db.mk.injEq]

/-- In the order of their times, the last rows are those inserted last. -/
theorem insertionSort_ordered {l : List TransacaoRow}
    (h : l.Pairwise fun a b => a.realizadaEm < b.realizadaEm) :
    l.insertionSort (fun a b => b.realizadaEm ≤ a.realizadaEm) = l.reverse := by
  induction l with
  | nil => rfl
  | cons a l ih =>
    rw [List.pairwise_cons] at h
    have hlate : ∀ b ∈ l.reverse, ¬ b.realizadaEm ≤ a.realizadaEm := fun b hb =>
      Nat.not_le.mpr (h.1 b (List.mem_reverse.mp hb))
    rw [List.insertionSort_cons, ih h.2, List.orderedInsert_eq_take_drop,
      List.takeWhile_eq_self_iff.mpr (by simpa using hlate),
      List.dropWhile_eq_nil_iff.mpr (by simpa using hlate), List.reverse_cons]

theorem ultimas_ordered {d : Db} (h : d.Ordered) (id : Nat) :
    d.ultimas id = ((d.transacao.filter fun r => r.idCliente = id).reverse).take 10 := by
  rw [Db.ultimas, insertionSort_ordered (List.Pairwise.filter _ h)]

theorem semHora_filter (l : List TransacaoRow) (id : Nat) :
    (l.filter fun r => r.idCliente = id).map TransacaoRow.semHora =
      (l.map TransacaoRow.semHora).filter fun r => r.idCliente = id := by
  rw [List.filter_map]
  rfl

theorem Similares.ultimas {d d' : Db} (h : Similares d d') (id : Nat) :
    (d.ultimas id).map TransacaoRow.semHora = (d'.ultimas id).map TransacaoRow.semHora := by
  obtain ⟨_, ht, _⟩ := semHora_eq_iff.mp h.eq
  rw [ultimas_ordered h.ordered, ultimas_ordered h.ordered', List.map_take, List.map_take,
    List.map_reverse, List.map_reverse, semHora_filter, semHora_filter, ht]

/-- Two records with the same fields but the time stamp. -/
def RecordAlike (x y : DBRecord) : Prop :=
  (∀ j ≠ 5, fieldsValue x j = fieldsValue y j) ∧
  ∀ b ∈ fieldsValue x 5 ++ fieldsValue y 5, 0 < b.toNat ∧ b.toNat < 0x80

def ReadsAlike : Option DBResultSet → Option DBResultSet → Prop :=
  Option.Rel fun x y => List.Forall₂ RecordAlike x.records y.records

theorem record_alike (R : Relogio) {r r' : TransacaoRow} (h : r.semHora = r'.semHora) :
    RecordAlike (r.record R.toChar) (r'.record R.toChar) := by
  obtain ⟨i, c, v, t, x, τ⟩ := r
  obtain ⟨i', c', v', t', x', τ'⟩ := r'
  simp only [TransacaoRow.semHora, TransacaoRow.mk.injEq, and_true] at h
  obtain ⟨rfl, rfl, rfl, rfl, rfl⟩ := h
  constructor
  · rintro (_ | _ | _ | _ | _ | _ | j) hj <;> first | rfl | exact absurd rfl hj
  · intro b hb
    rcases List.mem_append.mp hb with hb | hb
    · exact R.toChar_ascii τ b hb
    · exact R.toChar_ascii τ' b hb

theorem record_alike_cliente (c : ClienteRow) : RecordAlike c.record c.record :=
  ⟨fun _ _ => rfl, fun b hb => by simp [fieldsValue, ClienteRow.record] at hb⟩

theorem forall₂_iff_map_eq {α β : Type} {f : α → β} {l l' : List α} :
    List.Forall₂ (fun a a' => f a = f a') l l' ↔ l.map f = l'.map f := by
  rw [← List.forall₂_eq_eq_eq, List.forall₂_map_left_iff, List.forall₂_map_right_iff]

theorem answer_alike (R : Relogio) {d d' : Db} (q : Consulta) (h : Similares d d') :
    ReadsAlike (d.answer R.toChar q) (d'.answer R.toChar q) := by
  cases q with
  | cliente id =>
    obtain ⟨hc, _⟩ := semHora_eq_iff.mp h.eq
    refine .some ?_
    rw [hc]
    exact List.forall₂_same.mpr fun x hx => by
      obtain ⟨c, _, rfl⟩ := List.mem_map.mp hx
      exact record_alike_cliente c
  | ultimas id =>
    refine .some (List.forall₂_map_left_iff.mpr (List.forall₂_map_right_iff.mpr ?_))
    exact (forall₂_iff_map_eq.mpr (h.ultimas id)).imp fun _ _ => record_alike R

/-! ## Statements on similar databases -/

theorem admits_semHora (d : Db) (st : Stmt) : st.Admits d.semHora ↔ st.Admits d := by
  cases st <;> rfl

theorem exec_semHora {d d' : Db} (t t' : Nat) (st : Stmt) (h : d.semHora = d'.semHora) :
    (Db.exec t d st).map Db.semHora = (Db.exec t' d' st).map Db.semHora := by
  have hadm : st.Admits d ↔ st.Admits d' := by rw [← admits_semHora, h, admits_semHora]
  obtain ⟨hcli, htr, hseq⟩ := semHora_eq_iff.mp h
  unfold Db.exec
  by_cases ha : st.Admits d
  · rw [if_pos ha, if_pos (hadm.mp ha)]
    cases st with
    | updateSaldo op valor id => simp [Db.semHora, Db.update, hcli, hseq, htr]
    | insertTransacao =>
      simp only [hseq]
      split
      · simp [Db.semHora, Db.insert, hcli, hseq, htr, TransacaoRow.semHora]
      · rfl
  · rw [if_neg ha, if_neg (mt hadm.mpr ha)]

theorem run_semHora (t t' : Nat) : ∀ (query : List Stmt) {d d' : Db}, d.semHora = d'.semHora →
    (Db.run t query d).map Db.semHora = (Db.run t' query d').map Db.semHora
  | [], d, d', h => by simpa using h
  | st :: query, d, d', h => by
    have he := exec_semHora t t' st h
    rw [Db.run_cons, Db.run_cons]
    cases h₁ : Db.exec t d st with
    | none =>
      cases h₂ : Db.exec t' d' st with
      | none => rfl
      | some => simp [h₁, h₂] at he
    | some d₁ =>
      cases h₂ : Db.exec t' d' st with
      | none => simp [h₁, h₂] at he
      | some d₂ => exact run_semHora t t' query (by simpa [h₁, h₂] using he)

/-- Rows inserted at a time after all others stay in the order of their times;
within one query the times are equal, but it inserts one row. -/
theorem run_ordered {d d' : Db} {t : Transacao} {agora : Nat} (h : d.Ordered) (hd : d.depois agora)
    (hr : Db.run agora (insertStmts t) d = some d') : d'.Ordered := by
  obtain ⟨_, _, rfl⟩ := run_insertStmts_some hr
  exact List.pairwise_append.mpr ⟨h, List.pairwise_singleton _ _, fun r hr r' hr' => by
    obtain rfl := List.mem_singleton.mp hr'
    exact hd r hr⟩

/-- The queries the handlers send. -/
def Enviavel (query : List Stmt) : Prop := ∃ t, query = insertStmts t

theorem similar_bancoUnico (R : Relogio) :
    Similar (bancoUnico R) Enviavel Similares ReadsAlike where
  answer := fun q h => answer_alike R q h
  run := by
    rintro d d' agora agora' _ ⟨t, rfl⟩ h tick tick'
    have he := run_semHora agora agora' (insertStmts t) h.eq
    show Similares ((Db.run agora (insertStmts t) d).getD d)
      ((Db.run agora' (insertStmts t) d').getD d')
    cases h₁ : Db.run agora (insertStmts t) d with
    | none =>
      cases h₂ : Db.run agora' (insertStmts t) d' with
      | none => exact h
      | some => simp [h₁, h₂] at he
    | some d₁ =>
      cases h₂ : Db.run agora' (insertStmts t) d' with
      | none => simp [h₁, h₂] at he
      | some d₂ =>
        exact ⟨by simpa [h₁, h₂] using he, run_ordered h.ordered tick h₁,
          run_ordered h.ordered' tick' h₂⟩

/-! ## Handlers on alike answers -/

/-- Two transactions with the same fields but the time stamp, which is text. -/
structure TransacaoAlike (t t' : Transacao) : Prop where
  eq : { t with realizadaEm := [] } = { t' with realizadaEm := [] }
  text : Utf8.valid t.realizadaEm = true
  text' : Utf8.valid t'.realizadaEm = true

theorem transacaoDe_alike {x y : DBRecord} (h : RecordAlike x y) :
    TransacaoAlike (transacaoDe x) (transacaoDe y) := by
  obtain ⟨hj, ht⟩ := h
  refine ⟨?_, valid_copied (fun b hb => ht b (List.mem_append_left _ hb)) _,
    valid_copied (fun b hb => ht b (List.mem_append_right _ hb)) _⟩
  simp only [transacaoDe, hj 0 (by decide), hj 1 (by decide), hj 2 (by decide), hj 3 (by decide),
    hj 4 (by decide)]

theorem clienteDe_alike {x y : DBRecord} (h : RecordAlike x y) : clienteDe x = clienteDe y := by
  simp only [clienteDe, h.1 0 (by decide), h.1 1 (by decide), h.1 2 (by decide)]

theorem clienteServiceFindOne_alike (id : Nat) :
    (clienteServiceFindOne id).Alike Enviavel ReadsAlike (· = ·) (clienteServiceFindOne id) := by
  refine ⟨rfl, fun r r' hr => ?_⟩
  cases hr with
  | none => trivial
  | @some x y h =>
    show (firstRecord (some x)).map clienteDe = (firstRecord (some y)).map clienteDe
    obtain ⟨l⟩ := x
    obtain ⟨l'⟩ := y
    cases h with
    | nil => rfl
    | cons h _ => exact congrArg some (clienteDe_alike h)

theorem transacaoServiceFindLast10_alike (id : Nat) :
    (transacaoServiceFindLast10 id).Alike Enviavel ReadsAlike (List.Forall₂ TransacaoAlike)
      (transacaoServiceFindLast10 id) := by
  refine ⟨rfl, fun r r' hr => ?_⟩
  cases hr with
  | none => exact .nil
  | some h =>
    exact List.forall₂_map_left_iff.mpr (List.forall₂_map_right_iff.mpr
      (h.imp fun _ _ => transacaoDe_alike))

theorem buildJsonTransacao_alike {t t' : Transacao} (h : TransacaoAlike t t') :
    (buildJsonTransacao t).map Json.semHora = (buildJsonTransacao t').map Json.semHora := by
  obtain ⟨heq, ht, ht'⟩ := h
  obtain ⟨i, c, v, tipo, x, τ⟩ := t
  obtain ⟨i', c', v', tipo', x', τ'⟩ := t'
  simp only [Transacao.mk.injEq, and_true] at heq
  obtain ⟨rfl, rfl, rfl, rfl, rfl⟩ := heq
  unfold buildJsonTransacao
  simp only [packStr, show Utf8.valid τ = true from ht, show Utf8.valid τ' = true from ht']
  by_cases h₁ : Utf8.valid tipo = true <;> by_cases h₂ : Utf8.valid x = true <;>
    simp [h₁, h₂, Json.semHora, Json.semHoraMembers]

theorem buildJsonTransacoes_alike {l l' : List Transacao} (h : List.Forall₂ TransacaoAlike l l') :
    (buildJsonTransacoes l).semHora = (buildJsonTransacoes l').semHora := by
  simp only [buildJsonTransacoes, Json.semHora, Json.array.injEq]
  induction h with
  | nil => rfl
  | @cons t t' l l' ht _ ih =>
    have he := buildJsonTransacao_alike ht
    cases h₁ : buildJsonTransacao t <;> cases h₂ : buildJsonTransacao t' <;>
      simp_all [Json.semHoraList]

theorem buildJsonSaldoData_alike (R : Relogio) (agora agora' : Nat) (cliente : Cliente) :
    (buildJsonSaldoData (R.isoStr agora) cliente).map Json.semHora =
      (buildJsonSaldoData (R.isoStr agora') cliente).map Json.semHora := by
  have hv (t : Nat) : Utf8.valid (R.isoStr t) = true :=
    Utf8.valid_ascii fun b hb => (R.isoStr_ascii t b hb).2
  simp [buildJsonSaldoData, packStr, hv, Json.semHora, Json.semHoraMembers]

theorem buildJsonExtrato_alike {j j' : Option Json} {l l' : Json}
    (hj : j.map Json.semHora = j'.map Json.semHora) (hl : l.semHora = l'.semHora) :
    (buildJsonExtrato j (some l)).semHora = (buildJsonExtrato j' (some l')).semHora := by
  cases j <;> cases j' <;> simp_all [buildJsonExtrato, Json.semHora, Json.semHoraMembers]

theorem saveTransacao_alike (J : Jansson) (url : Bytes) (body : Option Bytes) :
    (clienteControllerSaveTransacao J url body).Alike Enviavel ReadsAlike
      (fun a a' => a.semHora = a'.semHora) (clienteControllerSaveTransacao J url body) := by
  cases body with
  | none => rfl
  | some body =>
    unfold clienteControllerSaveTransacao
    simp only
    split
    · rfl
    · split
      · trivial
      · rfl
      · refine Prog.Alike.bind ?_ _ _ (clienteServiceFindOne_alike _)
        rintro cliente _ rfl
        cases cliente with
        | none => rfl
        | some cliente =>
          simp only
          split
          · rfl
          · exact ⟨rfl, ⟨_, rfl⟩, by rintro (_ | _) <;> rfl⟩

theorem findById_alike (R : Relogio) (url : Bytes) (agora agora' : Nat) :
    (clienteControllerFindById url (R.isoStr agora)).Alike Enviavel ReadsAlike
      (fun a a' => a.semHora = a'.semHora) (clienteControllerFindById url (R.isoStr agora')) := by
  unfold clienteControllerFindById
  simp only
  split
  · refine Prog.Alike.bind ?_ _ _ (clienteServiceFindOne_alike _)
    rintro cliente _ rfl
    cases cliente with
    | none => rfl
    | some cliente =>
      refine Prog.Alike.bind ?_ _ _ (transacaoServiceFindLast10_alike _)
      intro l l' hl
      exact congrArg Resposta.ok (buildJsonExtrato_alike (buildJsonSaldoData_alike R _ _ _)
        (buildJsonTransacoes_alike hl))
  · rfl

/-- Handlers of requests that differ at most in the time of an extrato act alike. -/
theorem handler_alike (J : Jansson) (R : Relogio) {req req' : Requisicao}
    (h : req.semHora = req'.semHora) :
    (handler J R req).Alike Enviavel ReadsAlike (fun a a' => a.semHora = a'.semHora)
      (handler J R req') := by
  cases req with
  | post url body =>
    cases req' with
    | post =>
      obtain ⟨rfl, rfl⟩ := Requisicao.post.inj h
      exact saveTransacao_alike J url body
    | get => cases h
  | get url agora =>
    cases req' with
    | post => cases h
    | get =>
      obtain ⟨rfl, _⟩ := Requisicao.get.inj h
      exact findById_alike R url _ _

/-! ## The result -/

theorem similares_init : Similares Db.init Db.init := ⟨rfl, .nil, .nil⟩

variable {J : Jansson} {R : Relogio} {tr : List (Rotulo Unit)} {s : Estado Unit}

/-- A run over a clock that moves on is a run. -/
theorem execucao_of_unica (h : ExecucaoUnica J R tr s) : Execucao J R tr s :=
  (⟨rfl, fun _ => trivial, fun _ _ _ => rfl⟩ : Agree (bancoUnico R) (banco R) fun _ => True).run
    (handler_meets J R) (fun _ => trivial) h

/-- **The asynchronous write is invisible to a single client.** A run of one process
that has come to rest is a service in which every query is executed at once. On the way,
no second query is ever in flight, and each read is answered from a state in which all
queries sent before it have been executed. If the clock of the database moves on from one
transaction to the next, any other such service of the same requests gives the same
answers and tables up to time stamps. -/
theorem async_invisible (h : Execucao J R tr s) (rest : AtRest (s.client ())) :
    Serve (banco R) (handler J R) Db.init (requests tr) (answers tr) s.store ∧
    (∀ a b, tr = a ++ b → ∃ s₁, Execucao J R a s₁ ∧
      (s₁.client ()).inFlight.length ≤ 1 ∧
      ∀ n q r b', b = ⟨(), n, .read q r⟩ :: b' →
        sendsBy a () = execsBy a () ∧ r = s₁.store.answer R.toChar q) ∧
    (ExecucaoUnica J R tr s →
      ∀ reqs resps d, Serve (bancoUnico R) (handler J R) Db.init reqs resps d →
        reqs.map Requisicao.semHora = (requests tr).map Requisicao.semHora →
        resps.map Resposta.semHora = (answers tr).map Resposta.semHora ∧
          d.semHora = s.store.semHora) := by
  refine ⟨run_serve h rest, fun a b htr => ?_, fun hunica reqs resps d hsync hreqs => ?_⟩
  · subst htr
    cases b with
    | nil => exact ⟨s, by simpa using h, inFlight_le_one h (), by rintro _ _ _ _ ⟨⟩⟩
    | cons l b =>
      obtain ⟨s₁, s₂, h₁, hs, _⟩ := h.split l
      refine ⟨s₁, h₁, inFlight_le_one h₁ (), ?_⟩
      rintro n q r b' hb
      obtain ⟨rfl, rfl⟩ := List.cons.inj hb
      have drained := hs.drained (by simp [Deed.act?])
      exact ⟨by rw [sends_fifo h₁ (), drained, List.append_nil], hs.read_inv.1⟩
  · have hj : List.Forall₂ (fun j j' => j.semHora = j'.semHora) reqs (requests tr) :=
      forall₂_iff_map_eq.mpr hreqs
    obtain ⟨hr, hd⟩ := hsync.alike (similar_bancoUnico R)
      (fun _ _ hr => handler_alike J R hr) (run_serve hunica rest) similares_init hj
    exact ⟨forall₂_iff_map_eq.mp hr, hd.eq⟩

/-- A credit, still in flight when the extrato is asked for. -/
theorem async_invisible_extrato : ∃ (tr : List (Rotulo Unit)) (s : Estado Unit),
    ExecucaoUnica (.pedido 10 (ascii "c") (ascii "pix") (by decide)) .parado tr s ∧
    s.store.saldo 1 = some 10 ∧ (answers tr).length = 2 ∧
    Serve (banco .parado) (handler (.pedido 10 (ascii "c") (ascii "pix") (by decide)) .parado)
      Db.init (requests tr) (answers tr) s.store ∧
    ∀ reqs resps d, Serve (bancoUnico .parado)
      (handler (.pedido 10 (ascii "c") (ascii "pix") (by decide)) .parado) Db.init reqs resps d →
      reqs.map Requisicao.semHora = (requests tr).map Requisicao.semHora →
      resps.map Resposta.semHora = (answers tr).map Resposta.semHora ∧
        d.semHora = s.store.semHora := by
  obtain ⟨tr, s, h, hs⟩ := execucaoUnica_of_play
    (.pedido 10 (ascii "c") (ascii "pix") (by decide)) .parado
    [.accept () (.post (ascii "/clientes/1/transacoes")
        (some (pedidoTexto 10 (ascii "c") (ascii "pix")))),
      .go (), .go (), .go (), .accept () (.get (ascii "/clientes/1/extrato") 0), .exec () 0,
      .go (), .go (), .go ()]
    (fun tr s => s.store.saldo 1 == some 10 && (answers tr).length == 2 &&
      (s.client ()).inFlight.isEmpty && (s.client ()).job.isNone) (by decide)
  simp only [Bool.and_eq_true, beq_iff_eq, List.isEmpty_iff, Option.isNone_iff_eq_none] at hs
  obtain ⟨⟨⟨hsaldo, hlen⟩, hfl⟩, hjob⟩ := hs
  obtain ⟨hserve, _, hsame⟩ := async_invisible (execucao_of_unica h) ⟨hfl, by simp [hjob]⟩
  exact ⟨tr, s, h, hsaldo, hlen, hserve, hsame h⟩

/-! ## A clock that is set back -/

/-- A parser that knows a credit of 10 and one of 20. -/
def doisCreditos : Jansson :=
  .ou (.pedido 10 (ascii "c") (ascii "pix") (by decide))
    (.pedido 20 (ascii "c") (ascii "pix") (by decide))

/-- The amounts that an extrato lists. -/
def valoresListados (resp : Resposta) : List Int64 :=
  match jsonObjectGet resp.json? "ultimas_transacoes" with
  | some (.array items) => items.map fun item => jsonIntegerValue (jsonObjectGet (some item) "valor")
  | _ => []

def creditoDez : Requisicao :=
  .post (ascii "/clientes/1/transacoes") (some (pedidoTexto 10 (ascii "c") (ascii "pix")))

def creditoVinte : Requisicao :=
  .post (ascii "/clientes/1/transacoes") (some (pedidoTexto 20 (ascii "c") (ascii "pix")))

/-- Two credits and an extrato; the queries are executed at the times `agora` and `agora'`. -/
def creditosEExtrato (agora agora' : Nat) : List (Move Unit Requisicao Nat) :=
  [.accept () creditoDez, .go (), .go (), .go (), .exec () agora,
    .accept () creditoVinte, .go (), .go (), .go (), .exec () agora',
    .accept () (.get (ascii "/clientes/1/extrato") 2), .go (), .go (), .go ()]

/-- The two credits are listed in the order of their times, whatever these are. -/
theorem exists_listados (agora agora' : Nat) (valores : List (List Int64))
    (h : ((State.start Db.init).play (banco .parado) (handler doisCreditos .parado)
      (creditosEExtrato agora agora')).map (fun r =>
        (requests r.1 == [creditoDez, creditoVinte, .get (ascii "/clientes/1/extrato") 2]) &&
        ((answers r.1).map fun resp => valoresListados resp.semHora) == valores &&
        (r.2.client ()).inFlight.isEmpty && (r.2.client ()).job.isNone) = some true) :
    ∃ (tr : List (Rotulo Unit)) (s : Estado Unit), Execucao doisCreditos .parado tr s ∧
      AtRest (s.client ()) ∧
      requests tr = [creditoDez, creditoVinte, .get (ascii "/clientes/1/extrato") 2] ∧
      ((answers tr).map fun resp => valoresListados resp.semHora) = valores := by
  obtain ⟨tr, s, hrun, hs⟩ := execucao_of_play doisCreditos .parado (creditosEExtrato agora agora')
    (fun tr s => (requests tr == [creditoDez, creditoVinte, .get (ascii "/clientes/1/extrato") 2]) &&
      ((answers tr).map fun resp => valoresListados resp.semHora) == valores &&
      (s.client ()).inFlight.isEmpty && (s.client ()).job.isNone) h
  simp only [Bool.and_eq_true, beq_iff_eq, List.isEmpty_iff, Option.isNone_iff_eq_none] at hs
  obtain ⟨⟨⟨hreqs, hvalores⟩, hfl⟩, hjob⟩ := hs
  exact ⟨tr, s, hrun, ⟨hfl, by simp [hjob]⟩, hreqs, hvalores⟩

/-- The extrato of one run lists the second credit first. In the other the clock is set
back between the credits, and the extrato lists it last. -/
theorem async_visible : ∃ (tr : List (Rotulo Unit)) (s : Estado Unit) (resps : List Resposta)
    (d : Db), Execucao doisCreditos .parado tr s ∧ AtRest (s.client ()) ∧
    Serve (banco .parado) (handler doisCreditos .parado) Db.init (requests tr) resps d ∧
    resps.map Resposta.semHora ≠ (answers tr).map Resposta.semHora := by
  obtain ⟨tr, s, h, rest, hreqs, hvalores⟩ :=
    exists_listados 0 1 [[], [], [20, 10]] (by decide +kernel)
  obtain ⟨tr', s', h', rest', hreqs', hvalores'⟩ :=
    exists_listados 1 0 [[], [], [10, 20]] (by decide +kernel)
  refine ⟨tr, s, answers tr', s'.store, h, rest, ?_, fun hsame => ?_⟩
  · rw [hreqs, ← hreqs']
    exact run_serve h' rest'
  · have heq := congrArg (List.map valoresListados) hsame
    rw [List.map_map, List.map_map] at heq
    have hlists : [[], [], [10, 20]] = ([[], [], [20, 10]] : List (List Int64)) :=
      hvalores'.symm.trans (heq.trans hvalores)
    exact absurd hlists (by decide)

end Crinha
