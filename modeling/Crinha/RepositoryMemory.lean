import Crinha.Memory.Reads
import Crinha.ResultSet

/-!
# Repositories and services on the heap

Each function does what the function without a heap does and leaves exactly what it returns.
-/

namespace Crinha
open Pipeline Memory Assertion CString

/-! ## Strings -/

/-- The characters before the NUL, if there is one in the block. -/
def cString : List (Option Celula) → Option Bytes
  | some (.char b) :: cs => if b = 0 then some [] else (cString cs).map (b :: ·)
  | _ => none

def loadString (p : Ptr) : MemProg Bytes := fun h =>
  match (cells h p).bind cString with
  | some s => .done (s, h)
  | none => .halt

/-- What `asprintf` renders is represented by what it says. -/
def asprintf (al : Allocator Celula) (text : Celula) : MemProg Ptr := do
  let query ← malloc al 1
  store query 0 text
  pure query

/-- `result_set->records[i].fields_value[j]` as a string. -/
def fieldText (resultSet : Ptr) (i j : Nat) : MemProg Bytes := do
  let records ← loadAs Celula.ptr? resultSet 0
  let fieldsValue ← loadAs Celula.ptr? records i
  let field ← loadAs Celula.ptr? fieldsValue j
  loadString field

/-- `result_set != NULL && result_set->rows_count > 0`. -/
def hasRows (resultSet : Ptr) : MemProg Bool :=
  if resultSet = 0 then pure false
  else do
    let rowsCount ← loadAs Celula.int? resultSet 1
    pure (decide (rowsCount > 0))

/-! ## `repository/cliente_repository.c` -/

/-- `id`, `limite`, `saldo`. -/
def sizeofCliente : Nat := 3

/-- The new `Cliente` of the first record. -/
def novoCliente (al : Allocator Celula) (resultSet : Ptr) : MemProg Ptr := do
  let cliente ← malloc al sizeofCliente
  let id ← fieldText resultSet 0 0
  store cliente 0 (.int (atoi id))
  let limite ← fieldText resultSet 0 1
  store cliente 1 (.long (atol limite))
  let saldo ← fieldText resultSet 0 2
  store cliente 2 (.long (atol saldo))
  pure cliente

def clienteRepoFindOneMem (al : Allocator Celula) (id : Nat) : MemProg Ptr := do
  let query ← asprintf al (.consulta (.cliente id))
  let resultSet ← dbQueryMem al query
  free query
  let found ← hasRows resultSet
  let cliente ← if found then novoCliente al resultSet else pure 0
  dbClearResultSetMem resultSet
  pure cliente

/-! ## `repository/transacao_repository.c` -/

/-- `id`, `id_cliente`, `valor`, `tipo`, `descricao`, `realizada_em`. -/
def sizeofTransacao : Nat := 6

structure TransacaoList where
  size : Nat
  values : Ptr

/-- The body of the loop over the records. -/
def lerTransacao (resultSet values : Ptr) (i : Nat) : MemProg Unit := do
  let id ← fieldText resultSet i 0
  store values (sizeofTransacao * i) (.int (atoi id))
  let idCliente ← fieldText resultSet i 1
  store values (sizeofTransacao * i + 1) (.int (atoi idCliente))
  let valor ← fieldText resultSet i 2
  store values (sizeofTransacao * i + 2) (.long (atol valor))
  let tipo ← fieldText resultSet i 3
  store values (sizeofTransacao * i + 3) (.text (copied tipo transacaoTipoLen))
  let descricao ← fieldText resultSet i 4
  store values (sizeofTransacao * i + 4) (.text (copied descricao utf8TransacaoDescricaoLen))
  let realizadaEm ← fieldText resultSet i 5
  store values (sizeofTransacao * i + 5) (.text (copied realizadaEm transacaoRealizadaEmLen))

def transacaoRepoFindLast10Mem (al : Allocator Celula) (idCliente : Nat) :
    MemProg TransacaoList := do
  let query ← asprintf al (.consulta (.ultimas idCliente))
  let resultSet ← dbQueryMem al query
  free query
  let found ← hasRows resultSet
  let transacoes ← if found then do
      let rowsCount ← loadAs Celula.int? resultSet 1
      let values ← malloc al (sizeofTransacao * rowsCount)
      loop (lerTransacao resultSet values) 0 rowsCount
      pure ⟨rowsCount, values⟩
    else pure ⟨0, 0⟩
  (if resultSet ≠ 0 then dbClearResultSetMem resultSet else pure () : MemProg Unit)
  pure transacoes

/-- The fields the text of the query is made of. -/
def transacaoRepoInsertAsyncMem (al : Allocator Celula) (transacao : Ptr) : MemProg Bool := do
  let idCliente ← loadAs Celula.int? transacao 1
  let valor ← loadAs Celula.long? transacao 2
  let tipo ← loadAs Celula.text? transacao 3
  let descricao ← loadAs Celula.text? transacao 4
  let query ← asprintf al (.comando (insertStmts ⟨0, idCliente, valor, tipo, descricao, []⟩))
  let comando ← loadAs Celula.comando? query 0
  let res ← submit comando
  free query
  pure res

def transacaoRepoFreeListMem (transacoes : TransacaoList) : MemProg Unit :=
  if transacoes.values ≠ 0 then free transacoes.values else pure ()

/-! ## `service/` -/

def clienteServiceFindOneMem (al : Allocator Celula) (id : Nat) : MemProg Ptr :=
  clienteRepoFindOneMem al id

def transacaoServiceFindLast10Mem (al : Allocator Celula) (idCliente : Nat) :
    MemProg TransacaoList :=
  transacaoRepoFindLast10Mem al idCliente

def transacaoServiceSaveAsyncMem (al : Allocator Celula) (transacao : Ptr) : MemProg Bool :=
  transacaoRepoInsertAsyncMem al transacao

def transacaoServiceFreeListMem (transacoes : TransacaoList) : MemProg Unit :=
  transacaoRepoFreeListMem transacoes

/-! ## What they leave on the heap -/

def clienteCells (c : Cliente) : List (Option Celula) :=
  [some (.int c.id), some (.long c.limite), some (.long c.saldo)]

def clienteAt (cliente : Ptr) (c : Cliente) : Assertion Celula := block cliente (clienteCells c)

def transacaoCells (t : Transacao) : List (Option Celula) :=
  [some (.int t.id), some (.int t.idCliente), some (.long t.valor), some (.text t.tipo),
    some (.text t.descricao), some (.text t.realizadaEm)]

/-- The array of a list of transactions, which is not there if there are none. -/
def transacoesAt (values : Ptr) (ts : List Transacao) : Assertion Celula :=
  if ts = [] then fact (values = 0) else block values (ts.flatMap transacaoCells)

/-! ## Reading a result set -/

theorem cString_chars (s : Bytes) : cString (chars s) = some (cstr s) := by
  induction s with
  | nil => rfl
  | cons b s ih =>
    have e : chars (b :: s) = some (.char b) :: chars s := rfl
    rw [e, cString]
    by_cases hb : b = 0
    · rw [if_pos hb, hb]
      exact congrArg some (cstr_nul s).symm
    · have hval := val_ne_of_noNul (l := [b]) (by simpa using Ne.symm hb)
      rw [if_neg hb, ih, cstr_cons (by simpa using hval)]
      rfl

section
variable {resultSet : Ptr} {fields i j : Nat} {rows : List DBRecord} {row : DBRecord}

theorem reads_loadString {field : Ptr} {value : Bytes} (h : 0 ∉ value) :
    Reads (campo field value) (loadString field) value := by
  rintro _ f ⟨hq, rfl⟩ _
  rw [loadString, block_cells hq, Option.bind_some, cString_chars, cstr_of_noNul (val_ne_of_noNul h)]

theorem reads_fieldText {value : Bytes} (hi : rows[i]? = some row) (hj : row[j]? = some value)
    (h : 0 ∉ value) :
    Reads (resultado resultSet fields rows) (fieldText resultSet i j) value := by
  have hne : rows ≠ [] := by
    rintro rfl
    simp at hi
  refine .of_ex fun records => ?_
  rw [registros, if_neg hne]
  have hload : Reads (block resultSet [some (.ptr records), some (.int rows.length),
      some (.int fields)]) (loadAs Celula.ptr? resultSet 0 : MemProg Ptr) records :=
    .loadAs rfl rfl
  refine .bind hload.frame (.frame_left ?_)
  exact .pointers (fun _ => rfl) hi fun fieldsValue =>
    .pointers (fun _ => rfl) hj fun field => reads_loadString h

theorem reads_rowsCount : Reads (resultado resultSet fields rows)
    (loadAs Celula.int? resultSet 1 : MemProg Nat) rows.length :=
  .of_ex fun _ => .frame (.loadAs rfl rfl)

theorem reads_hasRows :
    Reads (resultado resultSet fields rows) (hasRows resultSet) (decide (rows.length > 0)) := by
  refine .of_ex fun records => .frame ?_
  have hload : Reads (block resultSet [some (.ptr records), some (.int rows.length),
      some (.int fields)]) (loadAs Celula.int? resultSet 1 : MemProg Nat) rows.length :=
    .loadAs rfl rfl
  rintro _ f ⟨hq, rfl⟩ hd
  rw [hasRows, if_neg hq]
  exact hload.bind (k := fun n => pure (decide (n > 0))) .pure _ f ⟨hq, rfl⟩ hd

end

/-! ## `cliente_repo_find_one` -/

section
variable {A A' : Type} {L : List (Assertion Celula)} {p : DbProg A'} {Q' : A → A' → Assertion Celula}
  (al : Allocator Celula)

/-- What `asprintf` allocates holds the text until it is freed. -/
theorem asprintfAt {text : Celula} {k : Ptr → MemProg A}
    (h : ∀ query, Refines Legal (block query [some text] :: L).prod (k query) p Q') :
    Refines Legal L.prod (asprintf al text >>= k) p Q' :=
  .assoc (.mallocAt fun query _ => .assoc (.storeAt 0 rfl (by simp) (.ret (h query))))

theorem novoCliente_spec {resultSet : Ptr} {rows : List DBRecord} {row : DBRecord}
    (hrow : rows[0]? = some row) (hlen : row.length = 3) (hn : ∀ s ∈ row, 0 ∉ s) :
    Triple Legal (resultado resultSet 3 rows) (novoCliente al resultSet) fun cliente =>
      clienteAt cliente (clienteDe row) * resultado resultSet 3 rows := by
  obtain ⟨id, limite, saldo, rfl⟩ := List.length_eq_three.mp hlen
  refine .of_eq (List.prod_singleton).symm (.mallocAt fun cliente _ => ?_)
  refine .readAt 1 rfl (reads_fieldText hrow rfl (hn id (by simp))) ?_
  refine .storeAt 0 rfl (by simp [sizeofCliente]) ?_
  refine .readAt 1 rfl (reads_fieldText hrow rfl (hn limite (by simp))) ?_
  refine .storeAt 0 rfl (by simp [sizeofCliente]) ?_
  refine .readAt 1 rfl (reads_fieldText hrow rfl (hn saldo (by simp))) ?_
  refine .storeAt 0 rfl (by simp [sizeofCliente]) (.pure_eq ?_)
  exact congrArg _ (mul_one _)

theorem clienteRepoFindOne_refines (id : Nat) :
    Refines Legal 1 (clienteRepoFindOneMem al id) (clienteRepoFindOne id) (orNull clienteAt) := by
  refine .of_eq List.prod_nil.symm (asprintfAt al fun query => ?_)
  refine .callAt 0 rfl (dbQuery_refines al query (.cliente id)) fun resultSet res => ?_
  refine .splitAt 0 rfl (.factAt 1 rfl fun hl => .splitAt 0 rfl (.freeAt 0 rfl ?_))
  cases res with
  | none =>
    refine .factAt 0 rfl fun h0 => ?_
    subst h0
    exact fun _ _ _ _ => trivial
  | some rs =>
    refine .readAt 0 rfl reads_hasRows ?_
    have hlen : ∀ row ∈ rs.records, row.length = 3 := fun row h => (hl rs rfl row h).1
    show Refines Legal (resultado resultSet 3 rs.records * 1) _
      (pure ((firstRecord (some rs)).map clienteDe)) _
    cases hr : rs.records with
    | nil =>
      have hf : firstRecord (some rs) = none := by simp [firstRecord, hr]
      rw [hf]
      refine .ret (.step (dbClearResultSet_spec (hr ▸ hlen)) fun _ => .pure_eq ?_)
      rw [Option.map_none, orNull, fact_true rfl, mul_one]
    | cons row rows =>
      have hf : firstRecord (some rs) = some row := by simp [firstRecord, hr]
      rw [hf]
      have hrow := hl rs rfl row (by simp [hr])
      refine .step (novoCliente_spec al rfl hrow.1 hrow.2) fun cliente => ?_
      rw [mul_one, mul_comm]
      refine .step (dbClearResultSet_spec (hr ▸ hlen)) fun _ => .pure_eq ?_
      exact one_mul _

/-! ## `transacao_repo_find_last_10` -/

theorem length_transacaoCells (ts : List Transacao) :
    (ts.flatMap transacaoCells).length = sizeofTransacao * ts.length := by
  induction ts with
  | nil => rfl
  | cons t ts ih =>
    rw [List.flatMap_cons, List.length_append, ih]
    simp only [transacaoCells, sizeofTransacao, List.length_cons, List.length_nil]
    omega

/-- The list of the records before `i`, the rest still unset. -/
def lendo (values : Ptr) (rows : List DBRecord) (i : Nat) : Assertion Celula :=
  block values (((rows.take i).map transacaoDe).flatMap transacaoCells ++
    List.replicate (sizeofTransacao * (rows.length - i)) none)

/-- One pass through the loop over the records. -/
theorem lerTransacao_step {resultSet values : Ptr} {rows : List DBRecord} {row : DBRecord} {i : Nat}
    (hrow : rows[i]? = some row) (hlen : row.length = 6) (hn : ∀ s ∈ row, 0 ∉ s) :
    Triple Legal [lendo values rows i, resultado resultSet 6 rows].prod
      (lerTransacao resultSet values i)
      fun _ => [lendo values rows (i + 1), resultado resultSet 6 rows].prod := by
  obtain ⟨id, idCliente, valor, tipo, descricao, realizadaEm, rfl⟩ :
      ∃ a b c d e f, row = [a, b, c, d, e, f] := by
    match row, hlen with
    | [a, b, c, d, e, f], _ => exact ⟨a, b, c, d, e, f, rfl⟩
  have hi : i < rows.length := (List.getElem?_eq_some_iff.mp hrow).1
  have hcount : sizeofTransacao * (rows.length - i) =
      sizeofTransacao * (rows.length - (i + 1)) + 1 + 1 + 1 + 1 + 1 + 1 := by
    simp only [sizeofTransacao]
    omega
  have hstart : (((rows.take i).map transacaoDe).flatMap transacaoCells).length =
      sizeofTransacao * i := by
    rw [length_transacaoCells, List.length_map, List.length_take, Nat.min_eq_left (by omega)]
  have hnext : ((rows.take (i + 1)).map transacaoDe).flatMap transacaoCells =
      ((rows.take i).map transacaoDe).flatMap transacaoCells ++
        transacaoCells (transacaoDe [id, idCliente, valor, tipo, descricao, realizadaEm]) := by
    rw [take_concat hrow]
    simp
  rw [lendo, lendo, hcount, hnext]
  generalize ((rows.take i).map transacaoDe).flatMap transacaoCells = cells at hstart
  refine .readAt 1 rfl (reads_fieldText hrow rfl (hn id (by simp))) ?_
  refine .storeNextAt 0 rfl hstart ?_
  refine .readAt 1 rfl (reads_fieldText hrow rfl (hn idCliente (by simp))) ?_
  refine .storeNextAt 0 rfl (by simp [hstart]) ?_
  refine .readAt 1 rfl (reads_fieldText hrow rfl (hn valor (by simp))) ?_
  refine .storeNextAt 0 rfl (by simp [hstart]) ?_
  refine .readAt 1 rfl (reads_fieldText hrow rfl (hn tipo (by simp))) ?_
  refine .storeNextAt 0 rfl (by simp [hstart]) ?_
  refine .readAt 1 rfl (reads_fieldText hrow rfl (hn descricao (by simp))) ?_
  refine .storeNextAt 0 rfl (by simp [hstart]) ?_
  refine .readAt 1 rfl (reads_fieldText hrow rfl (hn realizadaEm (by simp))) ?_
  refine .last (.storeNextAt 0 rfl (by simp [hstart]) (.pure_eq ?_))
  simp [transacaoCells, transacaoDe, fieldsValue]

theorem lendo_zero (values : Ptr) (rows : List DBRecord) :
    lendo values rows 0 = block values (List.replicate (sizeofTransacao * rows.length) none) := rfl

theorem lendo_all (values : Ptr) {rows : List DBRecord} (h : rows ≠ []) :
    lendo values rows rows.length = transacoesAt values (rows.map transacaoDe) := by
  rw [lendo, transacoesAt, if_neg (by simpa using h)]
  simp

theorem lerTransacoes_spec {resultSet values : Ptr} {rows : List DBRecord} (hne : rows ≠ [])
    (hlen : ∀ row ∈ rows, row.length = 6) (hn : ∀ row ∈ rows, ∀ s ∈ row, 0 ∉ s) :
    Triple Legal [block values (List.replicate (sizeofTransacao * rows.length) none),
        resultado resultSet 6 rows].prod
      (loop (lerTransacao resultSet values) 0 rows.length)
      fun _ => [transacoesAt values (rows.map transacaoDe), resultado resultSet 6 rows].prod := by
  have h := Refines.loop (fun i => [lendo values rows i, resultado resultSet 6 rows].prod)
    (lerTransacao resultSet values) fun i hi =>
      lerTransacao_step (List.getElem?_eq_getElem hi) (hlen _ (List.getElem_mem hi))
        (hn _ (List.getElem_mem hi))
  rwa [lendo_zero, lendo_all values hne] at h

/-- A list as the function returns it. -/
def listaAt (transacoes : TransacaoList) (ts : List Transacao) : Assertion Celula :=
  fact (transacoes.size = ts.length) * transacoesAt transacoes.values ts

theorem listaAt_nil : listaAt ⟨0, 0⟩ [] = 1 := by
  rw [listaAt, transacoesAt, if_pos rfl, fact_true rfl, mul_one]
  exact fact_true rfl

theorem transacaoRepoFindLast10_refines (idCliente : Nat) :
    Refines Legal 1 (transacaoRepoFindLast10Mem al idCliente)
      (transacaoRepoFindLast10 idCliente) listaAt := by
  refine .of_eq List.prod_nil.symm (asprintfAt al fun query => ?_)
  refine .callAt 0 rfl (dbQuery_refines al query (.ultimas idCliente)) fun resultSet res => ?_
  refine .splitAt 0 rfl (.factAt 1 rfl fun hl => .splitAt 0 rfl (.freeAt 0 rfl ?_))
  cases res with
  | none =>
    refine .factAt 0 rfl fun h0 => ?_
    subst h0
    exact .pure_eq listaAt_nil.symm
  | some rs =>
    refine .readAt 0 rfl reads_hasRows ?_
    have hlen : ∀ row ∈ rs.records, row.length = 6 := fun row h => (hl rs rfl row h).1
    have hn : ∀ row ∈ rs.records, ∀ s ∈ row, 0 ∉ s := fun row h => (hl rs rfl row h).2
    refine .knowAt 0 rfl (fun _ => resultado_ne_null) fun hne => ?_
    show Refines Legal (resultado resultSet 6 rs.records * 1) _
      (pure (rs.records.map transacaoDe)) _
    cases hr : rs.records with
    | nil =>
      refine .ret ?_
      rw [if_pos hne]
      exact .step (dbClearResultSet_spec (hr ▸ hlen)) fun _ => .pure_eq (by
        rw [mul_one]
        exact listaAt_nil.symm)
    | cons row rows =>
      rw [hr] at hlen hn
      rw [if_pos (by simp)]
      refine .readAt (L := [resultado resultSet 6 (row :: rows)]) 0 rfl reads_rowsCount ?_
      refine .mallocAt fun values _ => ?_
      refine .andThen (lerTransacoes_spec (by simp) hlen hn) fun _ => .ret ?_
      rw [if_pos hne]
      refine .stepAt 1 rfl (dbClearResultSet_spec hlen) fun _ => .pure_eq ?_
      rw [listaAt, fact_true (by simp)]
      exact congrArg _ (mul_one _)

/-! ## `transacao_repo_insert_async` and `transacao_repo_free_list` -/

/-- What the handler fills in of a `Transacao`. -/
def pedidoAt (transacao : Ptr) (t : Transacao) : Assertion Celula :=
  block transacao [none, some (.int t.idCliente), some (.long t.valor), some (.text t.tipo),
    some (.text t.descricao), none]

theorem transacaoRepoInsertAsync_refines (transacao : Ptr) (t : Transacao) :
    Refines Legal (pedidoAt transacao t) (transacaoRepoInsertAsyncMem al transacao)
      (transacaoRepoInsertAsync t) fun ret ret' => fact (ret = ret') * pedidoAt transacao t := by
  rw [← bind_pure (transacaoRepoInsertAsync t)]
  refine .of_eq (List.prod_singleton).symm ?_
  refine .loadAt 0 rfl rfl rfl (.loadAt 0 rfl rfl rfl ?_)
  refine .loadAt 0 rfl rfl rfl (.loadAt 0 rfl rfl rfl ?_)
  refine asprintfAt al fun query => .loadAt 0 rfl rfl rfl (.submit fun ret => ?_)
  refine .freeAt 0 rfl (.pure_eq ?_)
  rw [fact_true rfl, one_mul]
  exact List.prod_singleton

theorem transacaoRepoFreeList_spec (transacoes : TransacaoList) (ts : List Transacao) :
    Triple Legal (listaAt transacoes ts) (transacaoRepoFreeListMem transacoes) fun _ => 1 := by
  refine .of_fact fun _ => ?_
  rw [transacoesAt, transacaoRepoFreeListMem]
  split
  · refine .of_eq (mul_one _).symm (.of_fact fun h0 => ?_)
    rw [if_neg (by simp [h0])]
    exact .pure_eq rfl
  · refine .of_eq (List.prod_singleton).symm (.knowAt 0 rfl (fun _ h => h.1) fun h0 => ?_)
    rw [if_pos h0]
    exact .last (.freeAt 0 rfl (.pure_eq rfl))

end

end Crinha
