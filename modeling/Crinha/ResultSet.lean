import Crinha.Jansson
import Crinha.Memory.Pointers
import Crinha.Repository

/-!
# Result sets on the heap

* `dbCreateResultSet_spec`, `dbClearResultSet_spec`: what `util/db_connection.c` allocates,
  and that all of it is freed.
-/

namespace Crinha
open Pipeline Memory

/-- What a cell holds: a number, a `char`, the text of a `char` array inside a
struct, a pointer, the text of a query by what it says, or what libpq and jansson
keep behind their pointers. -/
inductive Celula where
  | int (n : Nat)
  | long (x : Int64)
  | char (b : UInt8)
  | text (s : Bytes)
  | ptr (p : Ptr)
  | consulta (query : Consulta)
  | comando (query : List Stmt)
  | pgResult (fields : Nat) (res : Option DBResultSet)
  | json (j : Json)

namespace Celula

def int? : Celula → Option Nat
  | int n => some n
  | _ => none

def long? : Celula → Option Int64
  | long x => some x
  | _ => none

def text? : Celula → Option Bytes
  | text s => some s
  | _ => none

def ptr? : Celula → Option Ptr
  | ptr p => some p
  | _ => none

def consulta? : Celula → Option Consulta
  | consulta query => some query
  | _ => none

def comando? : Celula → Option (List Stmt)
  | comando query => some query
  | _ => none

def pgResult? : Celula → Option (Nat × Option DBResultSet)
  | pgResult fields res => some (fields, res)
  | _ => none

def json? : Celula → Option Json
  | json j => some j
  | _ => none

end Celula

/-- The repositories and handlers with the heap of their process. -/
abbrev MemProg := Mem Celula Consulta (Option DBResultSet) (List Stmt)

/-- The columns each query selects. -/
def Consulta.fields : Consulta → Nat
  | cliente _ => 3
  | ultimas _ => 6

/-- What the server can answer to a query: rows of its columns, in C strings. -/
def Legal (query : Consulta) (res : Option DBResultSet) : Prop :=
  ∀ rs, res = some rs → ∀ row ∈ rs.records, row.length = query.fields ∧ ∀ s ∈ row, 0 ∉ s

/-! ## libpq -/

/-- A `PGresult` is there for a failed query too. -/
def pqExecMem (al : Allocator Celula) (query : Ptr) : MemProg Ptr := do
  let consulta ← loadAs Celula.consulta? query 0
  let answer ← Memory.ask consulta
  let res ← malloc al 1
  store res 0 (.pgResult consulta.fields answer)
  pure res

def pqClear (res : Ptr) : MemProg Unit := free res

/-- A `NULL` that stands for no value is a crash of the `strlen` that follows. -/
def pqGetvalue (res : Ptr) (i j : Nat) : MemProg Bytes := do
  let (_, answer) ← loadAs Celula.pgResult? res 0
  match (answer.bind (·.records[i]?)).bind (·[j]?) with
  | some value => pure value
  | none => crash

/-! ## `util/db_connection.c` -/

/-- `records`, `rows_count`, `fields_count`. -/
def sizeofDBResultSet : Nat := 3

/-- `result_set->records[row_idx].fields_value`. -/
def fieldsValuePtr (resultSet : Ptr) (rowIdx : Nat) : MemProg Ptr := do
  let records ← loadAs Celula.ptr? resultSet 0
  loadAs Celula.ptr? records rowIdx

def strcpy (dest : Ptr) (src : Bytes) : MemProg Unit :=
  storeAll dest 0 ((src ++ [0]).map .char)

def dbCopyField (al : Allocator Celula) (resultSet : Ptr) (rowIdx fieldIdx : Nat)
    (value : Bytes) : MemProg Unit := do
  let field ← malloc al (value.length + 1)
  let fieldsValue ← fieldsValuePtr resultSet rowIdx
  store fieldsValue fieldIdx (.ptr field)
  strcpy field value

/-- The body of the loop over the rows. -/
def dbCreateRecord (al : Allocator Celula) (resultSet res : Ptr) (fields i : Nat) :
    MemProg Unit := do
  let fieldsValue ← malloc al fields
  let records ← loadAs Celula.ptr? resultSet 0
  store records i (.ptr fieldsValue)
  loop (fun j => do
    let value ← pqGetvalue res i j
    dbCopyField al resultSet i j value) 0 fields

def dbCreateResultSet (al : Allocator Celula) (res : Ptr) (rows fields : Nat) : MemProg Ptr := do
  let resultSet ← malloc al sizeofDBResultSet
  store resultSet 1 (.int rows)
  store resultSet 2 (.int fields)
  let records ← if rows > 0 then malloc al rows else pure 0
  store resultSet 0 (.ptr records)
  loop (dbCreateRecord al resultSet res fields) 0 rows
  pure resultSet

/-- The body of the loop over the rows. -/
def dbClearRecord (resultSet : Ptr) (fieldsCount i : Nat) : MemProg Unit := do
  loop (fun j => do
    let fieldsValue ← fieldsValuePtr resultSet i
    let field ← loadAs Celula.ptr? fieldsValue j
    free field
    store fieldsValue j (.ptr 0)) 0 fieldsCount
  let fieldsValue ← fieldsValuePtr resultSet i
  free fieldsValue
  let records ← loadAs Celula.ptr? resultSet 0
  store records i (.ptr 0)

def dbClearResultSetMem (resultSet : Ptr) : MemProg Unit := do
  let rowsCount ← loadAs Celula.int? resultSet 1
  let fieldsCount ← loadAs Celula.int? resultSet 2
  loop (dbClearRecord resultSet fieldsCount) 0 rowsCount
  let records ← loadAs Celula.ptr? resultSet 0
  if records ≠ 0 then free records else pure ()
  store resultSet 0 (.ptr 0)
  free resultSet

def dbQueryMem (al : Allocator Celula) (query : Ptr) : MemProg Ptr := do
  let res ← pqExecMem al query
  let (fields, answer) ← loadAs Celula.pgResult? res 0
  let resultSet ← match answer with
    | some rs => dbCreateResultSet al res rs.records.length fields
    | none => pure 0
  pqClear res
  pure resultSet

/-! ## What a result set looks like -/

open Assertion

def chars (s : Bytes) : List (Option Celula) := (s ++ [0]).map fun b => some (.char b)

def campo (field : Ptr) (value : Bytes) : Assertion Celula := block field (chars value)

def registro (fieldsValue : Ptr) (row : DBRecord) : Assertion Celula :=
  pointers .ptr campo fieldsValue row

/-- The array of the records, which is not there if there are none. -/
def registros (records : Ptr) (rows : List DBRecord) : Assertion Celula :=
  if rows = [] then fact (records = 0) else pointers .ptr registro records rows

def resultado (resultSet : Ptr) (fields : Nat) (rows : List DBRecord) : Assertion Celula :=
  ex fun records =>
    block resultSet [some (.ptr records), some (.int rows.length), some (.int fields)] *
      registros records rows

/-! ## Building one -/

section
variable {A A' : Type} {L : List (Assertion Celula)} {p : DbProg A'} {Q' : A → A' → Assertion Celula}
  {al : Allocator Celula}

theorem strcpy_spec (field : Ptr) (value : Bytes) :
    Triple Legal (block field (List.replicate (value.length + 1) none)) (strcpy field value)
      fun _ => campo field value := by
  have h : Triple Legal (block field (List.replicate (value.length + 1) none))
      (storeAll field 0 ((value ++ [0]).map Celula.char) : MemProg Unit) _ := .storeAll (by simp)
  simpa [campo, chars, strcpy, Function.comp_def] using h

theorem fieldsValuePtrAt (n m : Nat) {resultSet records fieldsValue : Ptr} {i : Nat}
    {head cells : List (Option Celula)} {k : Ptr → MemProg A}
    (hn : L[n]? = some (block resultSet head)) (hhead : head[0]? = some (some (.ptr records)))
    (hm : L[m]? = some (block records cells)) (hi : cells[i]? = some (some (.ptr fieldsValue)))
    (h : Refines Legal L.prod (k fieldsValue) p Q') :
    Refines Legal L.prod (fieldsValuePtr resultSet i >>= k) p Q' :=
  .assoc (.loadAt n hn hhead rfl (.loadAt m hm hi rfl h))

theorem pqGetvalueAt (n : Nat) {res : Ptr} {fields i j : Nat} {rows : List DBRecord}
    {row : DBRecord} {value : Bytes} {k : Bytes → MemProg A}
    (hn : L[n]? = some (block res [some (.pgResult fields (some ⟨rows⟩))]))
    (hi : rows[i]? = some row) (hj : row[j]? = some value)
    (h : Refines Legal L.prod (k value) p Q') :
    Refines Legal L.prod (pqGetvalue res i j >>= k) p Q' := by
  refine .assoc (.loadAt n hn rfl rfl ?_)
  simp only [Option.bind_some, hi, hj]
  exact h

theorem dbCopyFieldAt (n m l : Nat) {resultSet records fieldsValue : Ptr} {i j : Nat}
    {head cells fields : List (Option Celula)} {value : Bytes} {k : Unit → MemProg A}
    (hn : L[n]? = some (block resultSet head)) (hhead : head[0]? = some (some (.ptr records)))
    (hm : L[m]? = some (block records cells)) (hi : cells[i]? = some (some (.ptr fieldsValue)))
    (hl : L[l]? = some (block fieldsValue fields)) (hj : j < fields.length)
    (h : ∀ field, Refines Legal (campo field value ::
      L.set l (block fieldsValue (fields.set j (some (.ptr field))))).prod (k ()) p Q') :
    Refines Legal L.prod (dbCopyField al resultSet i j value >>= k) p Q' := by
  refine .assoc (.mallocAt fun field _ => .assoc
    (fieldsValuePtrAt (n + 1) (m + 1) hn hhead hm hi ?_))
  refine .assoc (.storeAt (l + 1) hl hj ?_)
  exact .stepAt 0 rfl (strcpy_spec field value) fun _ => h field

end

section
variable (al : Allocator Celula) {resultSet records res fieldsValue : Ptr} {fields i j : Nat}
  {head cells : List (Option Celula)} {rows : List DBRecord} {row : DBRecord}

/-- One pass through the loop over the fields. -/
theorem copyField_step (hhead : head[0]? = some (some (.ptr records)))
    (hi : cells[i]? = some (some (.ptr fieldsValue))) (hrow : rows[i]? = some row)
    (hj : j < row.length) :
    Triple Legal [block resultSet head, block records cells,
        filled .ptr campo fieldsValue row row.length j,
        block res [some (.pgResult fields (some ⟨rows⟩))]].prod
      (do
        let value ← pqGetvalue res i j
        dbCopyField al resultSet i j value)
      fun _ => [block resultSet head, block records cells,
        filled .ptr campo fieldsValue row row.length (j + 1),
        block res [some (.pgResult fields (some ⟨rows⟩))]].prod := by
  have hv : row[j]? = some row[j] := List.getElem?_eq_getElem hj
  refine .exAt 2 rfl fun ps => .splitAt 2 rfl (.factAt 3 rfl fun hps => .splitAt 0 rfl ?_)
  refine pqGetvalueAt 4 rfl hrow hv (.last (dbCopyFieldAt 2 3 1 rfl hhead rfl hi rfl ?_ ?_))
  · simp only [List.length_append, length_ptrs, List.length_replicate]
    omega
  · intro field
    refine .fold [block resultSet head, block records cells,
      block res [some (.pgResult fields (some ⟨rows⟩))]].prod ?_
      (filled_next (c := .ptr) (P := campo) (a := fieldsValue) (p := field) hv hj hps) ?_
    · simp only [List.set_cons_succ, List.set_cons_zero, List.eraseIdx_cons_succ,
        List.eraseIdx_cons_zero, List.prod_cons, List.prod_nil, mul_one]
      ac_rfl
    · refine .pure_eq ?_
      simp only [List.prod_cons, List.prod_nil, mul_one]
      ac_rfl

theorem copyFields_spec (hhead : head[0]? = some (some (.ptr records)))
    (hi : cells[i]? = some (some (.ptr fieldsValue))) (hrow : rows[i]? = some row) :
    Triple Legal [block resultSet head, block records cells,
        block fieldsValue (List.replicate row.length none),
        block res [some (.pgResult fields (some ⟨rows⟩))]].prod
      (loop (fun j => do
        let value ← pqGetvalue res i j
        dbCopyField al resultSet i j value) 0 row.length)
      fun _ => [block resultSet head, block records cells, registro fieldsValue row,
        block res [some (.pgResult fields (some ⟨rows⟩))]].prod := by
  have h := Refines.loop (fun j => [block resultSet head, block records cells,
      filled .ptr campo fieldsValue row row.length j,
      block res [some (.pgResult fields (some ⟨rows⟩))]].prod) _
    fun j hj => copyField_step al hhead hi hrow hj
  rwa [filled_zero, filled_all rfl] at h

/-- One pass through the loop over the rows. -/
theorem dbCreateRecord_step (hhead : head[0]? = some (some (.ptr records)))
    (hrow : rows[i]? = some row) (hlen : row.length = fields) :
    Triple Legal [block resultSet head, filled .ptr registro records rows rows.length i,
        block res [some (.pgResult fields (some ⟨rows⟩))]].prod
      (dbCreateRecord al resultSet res fields i)
      fun _ => [block resultSet head, filled .ptr registro records rows rows.length (i + 1),
        block res [some (.pgResult fields (some ⟨rows⟩))]].prod := by
  have hn : i < rows.length := (List.getElem?_eq_some_iff.mp hrow).1
  refine .mallocAt fun fieldsValue _ => .loadAt 1 rfl hhead rfl ?_
  refine .exAt 2 rfl fun ps => .splitAt 2 rfl (.factAt 3 rfl fun hps => .splitAt 0 rfl ?_)
  have hcell : i < (ptrs Celula.ptr ps ++ List.replicate (rows.length - i) none).length := by
    simp only [List.length_append, length_ptrs, List.length_replicate]
    omega
  subst hlen
  refine .storeAt 1 rfl hcell (.last (.seenAs ([block resultSet head,
    block records ((ptrs Celula.ptr ps ++ List.replicate (rows.length - i) none).set i
      (some (.ptr fieldsValue))), block fieldsValue (List.replicate row.length none),
    block res [some (.pgResult row.length (some ⟨rows⟩))]].prod * each registro ps (rows.take i))
    ?_ (.step (copyFields_spec al hhead (List.getElem?_set_self hcell) hrow) fun _ => ?_)))
  · simp only [List.set_cons_succ, List.set_cons_zero, List.eraseIdx_cons_succ,
      List.eraseIdx_cons_zero, List.prod_cons, List.prod_nil, mul_one]
    ac_rfl
  · refine .fold [block resultSet head, block res [some (.pgResult row.length (some ⟨rows⟩))]].prod ?_
      (filled_next (c := .ptr) (P := registro) (a := records) (p := fieldsValue) hrow hn hps) ?_
    · simp only [List.prod_cons, List.prod_nil, mul_one]
      ac_rfl
    · refine .pure_eq ?_
      simp only [List.prod_cons, List.prod_nil, mul_one]
      ac_rfl

theorem createRecords_spec (hhead : head[0]? = some (some (.ptr records)))
    (hrows : ∀ row ∈ rows, row.length = fields) :
    Triple Legal [block resultSet head, block records (List.replicate rows.length none),
        block res [some (.pgResult fields (some ⟨rows⟩))]].prod
      (loop (dbCreateRecord al resultSet res fields) 0 rows.length)
      fun _ => [block resultSet head, pointers .ptr registro records rows,
        block res [some (.pgResult fields (some ⟨rows⟩))]].prod := by
  have h := Refines.loop (fun i => [block resultSet head,
      filled .ptr registro records rows rows.length i,
      block res [some (.pgResult fields (some ⟨rows⟩))]].prod)
    (dbCreateRecord al resultSet res fields) fun i hi =>
      dbCreateRecord_step al hhead (List.getElem?_eq_getElem hi) (hrows _ (List.getElem_mem hi))
  rwa [filled_zero, filled_all rfl] at h

theorem resultado_nil (m : Heap Celula)
    (h : block resultSet [some (.ptr 0), some (.int 0), some (.int fields)] m) :
    resultado resultSet fields [] m := by
  refine ⟨0, ?_⟩
  have e : (registros 0 [] : Assertion Celula) = 1 := by rw [registros, if_pos rfl, fact_true rfl]
  show (_ * registros 0 []) m
  rwa [e, mul_one]

theorem resultado_of_ne_nil (resultSet records : Ptr) (fields : Nat) (hr : rows ≠ [])
    (m : Heap Celula)
    (h : (block resultSet [some (.ptr records), some (.int rows.length), some (.int fields)] *
      pointers .ptr registro records rows : Assertion Celula) m) :
    resultado resultSet fields rows m := by
  refine ⟨records, ?_⟩
  show (_ * registros records rows) m
  rwa [registros, if_neg hr]

/-- **What is built represents the rows**, and the `PGresult` is left as it was. -/
theorem dbCreateResultSet_spec (hrows : ∀ row ∈ rows, row.length = fields) :
    Triple Legal (block res [some (.pgResult fields (some ⟨rows⟩))])
      (dbCreateResultSet al res rows.length fields)
      fun resultSet => resultado resultSet fields rows *
        block res [some (.pgResult fields (some ⟨rows⟩))] := by
  refine .of_eq (List.prod_singleton).symm (.mallocAt fun resultSet _ => ?_)
  refine .storeAt 0 rfl (by simp [sizeofDBResultSet]) ?_
  refine .storeAt 0 rfl (by simp [sizeofDBResultSet]) ?_
  refine .seenAs ([block resultSet [none, some (.int rows.length), some (.int fields)],
    block res [some (.pgResult fields (some ⟨rows⟩))]].prod) rfl ?_
  by_cases hn : rows = []
  · rw [if_neg (by simp [hn]), pure_bind]
    refine .storeAt 0 rfl (by simp) ?_
    rw [hn]
    exact .pure fun m hm => sep_mono resultado_nil (by simpa using hm)
  · rw [if_pos (List.length_pos_of_ne_nil hn)]
    refine .mallocAt fun records _ => .storeAt 1 rfl (by simp) ?_
    have h : Triple Legal ([block resultSet [some (.ptr records), some (.int rows.length),
          some (.int fields)], block records (List.replicate rows.length none),
        block res [some (.pgResult fields (some ⟨rows⟩))]].prod)
        (loop (dbCreateRecord al resultSet res fields) 0 rows.length) _ :=
      createRecords_spec al rfl hrows
    refine .of_eq ?_ (.andThen h fun _ => .fold (block res [some (.pgResult fields (some ⟨rows⟩))]) ?_
      (resultado_of_ne_nil resultSet records fields hn) (.pure_eq rfl))
    · simp only [List.set_cons_succ, List.set_cons_zero, List.prod_cons, List.prod_nil, mul_one]
      exact mul_left_comm _ _ _
    · simp only [List.prod_cons, List.prod_nil, mul_one, mul_assoc]

/-! ## Clearing one -/

/-- One pass through the loop over the fields. -/
theorem clearField_step (hhead : head[0]? = some (some (.ptr records)))
    (hi : cells[i]? = some (some (.ptr fieldsValue))) (hj : j < row.length) :
    Triple Legal [block resultSet head, block records cells,
        emptied .ptr campo fieldsValue row j].prod
      (do
        let fieldsValue ← fieldsValuePtr resultSet i
        let field ← loadAs Celula.ptr? fieldsValue j
        free field
        store fieldsValue j (.ptr 0))
      fun _ => [block resultSet head, block records cells,
        emptied .ptr campo fieldsValue row (j + 1)].prod := by
  rw [emptied_cons (List.getElem?_eq_getElem hj)]
  refine .exAt 2 rfl fun field => .exAt 2 rfl fun ps => .splitAt 2 rfl (.splitAt 0 rfl ?_)
  refine fieldsValuePtrAt 2 3 rfl hhead rfl hi (.loadAt 1 rfl (get_uncleared _ _) rfl ?_)
  refine .freeAt 4 rfl (.last (.storeAt 1 rfl (by simp) ?_))
  rw [set_cleared]
  refine .fold [block resultSet head, block records cells].prod ?_
    (emptied_next .ptr campo fieldsValue row j ps) (.pure_eq ?_)
  · simp only [List.set_cons_succ, List.set_cons_zero, List.eraseIdx_cons_succ,
      List.eraseIdx_cons_zero, List.prod_cons, List.prod_nil, mul_one]
    ac_rfl
  · simp only [List.prod_cons, List.prod_nil, mul_one]
    ac_rfl

theorem clearFields_spec (hhead : head[0]? = some (some (.ptr records)))
    (hi : cells[i]? = some (some (.ptr fieldsValue))) :
    Triple Legal [block resultSet head, block records cells, registro fieldsValue row].prod
      (loop (fun j => do
        let fieldsValue ← fieldsValuePtr resultSet i
        let field ← loadAs Celula.ptr? fieldsValue j
        free field
        store fieldsValue j (.ptr 0)) 0 row.length)
      fun _ => [block resultSet head, block records cells,
        block fieldsValue (List.replicate row.length (some (.ptr 0)))].prod := by
  have h := Refines.loop (fun j => [block resultSet head, block records cells,
      emptied .ptr campo fieldsValue row j].prod) _
    fun j hj => clearField_step hhead hi hj
  rwa [emptied_all] at h

/-- One pass through the loop over the rows. -/
theorem dbClearRecord_step (hhead : head[0]? = some (some (.ptr records)))
    (hrow : rows[i]? = some row) (hlen : row.length = fields) :
    Triple Legal [block resultSet head, emptied .ptr registro records rows i].prod
      (dbClearRecord resultSet fields i)
      fun _ => [block resultSet head, emptied .ptr registro records rows (i + 1)].prod := by
  subst hlen
  rw [emptied_cons hrow]
  refine .exAt 1 rfl fun fieldsValue => .exAt 1 rfl fun ps => .splitAt 1 rfl (.splitAt 0 rfl ?_)
  refine .seenAs ([block resultSet head, block records (List.replicate i (some (.ptr 0)) ++
    some (.ptr fieldsValue) :: ptrs .ptr ps), registro fieldsValue row].prod *
    each registro ps (rows.drop (i + 1))) ?_
    (.step (clearFields_spec hhead (get_uncleared _ _)) fun _ => ?_)
  · simp only [List.set_cons_succ, List.set_cons_zero, List.prod_cons, List.prod_nil, mul_one]
    ac_rfl
  · refine .seenAs ([block resultSet head, block records (List.replicate i (some (.ptr 0)) ++
      some (.ptr fieldsValue) :: ptrs .ptr ps),
      block fieldsValue (List.replicate row.length (some (.ptr 0))),
      each registro ps (rows.drop (i + 1))].prod) ?_ ?_
    · simp only [List.prod_cons, List.prod_nil, mul_one, mul_assoc]
    · refine fieldsValuePtrAt 0 1 rfl hhead rfl (get_uncleared _ _) (.freeAt 2 rfl ?_)
      refine .loadAt 0 rfl hhead rfl (.last (.storeAt 1 rfl (by simp) ?_))
      rw [set_cleared]
      refine .fold (block resultSet head) ?_ (emptied_next .ptr registro records rows i ps)
        (.pure_eq ?_)
      · simp only [List.set_cons_succ, List.set_cons_zero, List.eraseIdx_cons_succ,
          List.eraseIdx_cons_zero, List.prod_cons, List.prod_nil, mul_one]
        ac_rfl
      · simp only [List.prod_cons, List.prod_nil, mul_one]
        exact mul_comm _ _

theorem clearRecords_spec (hhead : head[0]? = some (some (.ptr records)))
    (hrows : ∀ row ∈ rows, row.length = fields) :
    Triple Legal [block resultSet head, pointers .ptr registro records rows].prod
      (loop (dbClearRecord resultSet fields) 0 rows.length)
      fun _ => [block resultSet head,
        block records (List.replicate rows.length (some (.ptr 0)))].prod := by
  have h := Refines.loop (fun i => [block resultSet head,
      emptied .ptr registro records rows i].prod)
    (dbClearRecord resultSet fields) fun i hi =>
      dbClearRecord_step hhead (List.getElem?_eq_getElem hi) (hrows _ (List.getElem_mem hi))
  rwa [emptied_all] at h

/-- **Nothing is left of a result set that is cleared**, and nothing is freed twice. -/
theorem dbClearResultSet_spec (hrows : ∀ row ∈ rows, row.length = fields) :
    Triple Legal (resultado resultSet fields rows) (dbClearResultSetMem resultSet) fun _ => 1 := by
  refine .of_ex fun records => .seenAs ([block resultSet [some (.ptr records),
    some (.int rows.length), some (.int fields)], registros records rows].prod) (by simp) ?_
  refine .loadAt 0 rfl rfl rfl (.loadAt 0 rfl rfl rfl ?_)
  by_cases hn : rows = []
  · rw [registros, if_pos hn]
    refine .factAt 1 rfl fun h0 => ?_
    subst hn h0
    refine .ret (.loadAt 0 rfl rfl rfl ?_)
    rw [if_neg (by simp)]
    exact .storeAt 0 rfl (Nat.zero_lt_succ _) (.last (.freeAt 0 rfl (.pure_eq rfl)))
  · rw [registros, if_neg hn]
    refine .andThen (clearRecords_spec rfl hrows) fun _ => .loadAt 0 rfl rfl rfl
      (.knowAt 1 rfl (fun _ h => h.1) fun h0 => ?_)
    rw [if_pos h0]
    exact .freeAt 1 rfl (.storeAt 0 rfl (by simp) (.last (.freeAt 0 rfl (.pure_eq rfl))))

/-- **A result set lives on any heap and leaves it as it was**: it is built out of the
rows of `res` next to what is there, and clearing it gives back the heap before. -/
theorem resultSet_round_trip {m : Heap Celula} (hres : res ≠ 0)
    (hm : m.lookup res = some [some (.pgResult fields (some ⟨rows⟩))])
    (hrows : ∀ row ∈ rows, row.length = fields) :
    ∃ resultSet part, dbCreateResultSet al res rows.length fields m =
        .done (resultSet, part ∪ m) ∧ part.Disjoint m ∧
      resultado resultSet fields rows part ∧
      dbClearResultSetMem resultSet (part ∪ m) = .done ((), m) := by
  have hsplit := split_block hm
  have hnew : res ∉ m.erase res := Finmap.notMem_erase_self
  obtain ⟨resultSet, h₂, hcreate, hd, part, _, hp, rfl, hpart, -, rfl⟩ :=
    (dbCreateResultSet_spec al hrows).run (f := m.erase res) ⟨hres, rfl⟩
      (singleton_disjoint.mpr hnew)
  rw [Finmap.union_assoc, ← hsplit] at hcreate
  have hdisj : part.Disjoint m := by
    rw [hsplit]
    exact (Finmap.disjoint_union_right _ _ _).mpr ⟨hp, ((Finmap.disjoint_union_left _ _ _).mp hd).1⟩
  obtain ⟨_, _, hclear, -, rfl⟩ := (dbClearResultSet_spec hrows).run hpart hdisj
  exact ⟨resultSet, part, hcreate, hdisj, hpart, hclear.trans (by rw [Finmap.empty_union])⟩

/-- The `PGresult` of client 1, at address 1. -/
def umCliente : Heap Celula :=
  Finmap.singleton 1 [some (.pgResult 3 (some ⟨[[[49], [48], [48]]]⟩))]

theorem resultSet_round_trip_cliente : ∃ resultSet part,
    dbCreateResultSet .after 1 [[[49], [48], [48]]].length 3 umCliente =
        .done (resultSet, part ∪ umCliente) ∧ part.Disjoint umCliente ∧
      resultado resultSet 3 [[[49], [48], [48]]] part ∧
      dbClearResultSetMem resultSet (part ∪ umCliente) = .done ((), umCliente) := by
  have hlookup : umCliente.lookup 1 = some [some (.pgResult 3 (some ⟨[[[49], [48], [48]]]⟩))] :=
    Finmap.lookup_singleton_eq
  have hrows : ∀ row ∈ [[[(49 : UInt8)], [48], [48]]], row.length = 3 := by simp
  have h := resultSet_round_trip .after (by decide) hlookup hrows
  exact h

theorem resultado_ne_null {m : Heap Celula} : resultado resultSet fields rows m → resultSet ≠ 0 :=
  fun ⟨_, _, _, _, _, hb, _⟩ => hb.1

/-! ## A query -/

/-- What a query leaves: its result set, or `NULL` if it failed. -/
def resposta (consulta : Consulta) : Ptr → Option DBResultSet → Assertion Celula :=
  orNull fun resultSet rs => resultado resultSet consulta.fields rs.records

/-- **A query leaves its result set and nothing else.** -/
theorem dbQuery_refines (query : Ptr) (consulta : Consulta) :
    Refines Legal (block query [some (.consulta consulta)]) (dbQueryMem al query)
      (dbQuery consulta) fun resultSet res => fact (Legal consulta res) *
        (resposta consulta resultSet res * block query [some (.consulta consulta)]) := by
  rw [← bind_pure (dbQuery consulta)]
  refine .assoc (.of_eq (List.prod_singleton).symm (.loadAt 0 rfl rfl rfl ?_))
  refine .assoc (.ask fun answer hl => .assoc (.mallocAt fun res _ => ?_))
  refine .assoc (.storeAt 0 rfl (by simp) (.ret (.loadAt 0 rfl rfl rfl ?_)))
  cases answer with
  | none =>
    show Refines Legal [block res [some (Celula.pgResult consulta.fields none)],
        block query [some (.consulta consulta)]].prod (free res >>= fun _ => pure 0) _ _
    refine .freeAt 0 rfl (.pure_eq ?_)
    rw [fact_true hl, one_mul, resposta, orNull, fact_true rfl, one_mul]
    exact List.prod_singleton
  | some rs =>
    show Refines Legal (block res [some (Celula.pgResult consulta.fields (some rs))] *
        (block query [some (.consulta consulta)] * 1))
      (dbCreateResultSet al res rs.records.length consulta.fields >>= fun resultSet =>
        free res >>= fun _ => pure resultSet) _ _
    refine .step (dbCreateResultSet_spec al fun row h => (hl rs rfl row h).1) fun resultSet => ?_
    rw [mul_one, mul_comm (resultado _ _ _), mul_assoc]
    refine .free (.pure_eq ?_)
    rw [fact_true hl, one_mul]
    rfl

end

end Crinha
