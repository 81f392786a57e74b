import Mathlib.Data.List.Sort
import Crinha.Entity
import Crinha.Bytes.Decimal

/-!
# The database of `stack/init.sql`

Its tables, constraints and initial rows, and the statements that the repositories send. A
query of several statements is executed as a whole or not at all (`Db.run`).
-/

namespace Crinha
open CString Decimal

structure ClienteRow where
  id : Nat
  limite : Int
  saldo : Int
  deriving DecidableEq

/-- `realizadaEm` counts microseconds. -/
structure TransacaoRow where
  id : Nat
  idCliente : Nat
  valor : Int
  tipo : Bytes
  descricao : Bytes
  realizadaEm : Nat
  deriving DecidableEq

/-- `transacao` in the order of insertion; `seq` is the last value of its `serial`. -/
structure Db where
  cliente : List ClienteRow
  transacao : List TransacaoRow
  seq : Nat
  deriving DecidableEq

def Db.init : Db where
  cliente := [⟨1, 100000, 0⟩, ⟨2, 80000, 0⟩, ⟨3, 1000000, 0⟩, ⟨4, 10000000, 0⟩, ⟨5, 500000, 0⟩]
  transacao := []
  seq := 0

/-! ## Statements -/

inductive Operacao where
  | mais
  | menos
  deriving DecidableEq

def Operacao.apply : Operacao → Int → Int → Int
  | mais, saldo, valor => saldo + valor
  | menos, saldo, valor => saldo - valor

/-- `update cliente set saldo = saldo <op> <valor> where id = <id>` and
`insert into transacao(id_cliente, valor, tipo, descricao) values (...)`. -/
inductive Stmt where
  | updateSaldo (op : Operacao) (valor : Int) (id : Nat)
  | insertTransacao (idCliente : Nat) (valor : Int) (tipo descricao : Bytes)
  deriving DecidableEq

def IsInteger (x : Int) : Prop := -2147483648 ≤ x ∧ x ≤ 2147483647

def IsBigint (x : Int) : Prop := -9223372036854775808 ≤ x ∧ x ≤ 9223372036854775807

/-- Valid text of at most `n` characters. Longer text is refused: the handlers
never send any that is longer by blanks only. -/
def IsText (n : Nat) (s : Bytes) : Prop := Utf8.valid s = true ∧ Utf8.charLength s ≤ n

instance (x : Int) : Decidable (IsInteger x) := inferInstanceAs (Decidable (_ ∧ _))
instance (x : Int) : Decidable (IsBigint x) := inferInstanceAs (Decidable (_ ∧ _))
instance (n : Nat) (s : Bytes) : Decidable (IsText n s) := inferInstanceAs (Decidable (_ ∧ _))

/-- Every constraint of `init.sql` that a statement must satisfy: `chk_saldo` and
the range of `saldo`; the ranges and lengths of the columns of `transacao`, and
its foreign key. -/
def Stmt.Admits (d : Db) : Stmt → Prop
  | updateSaldo op valor id => ∀ c ∈ d.cliente, c.id = id →
      IsBigint (op.apply c.saldo valor) ∧ -c.limite ≤ op.apply c.saldo valor
  | insertTransacao idCliente valor tipo descricao =>
      IsInteger valor ∧ IsText 1 tipo ∧ IsText 10 descricao ∧ ∃ c ∈ d.cliente, c.id = idCliente

instance (d : Db) : (st : Stmt) → Decidable (st.Admits d)
  | .updateSaldo .. => inferInstanceAs (Decidable (∀ _ ∈ _, _ → _))
  | .insertTransacao .. => inferInstanceAs (Decidable (_ ∧ _ ∧ _ ∧ ∃ _ ∈ _, _))

/-- The last value the sequence of a `serial` column can give. -/
def serialMax : Nat := 2147483647

def Db.update (d : Db) (op : Operacao) (valor : Int) (id : Nat) : Db :=
  { d with cliente := d.cliente.map fun c =>
      if c.id = id then { c with saldo := op.apply c.saldo valor } else c }

def Db.insert (d : Db) (agora idCliente : Nat) (valor : Int) (tipo descricao : Bytes) : Db :=
  { d with
    transacao := d.transacao ++ [⟨d.seq + 1, idCliente, valor, tipo, descricao, agora⟩]
    seq := d.seq + 1 }

/-- `agora` is `current_timestamp`. -/
def Db.exec (agora : Nat) (d : Db) (st : Stmt) : Option Db :=
  if st.Admits d then
    match st with
    | .updateSaldo op valor id => some (d.update op valor id)
    | .insertTransacao idCliente valor tipo descricao =>
      if d.seq < serialMax then some (d.insert agora idCliente valor tipo descricao) else none
  else none

/-- A multi-statement query is one transaction. -/
def Db.run (agora : Nat) (query : List Stmt) (d : Db) : Option Db :=
  query.foldlM (Db.exec agora) d

/-! ## Queries -/

/-- `select id, limite, saldo from cliente where id = <id>` and
`select ... from transacao where id_cliente = <id> order by realizada_em desc limit 10`. -/
inductive Consulta where
  | cliente (id : Nat)
  | ultimas (id : Nat)
  deriving DecidableEq

/-- The fields of each row as `PQgetvalue` gives them. -/
abbrev DBRecord := List Bytes

structure DBResultSet where
  records : List DBRecord
  deriving DecidableEq

def ClienteRow.record (c : ClienteRow) : DBRecord :=
  [showNat c.id, showInt c.limite, showInt c.saldo]

def TransacaoRow.record (toChar : Nat → Bytes) (r : TransacaoRow) : DBRecord :=
  [showNat r.id, showNat r.idCliente, showInt r.valor, r.tipo, r.descricao, toChar r.realizadaEm]

/-- The last rows of a client first. -/
def Db.ultimas (d : Db) (id : Nat) : List TransacaoRow :=
  ((d.transacao.filter fun r => r.idCliente = id).insertionSort
    fun a b => b.realizadaEm ≤ a.realizadaEm).take 10

/-- `toChar` renders a time stamp. -/
def Db.answer (toChar : Nat → Bytes) (d : Db) : Consulta → Option DBResultSet
  | .cliente id => some ⟨(d.cliente.filter fun c => c.id = id).map ClienteRow.record⟩
  | .ultimas id => some ⟨(d.ultimas id).map (TransacaoRow.record toChar)⟩

/-! ## What a commit does -/

/-- The saldo of a client, if there is such a row. -/
def Db.saldo (d : Db) (id : Nat) : Option Int := (d.cliente.find? fun c => c.id = id).map (·.saldo)

/-- What a statement adds to the saldo of client `id`. -/
def Stmt.delta (id : Nat) : Stmt → Int
  | updateSaldo op valor i => if i = id then op.apply 0 valor else 0
  | insertTransacao .. => 0

/-- A row of `transacao` without what the database chooses itself: its id and time. -/
structure Lancamento where
  idCliente : Nat
  valor : Int
  tipo : Bytes
  descricao : Bytes
  deriving DecidableEq

def TransacaoRow.lancamento (r : TransacaoRow) : Lancamento :=
  ⟨r.idCliente, r.valor, r.tipo, r.descricao⟩

def Stmt.lancamento? : Stmt → Option Lancamento
  | updateSaldo .. => none
  | insertTransacao idCliente valor tipo descricao => some ⟨idCliente, valor, tipo, descricao⟩

section
variable {d d' : Db} {st : Stmt} {agora : Nat} {query : List Stmt}

theorem Db.exec_cases (h : Db.exec agora d st = some d') :
    st.Admits d ∧
    ((∃ op valor id, st = .updateSaldo op valor id ∧ d' = d.update op valor id) ∨
    ∃ idCliente valor tipo descricao, st = .insertTransacao idCliente valor tipo descricao ∧
      d.seq < serialMax ∧ d' = d.insert agora idCliente valor tipo descricao) := by
  unfold Db.exec at h
  split at h
  · rename_i hadm
    refine ⟨hadm, ?_⟩
    cases st with
    | updateSaldo op valor id => exact .inl ⟨op, valor, id, rfl, (Option.some.inj h).symm⟩
    | insertTransacao idCliente valor tipo descricao =>
      simp only at h
      split at h
      · exact .inr ⟨_, _, _, _, rfl, ‹_›, (Option.some.inj h).symm⟩
      · cases h
  · cases h

@[simp] theorem Db.run_nil : Db.run agora [] d = some d := rfl

theorem Db.run_cons :
    Db.run agora (st :: query) d = (Db.exec agora d st).bind (Db.run agora query) := by
  simp only [Db.run, List.foldlM_cons, Option.bind_eq_bind]
  rfl

theorem Db.saldo_update (op : Operacao) (valor : Int) (id i : Nat) :
    (d.update op valor id).saldo i =
      (d.saldo i).map (· + (Stmt.updateSaldo op valor id).delta i) := by
  simp only [Db.saldo, Db.update, Stmt.delta]
  induction d.cliente with
  | nil => rfl
  | cons c cs ih =>
    simp only [List.map_cons, List.find?_cons]
    by_cases hi : c.id = i
    · subst hi
      by_cases hc : c.id = id
      · subst hc
        cases op <;> simp [Operacao.apply, Int.sub_eq_add_neg]
      · simp [hc, Ne.symm hc]
    · by_cases hc : c.id = id
      · subst hc
        simpa [hi] using ih
      · simpa [hi, hc] using ih

theorem Db.exec_saldo (h : Db.exec agora d st = some d') (id : Nat) :
    d'.saldo id = (d.saldo id).map (· + st.delta id) := by
  obtain ⟨_, ⟨op, valor, i, rfl, rfl⟩ | ⟨_, _, _, _, rfl, _, rfl⟩⟩ := Db.exec_cases h
  · exact Db.saldo_update op valor i id
  · show d.saldo id = _
    simp only [Stmt.delta, Int.add_zero]
    exact Option.map_id'.symm

theorem Db.exec_transacao (h : Db.exec agora d st = some d') :
    d'.transacao.map TransacaoRow.lancamento =
      d.transacao.map TransacaoRow.lancamento ++ st.lancamento?.toList := by
  obtain ⟨_, ⟨op, valor, i, rfl, rfl⟩ | ⟨_, _, _, _, rfl, _, rfl⟩⟩ := Db.exec_cases h
  · simp [Db.update, Stmt.lancamento?]
  · simp [Db.insert, Stmt.lancamento?, TransacaoRow.lancamento]

/-- A committed query adds to a saldo what its statements add. -/
theorem Db.run_saldo : ∀ {query : List Stmt} {d : Db}, Db.run agora query d = some d' → ∀ id,
    d'.saldo id = (d.saldo id).map (· + (query.map (Stmt.delta id)).sum)
  | [], d, h, id => by
    cases h
    simp
  | st :: query, d, h, id => by
    rw [Db.run_cons, Option.bind_eq_some_iff] at h
    obtain ⟨d₁, he, hr⟩ := h
    rw [Db.run_saldo hr id, Db.exec_saldo he id, Option.map_map]
    congr 1
    funext x
    simp [Int.add_assoc]

/-- A committed query appends the rows of its inserts. -/
theorem Db.run_transacao : ∀ {query : List Stmt} {d : Db}, Db.run agora query d = some d' →
    d'.transacao.map TransacaoRow.lancamento =
      d.transacao.map TransacaoRow.lancamento ++ query.filterMap Stmt.lancamento?
  | [], d, h => by
    cases h
    simp
  | st :: query, d, h => by
    rw [Db.run_cons, Option.bind_eq_some_iff] at h
    obtain ⟨d₁, he, hr⟩ := h
    rw [Db.run_transacao hr, Db.exec_transacao he]
    cases hst : st.lancamento? <;> simp [hst]

/-- Clients neither appear nor disappear nor change their limits. -/
theorem Db.exec_limites (h : Db.exec agora d st = some d') :
    d'.cliente.map (fun c => (c.id, c.limite)) = d.cliente.map fun c => (c.id, c.limite) := by
  obtain ⟨_, ⟨op, valor, i, rfl, rfl⟩ | ⟨_, _, _, _, rfl, _, rfl⟩⟩ := Db.exec_cases h
  · simp only [Db.update, List.map_map]
    apply List.map_congr_left
    intro c _
    simp only [Function.comp_apply]
    split <;> rfl
  · rfl

theorem Db.run_limites : ∀ {query : List Stmt} {d : Db}, Db.run agora query d = some d' →
    d'.cliente.map (fun c => (c.id, c.limite)) = d.cliente.map fun c => (c.id, c.limite)
  | [], d, h => by cases h; rfl
  | st :: query, d, h => by
    rw [Db.run_cons, Option.bind_eq_some_iff] at h
    obtain ⟨d₁, he, hr⟩ := h
    rw [Db.run_limites hr, Db.exec_limites he]

end

end Crinha
