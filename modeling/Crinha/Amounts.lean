import Crinha.Validation

/-!
# Amounts in 64 and in 32 bits

* `exato_iff`: when the test on the limit and the new saldo are exact;
* `relatado_iff`: when the amounts are reported as they are.
-/

namespace Crinha
open Pipeline CString

/-! ## The limit -/

/-- Nothing overflows: the test on the limit is that of the integers, and so is the
saldo of a transaction that passes it. -/
structure Exato (cliente : Cliente) (transacao : Transacao) : Prop where
  limite : isLimiteExcedido cliente transacao = true ↔ transacao.tipo = ascii "d" ∧
    cliente.saldo.toInt - transacao.valor.toInt < -cliente.limite.toInt
  saldo : isLimiteExcedido cliente transacao = false →
    (updateSaldoCliente cliente transacao).saldo.toInt =
      (operacaoDe transacao).apply cliente.saldo.toInt transacao.valor.toInt
  negacao : (-cliente.limite).toInt = -cliente.limite.toInt
  subtracao : transacao.tipo = ascii "d" → (cliente.saldo - transacao.valor).toInt =
    cliente.saldo.toInt - transacao.valor.toInt

theorem bmod_eq_self_iff {x : Int} {n : Nat} (h : 0 < n) :
    x.bmod n = x ↔ -((n : Int) / 2) ≤ x ∧ x < ((n : Int) + 1) / 2 := by
  constructor
  · intro he
    have hlo := @Int.le_bmod x n h
    have hhi := @Int.bmod_lt x n h
    rw [he] at hlo hhi
    exact ⟨hlo, hhi⟩
  · intro hx
    exact Int.bmod_eq_of_le hx.1 hx.2

theorem bmod64_eq_self_iff {x : Int} : x.bmod (2 ^ 64) = x ↔ IsBigint x := by
  rw [bmod_eq_self_iff (by decide), IsBigint]
  omega

theorem bmod32_eq_self_iff {x : Int} : x.bmod (2 ^ 32) = x ↔ IsInteger x := by
  rw [bmod_eq_self_iff (by decide), IsInteger]
  omega

theorem toInt_add_iff {a b : Int64} :
    (a + b).toInt = a.toInt + b.toInt ↔ IsBigint (a.toInt + b.toInt) := by
  rw [Int64.toInt_add, bmod64_eq_self_iff]

theorem toInt_sub_iff {a b : Int64} :
    (a - b).toInt = a.toInt - b.toInt ↔ IsBigint (a.toInt - b.toInt) := by
  rw [Int64.toInt_sub, bmod64_eq_self_iff]

theorem toInt_neg_of_nonneg {a : Int64} (h : 0 ≤ a.toInt) : (-a).toInt = -a.toInt := by
  have hhi := a.toInt_lt
  rw [Int64.toInt_neg, bmod64_eq_self_iff]
  exact ⟨by omega, by omega⟩

section
variable {cliente : Cliente} {transacao : Transacao}

theorem exato_credit (ht : transacao.tipo = ascii "c") (hl : 0 ≤ cliente.limite.toInt) :
    Exato cliente transacao ↔ IsBigint (cliente.saldo.toInt + transacao.valor.toInt) := by
  have hhead : transacao.tipo.head? = some 99 := by
    rw [ht]
    rfl
  have hnd : transacao.tipo ≠ ascii "d" := by
    rw [ht]
    decide
  have hex : isLimiteExcedido cliente transacao = false := if_pos hhead
  have hup : (updateSaldoCliente cliente transacao).saldo = cliente.saldo + transacao.valor := by
    rw [updateSaldoCliente, if_pos hhead]
  have hop : operacaoDe transacao = .mais := if_pos hhead
  constructor
  · intro h
    have hs := h.saldo hex
    rw [hup, hop] at hs
    exact toInt_add_iff.mp hs
  · intro h
    exact {
      limite := by simp [hex, hnd]
      saldo := fun _ => by
        rw [hup, hop]
        exact toInt_add_iff.mpr h
      negacao := toInt_neg_of_nonneg hl
      subtracao := fun hd => absurd hd hnd }

theorem exato_debit (ht : transacao.tipo = ascii "d") (hl : 0 ≤ cliente.limite.toInt) :
    Exato cliente transacao ↔ IsBigint (cliente.saldo.toInt - transacao.valor.toInt) := by
  have hhead : transacao.tipo.head? ≠ some 99 := by
    rw [ht]
    decide
  have hneg := toInt_neg_of_nonneg hl
  have hup : (updateSaldoCliente cliente transacao).saldo = cliente.saldo - transacao.valor := by
    rw [updateSaldoCliente, if_neg hhead]
  have hop : operacaoDe transacao = .menos := if_neg hhead
  constructor
  · intro h
    exact toInt_sub_iff.mp (h.subtracao ht)
  · intro h
    have hsub := toInt_sub_iff.mpr h
    exact {
      limite := by
        rw [isLimiteExcedido, if_neg hhead, decide_eq_true_iff, Int64.lt_iff_toInt_lt, hsub, hneg]
        exact (and_iff_right ht).symm
      saldo := fun _ => by
        rw [hup, hop]
        exact hsub
      negacao := hneg
      subtracao := fun _ => hsub }

/-- **Exact amounts.** The test on the limit and the new saldo are exact, and nothing
overflows, exactly if the new saldo fits 64 bits. -/
theorem exato_iff (ht : transacao.tipo = ascii "c" ∨ transacao.tipo = ascii "d")
    (hl : 0 ≤ cliente.limite.toInt) :
    Exato cliente transacao ↔
      IsBigint ((operacaoDe transacao).apply cliente.saldo.toInt transacao.valor.toInt) := by
  rcases ht with ht | ht
  · rw [exato_credit ht hl, operacaoDe, ht]
    rfl
  · rw [exato_debit ht hl, operacaoDe, ht]
    rfl

/-- A debit that leaves 64 bits exceeds every limit, and passes the test. -/
theorem debit_unnoticed (ht : transacao.tipo = ascii "d") (hl : 0 ≤ cliente.limite.toInt)
    (hs : -cliente.limite.toInt ≤ cliente.saldo.toInt) (hv : 1 ≤ transacao.valor.toInt)
    (h : ¬IsBigint (cliente.saldo.toInt - transacao.valor.toInt)) :
    cliente.saldo.toInt - transacao.valor.toInt < -cliente.limite.toInt ∧
      isLimiteExcedido cliente transacao = false := by
  have hlimite := cliente.limite.toInt_lt
  have hsaldo := cliente.saldo.toInt_lt
  have hvalor := transacao.valor.toInt_lt
  have hlow : cliente.saldo.toInt - transacao.valor.toInt < -9223372036854775808 := by
    unfold IsBigint at h
    omega
  have hhead : transacao.tipo.head? ≠ some 99 := by
    rw [ht]
    decide
  have hwrap : (cliente.saldo - transacao.valor).toInt =
      cliente.saldo.toInt - transacao.valor.toInt + 18446744073709551616 := by
    rw [Int64.toInt_sub, Int.bmod_eq_iff (by decide)]
    exact ⟨by omega, by omega, 1, by omega⟩
  refine ⟨by omega, ?_⟩
  rw [isLimiteExcedido, if_neg hhead, decide_eq_false_iff_not, Int64.lt_iff_toInt_lt, hwrap,
    toInt_neg_of_nonneg hl]
  omega

end

theorem exato_pix :
    isLimiteExcedido ⟨1, 100000, -2⟩ (novaTransacao 1 (some (.string (ascii "pix")))
        (some (.string (ascii "d"))) (some (.integer 99999))) = true ↔
      (-2 : Int) - 99999 < -100000 := by
  have h := (@exato_iff ⟨1, 100000, -2⟩ (novaTransacao 1 (some (.string (ascii "pix")))
    (some (.string (ascii "d"))) (some (.integer 99999))) (.inr (by decide)) (by decide)).mpr
      (by decide)
  rw [h.limite]
  decide

/-- With a saldo of -2 and a limit of 100000, a debit of 2^63 - 1 passes the test, and
makes the saldo 2^63 - 1. -/
theorem exato_overflow :
    isLimiteExcedido ⟨1, 100000, -2⟩ (novaTransacao 1 (some (.string (ascii "pix")))
        (some (.string (ascii "d"))) (some (.integer 9223372036854775807))) = false ∧
    (updateSaldoCliente ⟨1, 100000, -2⟩ (novaTransacao 1 (some (.string (ascii "pix")))
        (some (.string (ascii "d"))) (some (.integer 9223372036854775807)))).saldo.toInt =
      9223372036854775807 := by
  decide

/-! ## Reports -/

/-- What the handlers give to the builders of JSON: the client of a row, or that of a row
with its saldo updated. -/
inductive Entregue (c : ClienteRow) : Cliente → Prop where
  | lido : Entregue c (clienteDe c.record)
  | atualizado (transacao : Transacao) :
      Entregue c (updateSaldoCliente (clienteDe c.record) transacao)

/-- The amounts of the JSON are those of the client. With a date that is valid UTF-8 there is
always one. -/
structure Relatado (cliente : Cliente) (dataExtrato : Bytes) : Prop where
  montado : Utf8.valid dataExtrato = true → (buildJsonSaldoData dataExtrato cliente).isSome
  limite : jsonObjectGet (some (buildJsonSaldo cliente)) "limite" = some (.integer cliente.limite)
  saldo : jsonObjectGet (some (buildJsonSaldo cliente)) "saldo" = some (.integer cliente.saldo)
  data : ∀ json, buildJsonSaldoData dataExtrato cliente = some json →
    jsonObjectGet (some json) "limite" = some (.integer cliente.limite) ∧
    jsonObjectGet (some json) "total" = some (.integer cliente.saldo)

theorem packInt_exact {v : Int64} : packInt v = .integer v ↔ IsInteger v.toInt := by
  rw [packInt, Json.integer.injEq, ← Int64.toInt_inj, Int32.toInt_toInt64, Int64.toInt_toInt32,
    bmod32_eq_self_iff]

theorem buildJsonSaldoData_get {dataExtrato : Bytes} {cliente : Cliente} {json : Json}
    (h : buildJsonSaldoData dataExtrato cliente = some json) :
    jsonObjectGet (some json) "limite" = some (packInt cliente.limite) ∧
    jsonObjectGet (some json) "total" = some (packInt cliente.saldo) := by
  simp only [buildJsonSaldoData, Option.bind_eq_bind, Option.bind_eq_some_iff, Option.pure_def,
    Option.some.injEq] at h
  obtain ⟨data, _, rfl⟩ := h
  exact ⟨rfl, rfl⟩

theorem Entregue.limite {c : ClienteRow} {cliente : Cliente} (h : Entregue c cliente) :
    cliente.limite = (clienteDe c.record).limite := by
  cases h with
  | lido => rfl
  | atualizado transacao =>
    unfold updateSaldoCliente
    split <;> rfl

/-- **Reported amounts.** The amounts that are reported for a row are those of the
client, exactly if its saldo fits an `int`. -/
theorem relatado_iff {d : Db} (h : Alcancavel d) {c : ClienteRow} (hc : c ∈ d.cliente)
    {cliente : Cliente} (he : Entregue c cliente) (dataExtrato : Bytes) :
    Relatado cliente dataExtrato ↔ IsInteger cliente.saldo.toInt := by
  have hlimite : packInt cliente.limite = .integer cliente.limite := by
    obtain ⟨hlo, hhi⟩ := h.contido.limite hc
    rw [packInt_exact, he.limite, limite_clienteDe ⟨by omega, by omega⟩]
    exact ⟨by omega, by omega⟩
  rw [← packInt_exact]
  constructor
  · intro hr
    exact Option.some.inj hr.saldo
  · intro hsaldo
    exact {
      montado := fun hdata => by simp [buildJsonSaldoData, packStr, hdata]
      limite := congrArg some hlimite
      saldo := congrArg some hsaldo
      data := fun json hj => by
        rw [← hlimite, ← hsaldo]
        exact buildJsonSaldoData_get hj }

/-- A credit of 2147483647. -/
def creditoMaximo : Transacao :=
  novaTransacao 1 (some (.string (ascii "pix"))) (some (.string (ascii "c")))
    (some (.integer 2147483647))

/-- The database after `n` such credits. -/
def aposCreditos (n : Nat) : Db where
  cliente := [⟨1, 100000, n * 2147483647⟩, ⟨2, 80000, 0⟩, ⟨3, 1000000, 0⟩, ⟨4, 10000000, 0⟩,
    ⟨5, 500000, 0⟩]
  transacao := (List.range n).map fun k =>
    ⟨k + 1, 1, 2147483647, ascii "c", ascii "pix", 0⟩
  seq := n

theorem alcancavel_aposCreditos :
    Alcancavel (aposCreditos 1) ∧ Alcancavel (aposCreditos 2) := by
  have h₁ : Db.run 0 (insertStmts creditoMaximo) Db.init = some (aposCreditos 1) := by decide
  have h₂ : Db.run 0 (insertStmts creditoMaximo) (aposCreditos 1) = some (aposCreditos 2) := by
    decide
  have h : Alcancavel (aposCreditos 1) := .next .init (by decide) h₁
  exact ⟨h, .next h (by decide) h₂⟩

/-- After one of them the saldo still fits. -/
theorem relatado_credito :
    Relatado (clienteDe (ClienteRow.record ⟨1, 100000, 2147483647⟩)) (Relogio.parado.isoStr 0) :=
  (relatado_iff alcancavel_aposCreditos.1 (by decide) .lido _).mpr (by decide)

/-- After two of them the saldo of 4294967294 is reported as -2. -/
theorem relatado_narrowed : Alcancavel (aposCreditos 2) ∧
    ⟨1, 100000, 4294967294⟩ ∈ (aposCreditos 2).cliente ∧
    (clienteDe (ClienteRow.record ⟨1, 100000, 4294967294⟩)).saldo = 4294967294 ∧
    jsonIntegerValue (jsonObjectGet
      (some (buildJsonSaldo (clienteDe (ClienteRow.record ⟨1, 100000, 4294967294⟩)))) "saldo") =
        -2 := by
  exact ⟨alcancavel_aposCreditos.2, by decide, by decide, by decide⟩

end Crinha
