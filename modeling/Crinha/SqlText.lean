import Crinha.Api
import Crinha.Bytes.SqlLex

/-!
# The text of the query

* `insertAsyncQuery_read`: it reads as the two statements it is meant to be exactly if the
  description has no quote.
-/

namespace Crinha
open CString Decimal SqlLex

/-! ## Rendering -/

/-- The format of `asprintf`; the second line is a literal that continues the first. -/
def insertAsyncQuery (transacao : Transacao) : Bytes :=
  ascii "update cliente set saldo = saldo " ++ [(operacaoDe transacao).char] ++ ascii " " ++
    showInt transacao.valor.toInt ++ ascii " where id = " ++ showNat transacao.idCliente ++
    ascii ";" ++
  ascii "insert into transacao(id_cliente, valor, tipo, descricao) values(" ++
    showNat transacao.idCliente ++ ascii ", " ++ showInt transacao.valor.toInt ++ ascii ", '" ++
    transacao.tipo ++ ascii "', '" ++ transacao.descricao ++ ascii "');"

/-! ## Reading -/

def number (w : Bytes) : Option Nat := if w ≠ [] ∧ w.all isDigit then some (value w) else none

def operacao? (b : UInt8) : Option Operacao :=
  if b = 43 then some .mais else if b = 45 then some .menos else none

/-- `update cliente set saldo = saldo <op> <valor> where id = <id>`. -/
def updateTokens (op : UInt8) (valor id : Bytes) : List Token :=
  [.word (ascii "update"), .word (ascii "cliente"), .word (ascii "set"), .word (ascii "saldo"),
    .symbol 61, .word (ascii "saldo"), .symbol op, .word valor, .word (ascii "where"),
    .word (ascii "id"), .symbol 61, .word id]

/-- `insert into transacao(...) values(<id>, <valor>, <tipo>,`. -/
def insertStart (id valor tipo : Bytes) : List Token :=
  [.word (ascii "insert"), .word (ascii "into"), .word (ascii "transacao"), .symbol 40,
    .word (ascii "id_cliente"), .symbol 44, .word (ascii "valor"), .symbol 44,
    .word (ascii "tipo"), .symbol 44, .word (ascii "descricao"), .symbol 41,
    .word (ascii "values"), .symbol 40, .word id, .symbol 44, .word valor, .symbol 44,
    .literal tipo, .symbol 44]

def insertTokens (id valor tipo descricao : Bytes) : List Token :=
  insertStart id valor tipo ++ [.literal descricao, .symbol 41]

def parseUpdate (ts : List Token) : Option Stmt :=
  match ts with
  | [_, _, _, _, _, _, .symbol op, .word valor, _, _, _, .word id] =>
    if ts = updateTokens op valor id then do
      pure (.updateSaldo (← operacao? op) (← number valor) (← number id))
    else none
  | _ => none

def parseInsert (ts : List Token) : Option Stmt :=
  match ts with
  | [_, _, _, _, _, _, _, _, _, _, _, _, _, _, .word id, _, .word valor, _, .literal tipo, _,
      .literal descricao, _] =>
    if ts = insertTokens id valor tipo descricao then do
      pure (.insertTransacao (← number id) (← number valor) tipo descricao)
    else none
  | _ => none

def parseStmt (ts : List Token) : Option Stmt := (parseUpdate ts).or (parseInsert ts)

/-- The statements of a text, which semicolons separate. -/
def readSql (text : Bytes) : Option (List Stmt) := do
  let ts ← tokens text
  ((ts.splitOnP (· == .symbol 59)).filter (· ≠ [])).mapM parseStmt

/-! ## The tokens of the query -/

section
variable {t : Transacao}

theorem number_showNat (n : Nat) : number (showNat n) = some n := by
  have h : (showNat n).all isDigit = true := List.all_eq_true.mpr fun b => isDigit_of_mem_showNat
  simp [number, showNat_ne_nil, h]

theorem parse_updateTokens (op : Operacao) (valor id : Nat) :
    parseStmt (updateTokens op.char (showNat valor) (showNat id)) =
      some (.updateSaldo op valor id) := by
  have hop : operacao? op.char = some op := by cases op <;> rfl
  have h : parseUpdate (updateTokens op.char (showNat valor) (showNat id)) =
      some (.updateSaldo op valor id) := by
    show (if _ = _ then _ else _) = _
    rw [if_pos rfl]
    simp [hop, number_showNat]
  rw [parseStmt, h]
  rfl

theorem parse_insertTokens (valor id : Nat) (tipo descricao : Bytes) :
    parseStmt (insertTokens (showNat id) (showNat valor) tipo descricao) =
      some (.insertTransacao id valor tipo descricao) := by
  have hu : parseUpdate (insertTokens (showNat id) (showNat valor) tipo descricao) = none := rfl
  have h : parseInsert (insertTokens (showNat id) (showNat valor) tipo descricao) =
      some (.insertTransacao id valor tipo descricao) := by
    show (if _ = _ then _ else _) = _
    rw [if_pos rfl]
    simp [number_showNat]
  rw [parseStmt, hu, h, Option.none_or]

/-- Only the tokens of an INSERT are read as one. -/
theorem tokens_of_parse_insert {ts : List Token} {id : Nat} {valor : Int} {tipo descricao : Bytes}
    (h : parseStmt ts = some (.insertTransacao id valor tipo descricao)) :
    ∃ i v, ts = insertTokens i v tipo descricao := by
  rw [parseStmt, Option.or_eq_some_iff] at h
  rcases h with h | ⟨_, h⟩
  · unfold parseUpdate at h
    split at h
    · split at h
      · simp [Option.bind_eq_some_iff] at h
      · cases h
    · cases h
  · unfold parseInsert at h
    split at h
    · split at h
      · rename_i hts
        simp only [Option.bind_eq_bind, Option.bind_eq_some_iff, Option.pure_def,
          Option.some.injEq, Stmt.insertTransacao.injEq] at h
        obtain ⟨_, _, _, _, _, _, rfl, rfl⟩ := h
        exact ⟨_, _, hts⟩
      · cases h
    · cases h

/-- The text up to the description. -/
def queryStart (t : Transacao) : Bytes :=
  ascii "update cliente set saldo = saldo " ++ ([(operacaoDe t).char, 32] ++
    (showInt t.valor.toInt ++ (ascii " where id = " ++ (showNat t.idCliente ++
    (ascii ";insert into transacao(id_cliente, valor, tipo, descricao) values(" ++
    (showNat t.idCliente ++ (ascii ", " ++ (showInt t.valor.toInt ++ (ascii ", '" ++
    (t.tipo ++ ascii "', '"))))))))))

theorem insertAsyncQuery_eq (t : Transacao) :
    insertAsyncQuery t = queryStart t ++ (t.descricao ++ 39 :: ascii ");") := by
  have h₁ : ascii "');" = 39 :: ascii ");" := by decide
  have h₂ : ascii ";insert into transacao(id_cliente, valor, tipo, descricao) values(" =
      ascii ";" ++ ascii "insert into transacao(id_cliente, valor, tipo, descricao) values(" := by
    decide
  have h₃ : ascii " " = [32] := by decide
  simp only [insertAsyncQuery, queryStart, h₁, h₂, h₃, List.append_assoc, List.cons_append,
    List.nil_append]

theorem feed_showNat (n : Nat) : feed .normal (showNat n) = (.word (showNat n), []) :=
  feed_normal_word (showNat_ne_nil n) fun _ hb => isWord_of_isDigit (isDigit_of_mem_showNat hb)

theorem feed_then {m m₁ m₂ : Mode} {a b : Bytes} {ts₁ ts₂ : List Token}
    (ha : feed m a = (m₁, ts₁)) (hb : feed m₁ b = (m₂, ts₂)) :
    feed m (a ++ b) = (m₂, ts₁ ++ ts₂) := by
  rw [feed_append, ha, hb]

/-- Up to the description, the text is the UPDATE, a semicolon and the INSERT's start. -/
theorem feed_queryStart (ht : t.tipo = [99] ∨ t.tipo = [100]) {n : Nat} (hn : t.valor.toInt = n) :
    feed .normal (queryStart t) = (.literal [],
      updateTokens (operacaoDe t).char (showNat n) (showNat t.idCliente) ++
        .symbol 59 :: insertStart (showNat t.idCliente) (showNat n) t.tipo) := by
  have hv : showInt t.valor.toInt = showNat n := by
    rw [hn, showInt, if_neg (by omega), Int.natAbs_natCast]
  have hop : feed .normal [(operacaoDe t).char, 32] = (.normal, [.symbol (operacaoDe t).char]) := by
    cases operacaoDe t <;> decide
  have htipo : feed (.literal []) (t.tipo ++ ascii "', '") =
      (.literal [], [.literal t.tipo, .symbol 44]) := by
    rcases ht with ht | ht <;> rw [ht] <;> decide
  have h₁ : feed .normal (ascii "update cliente set saldo = saldo ") =
      (.normal, (updateTokens 0 [] []).take 6) := by decide
  have h₂ : feed .normal (ascii " where id = ") =
      (.normal, [.word (ascii "where"), .word (ascii "id"), .symbol 61]) := by decide
  have h₃ : feed .normal
      (ascii ";insert into transacao(id_cliente, valor, tipo, descricao) values(") =
      (.normal, .symbol 59 :: (insertStart [] [] []).take 14) := by decide
  have h₄ : feed .normal (ascii ", ") = (.normal, [.symbol 44]) := by decide
  have h₅ : feed .normal (ascii ", '") = (.literal [], [.symbol 44]) := by decide
  have h := feed_then h₁ (feed_then hop (feed_then (feed_showNat n)
    (feed_then (feed_word_end (by decide) h₂) (feed_then (feed_showNat t.idCliente)
    (feed_then (feed_word_end (by decide) h₃) (feed_then (feed_showNat t.idCliente)
    (feed_then (feed_word_end (by decide) h₄) (feed_then (feed_showNat n)
    (feed_then (feed_word_end (by decide) h₅) htipo)))))))))
  rw [queryStart, hv]
  exact h

/-- What follows a literal is the rest of its segment. -/
theorem splitOnP_append {α : Type} {p : α → Bool} {a : List α} (b : List α)
    (h : ∀ x ∈ a, p x = false) : ∃ x xs, (a ++ b).splitOnP p = (a ++ x) :: xs := by
  induction a with
  | nil =>
    obtain ⟨x, xs, hx⟩ := List.exists_cons_of_ne_nil (List.splitOnP_ne_nil p b)
    exact ⟨x, xs, hx⟩
  | cons c a ih =>
    obtain ⟨x, xs, hx⟩ := ih fun y hy => h y (List.mem_cons_of_mem _ hy)
    refine ⟨x, xs, ?_⟩
    rw [List.cons_append, List.splitOnP_cons_eq_if_modifyHead, hx, h c List.mem_cons_self]
    rfl

theorem noSemicolon_update (op : Operacao) (valor id : Bytes) :
    ∀ x ∈ updateTokens op.char valor id, (x == .symbol 59) = false := by
  cases op <;> simp [updateTokens, Operacao.char]

theorem noSemicolon_insert (id valor tipo descricao : Bytes) :
    ∀ x ∈ insertStart id valor tipo ++ [.literal descricao], (x == .symbol 59) = false := by
  simp [insertStart]

theorem segments_cons (op : Operacao) (valor id : Bytes) (ts : List Token) :
    ((updateTokens op.char valor id ++ .symbol 59 :: ts).splitOnP (· == .symbol 59)).filter
        (· ≠ []) =
      updateTokens op.char valor id :: (ts.splitOnP (· == .symbol 59)).filter (· ≠ []) := by
  rw [List.splitOnP_append_cons_of_forall_mem (noSemicolon_update op valor id) _ (by decide)]
  rfl

/-- Without a quote in the description, the text reads as what it says. -/
theorem readSql_of_noQuote (ht : t.tipo = [99] ∨ t.tipo = [100]) (hpos : 0 < t.valor.toInt)
    (hd : 39 ∉ t.descricao) : readSql (insertAsyncQuery t) = some (insertStmts t) := by
  obtain ⟨n, hn⟩ := Int.eq_ofNat_of_zero_le (Int.le_of_lt hpos)
  have htokens : tokens (insertAsyncQuery t) = some
      (updateTokens (operacaoDe t).char (showNat n) (showNat t.idCliente) ++ .symbol 59 ::
        (insertTokens (showNat t.idCliente) (showNat n) t.tipo t.descricao ++ [.symbol 59])) := by
    have hend : tokensFrom (.quote t.descricao) (ascii ");") =
        some [.literal t.descricao, .symbol 41, .symbol 59] := rfl
    rw [tokens, insertAsyncQuery_eq, tokensFrom_append, feed_queryStart ht hn, tokensFrom_append,
      feed_literal hd, tokensFrom_cons]
    simp [step, hend, insertTokens]
  have hins : ((insertTokens (showNat t.idCliente) (showNat n) t.tipo t.descricao ++
      [Token.symbol 59]).splitOnP (· == Token.symbol 59)).filter (· ≠ []) =
        [insertTokens (showNat t.idCliente) (showNat n) t.tipo t.descricao] := by
    rw [List.splitOnP_append_cons_of_forall_mem ?_ (Token.symbol 59) rfl]
    · rfl
    · have h := noSemicolon_insert (showNat t.idCliente) (showNat n) t.tipo t.descricao
      simp only [insertTokens, List.mem_append, List.mem_cons, List.not_mem_nil, or_false] at h ⊢
      rintro x (hx | rfl | rfl)
      · exact h x (.inl hx)
      · exact h _ (.inr rfl)
      · decide
  rw [readSql, htokens]
  simp only [Option.bind_eq_bind, Option.bind_some]
  rw [segments_cons, hins]
  simp [parse_updateTokens, parse_insertTokens, insertStmts, hn]

/-- With a quote in it, the literal read in its place is a shorter one. -/
theorem noQuote_of_readSql (ht : t.tipo = [99] ∨ t.tipo = [100]) (hpos : 0 < t.valor.toInt)
    (h : readSql (insertAsyncQuery t) = some (insertStmts t)) : 39 ∉ t.descricao := by
  intro hquote
  obtain ⟨n, hn⟩ := Int.eq_ofNat_of_zero_le (Int.le_of_lt hpos)
  simp only [readSql, Option.bind_eq_bind, Option.bind_eq_some_iff] at h
  obtain ⟨ts, hts, h⟩ := h
  rw [tokens, insertAsyncQuery_eq, tokensFrom_append, feed_queryStart ht hn,
    Option.map_eq_some_iff] at hts
  obtain ⟨ts', hts', rfl⟩ := hts
  obtain ⟨u, rest, rfl, hlen⟩ := literal_shorter (by decide) hquote hts'
  obtain ⟨x, xs, hx⟩ := splitOnP_append rest
    (noSemicolon_insert (showNat t.idCliente) (showNat n) t.tipo ([] ++ u))
  -- the second statement is not the INSERT of the description
  simp only [List.append_assoc, List.cons_append, List.nil_append] at h hx
  rw [segments_cons, hx, List.filter_cons_of_pos (by simp [insertStart]), List.mapM_cons,
    List.mapM_cons] at h
  simp only [Option.bind_eq_bind, Option.bind_eq_some_iff, Option.pure_def, Option.some.injEq,
    insertStmts, List.cons.injEq] at h
  obtain ⟨_, _, _, ⟨_, hparse, _, _, rfl⟩, _, rfl, _⟩ := h
  obtain ⟨i, v, htok⟩ := tokens_of_parse_insert hparse
  have hlit := (List.append_inj htok rfl).2
  simp only [List.cons.injEq, Token.literal.injEq] at hlit
  rw [hlit.1] at hlen
  exact Nat.lt_irrefl _ hlen

/-- **The text means what was asked exactly when the description has no quote.** For
a transaction that passes the handler's checks, the text of its query reads as the
UPDATE and the INSERT of its own values if and only if no byte of the description
as stored is a quote. -/
theorem insertAsyncQuery_read {J : Jansson} {url body : Bytes} (h : Pedido J url body t) :
    readSql (insertAsyncQuery t) = some (insertStmts t) ↔ 39 ∉ t.descricao :=
  ⟨noQuote_of_readSql h.tipo h.valor_pos, readSql_of_noQuote h.tipo h.valor_pos⟩

end

/-- The transaction of a credit of 10 to client 1. -/
def creditoDe (descricao : Bytes) : Transacao :=
  novaTransacao 1 (some (.string descricao)) (some (.string (ascii "c"))) (some (.integer 10))

theorem insertAsyncQuery_read_pix :
    Pedido (.pedido 10 (ascii "c") (ascii "pix") (by decide)) (ascii "/clientes/1/transacoes")
      (pedidoTexto 10 (ascii "c") (ascii "pix")) (creditoDe (ascii "pix")) ∧
    readSql (insertAsyncQuery (creditoDe (ascii "pix"))) =
      some (insertStmts (creditoDe (ascii "pix"))) := by
  have h : Pedido (.pedido 10 (ascii "c") (ascii "pix") (by decide))
      (ascii "/clientes/1/transacoes") (pedidoTexto 10 (ascii "c") (ascii "pix"))
      (creditoDe (ascii "pix")) := ⟨by decide, by decide, by decide⟩
  exact ⟨h, (insertAsyncQuery_read h).mpr (by decide)⟩

/-- The description `');--` passes every check and ends the literal and the INSERT. -/
theorem insertAsyncQuery_injected :
    Pedido (.pedido 10 (ascii "c") (ascii "');--") (by decide)) (ascii "/clientes/1/transacoes")
      (pedidoTexto 10 (ascii "c") (ascii "');--")) (creditoDe (ascii "');--")) ∧
    readSql (insertAsyncQuery (creditoDe (ascii "');--"))) =
      some [.updateSaldo .mais 10 1, .insertTransacao 1 10 (ascii "c") []] ∧
    readSql (insertAsyncQuery (creditoDe (ascii "');--"))) ≠
      some (insertStmts (creditoDe (ascii "');--"))) := by
  have hread : readSql (insertAsyncQuery (creditoDe (ascii "');--"))) =
      some [.updateSaldo .mais 10 1, .insertTransacao 1 10 (ascii "c") []] := by decide +kernel
  refine ⟨⟨by decide, by decide, by decide⟩, hread, ?_⟩
  rw [hread]
  decide

end Crinha
