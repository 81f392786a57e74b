import Crinha.Postgres

/-!
# Answers and commits

* `acknowledged`: what an answer says of the commit;
* `acknowledged_not_committed`: a 200 whose query breaks `chk_saldo`.
-/

namespace Crinha
open Pipeline CString

section
variable {P : Type} [DecidableEq P] {B : Postgres} {J : Jansson} {R : Relogio}
  {tr : List (Rotulo P)} {s : Estado P}

theorem foldl_map_add {α : Type} (f : α → Int) (l : List α) (o : Option Int) :
    l.foldl (fun x e => x.map (· + f e)) o = o.map (· + (l.map f).sum) := by
  induction l generalizing o with
  | nil => simp
  | cons e l ih =>
    rw [List.foldl_cons, ih, Option.map_map]
    congr 1
    funext x
    simp [Int.add_assoc]

/-- What a query adds to the saldo of client `id`. -/
def efeito (id : Nat) (query : List Stmt) : Int := (query.map (Stmt.delta id)).sum

/-- Between two states, each saldo changes by what the queries committed in
between add to it. -/
theorem saldo_eq_commits {s₀ : Estado P} (h : Run (banco R) (handler J R) s₀ tr s) (id : Nat) :
    s.store.saldo id =
      (s₀.store.saldo id).map (· + ((commits tr).map fun e => efeito id e.2.2).sum) := by
  rw [observe_commits (fun d => d.saldo id) (fun x c => x.map (· + efeito id c))
    (fun hr => Db.run_saldo hr id) h, ← foldl_map_add]

/-- The rows of `transacao` are those of the committed queries, in order. -/
theorem transacao_eq_commits (h : Execucao J R tr s) :
    s.store.transacao.map TransacaoRow.lancamento =
      (commits tr).flatMap fun e => e.2.2.filterMap Stmt.lancamento? := by
  have he : ∀ (l : List (P × Nat × List Stmt)) (x : List Lancamento),
      l.foldl (fun x e => x ++ e.2.2.filterMap Stmt.lancamento?) x =
        x ++ l.flatMap fun e => e.2.2.filterMap Stmt.lancamento? := by
    intro l
    induction l with
    | nil => simp
    | cons e l ih => intro x; simp [ih]
  rw [observe_commits (fun d => d.transacao.map TransacaoRow.lancamento)
    (fun x c => x ++ c.filterMap Stmt.lancamento?) Db.run_transacao h, he]
  rfl

/-- Once a connection has drained, a request that sent nothing has no execution. -/
theorem execsOf_refused {p : P} {n : Nat} {resp : Resposta} (h : Execucao J R tr s)
    (drained : (s.client p).inFlight = []) (hr : ⟨p, n, .answer resp⟩ ∈ tr)
    (refused : resp.status ≠ 200) : execsOf tr p n = [] := by
  have he := execsOf_drained h n drained
  rw [answered_refused h hr refused] at he
  exact List.map_eq_nil_iff.mp he

/-- Once a connection has drained, a request that was accepted has one execution. -/
theorem execsOf_ok {p : P} {n : Nat} {url : Bytes} {body : Option Bytes} {resp : Resposta}
    (h : Execucao J R tr s) (drained : (s.client p).inFlight = [])
    (ha : ⟨p, n, .accept (.post url body)⟩ ∈ tr) (hr : ⟨p, n, .answer resp⟩ ∈ tr)
    (ok : resp.status = 200) : ∃ body' t o, body = some body' ∧ Pedido J url body' t ∧
      execsOf tr p n = [(insertStmts t, o)] := by
  obtain ⟨body', r, cliente, t, hb, haceito, hacts, _⟩ := answered_ok h ha hr ok
  have he := execsOf_drained h n drained
  rw [hacts] at he
  obtain ⟨⟨c, o⟩, hx, hc⟩ := List.map_eq_singleton_iff.mp he
  obtain rfl : c = insertStmts t := hc
  exact ⟨body', t, o, hb, haceito.toPedido, hx⟩

/-- The database rejects a query only when a constraint of its tables fails then. -/
theorem rejected {p : P} {n : Nat} {t : Transacao} (h : Execucao J R tr s)
    (he : (insertStmts t, none) ∈ execsOf tr p n) :
    ∃ a b s', tr = a ++ ⟨p, n, .exec (insertStmts t) none⟩ :: b ∧ Execucao J R a s' ∧
      ¬((∀ st ∈ insertStmts t, st.Admits s'.store) ∧ s'.store.seq < serialMax) := by
  obtain ⟨a, b, s', agora, htr, h', ho⟩ := h.exec_at (mem_execsOf.mp he)
  refine ⟨a, b, s', htr, h', fun hc => ?_⟩
  have hn : Db.run agora (insertStmts t) s'.store = none := ho.symm
  rw [run_insertStmts, if_pos hc] at hn
  cases hn

/-- **No transaction is applied twice, and none is lost but by the database's own
constraints.** In a state with nothing in flight the tables are what the committed
queries made of them; a refused request has no query; an accepted one has had its
query executed once, and so has one row, or none if the database rejected it. -/
theorem acknowledged (lidas : Lidas J tr) (h : ExecucaoSql B J R tr s)
    (quiet : ∀ p, (s.client p).inFlight = []) :
    s.store.transacao.map TransacaoRow.lancamento =
      (commits tr).flatMap (fun e => e.2.2.filterMap Stmt.lancamento?) ∧
    (∀ id, s.store.saldo id =
      (Db.init.saldo id).map (· + ((commits tr).map fun e => efeito id e.2.2).sum)) ∧
    ∀ p n url body resp, ⟨p, n, .accept (.post url body)⟩ ∈ tr → ⟨p, n, .answer resp⟩ ∈ tr →
      (resp.status ≠ 200 → commitsOf tr p n = []) ∧
      (resp.status = 200 → ∃ body' t o, body = some body' ∧ Pedido J url body' t ∧
        execsOf tr p n = [(insertStmts t, o)] ∧
        (commitsOf tr p n = [insertStmts t] ∨ commitsOf tr p n = [] ∧
          ∃ a b s', tr = a ++ ⟨p, n, .exec (insertStmts t) none⟩ :: b ∧ ExecucaoSql B J R a s' ∧
            ¬((∀ st ∈ insertStmts t, st.Admits s'.store) ∧ s'.store.seq < serialMax))) := by
  rw [execucaoSql_iff lidas] at h
  refine ⟨transacao_eq_commits h, saldo_eq_commits h, ?_⟩
  intro p n url body resp ha hr
  constructor
  · intro refused
    rw [commitsOf_eq, execsOf_refused h (quiet p) hr refused]
    rfl
  · intro ok
    obtain ⟨body', t, o, hb, hpedido, hx⟩ := execsOf_ok h (quiet p) ha hr ok
    refine ⟨body', t, o, hb, hpedido, hx, ?_⟩
    rw [commitsOf_eq, hx]
    cases o with
    | some d => exact .inl rfl
    | none =>
      obtain ⟨a, b, s', htr, h', hc⟩ := rejected h (by rw [hx]; exact List.mem_cons_self)
      subst htr
      exact .inr ⟨rfl, a, b, s', rfl, (execucaoSql_iff lidas.left).mpr h', hc⟩

end

/-- A debit of 60000 of client 1. -/
def debito : Requisicao :=
  .post (ascii "/clientes/1/transacoes") (some (pedidoTexto 60000 (ascii "d") (ascii "pix")))

/-- It is read, sent, answered 200 and executed. -/
def debitoRespondido : List (Rotulo Bool) → Bool
  | [⟨true, 0, .accept (.post _ (some _))⟩, _, _, ⟨true, 0, .answer resp⟩, _] =>
    resp.status == 200
  | _ => false

/-- It is answered 200, executed once and committed. -/
theorem acknowledged_deposito : ∃ (J : Jansson) (tr : List (Rotulo Bool)) (s : Estado Bool),
    ExecucaoSql .estrito J .parado tr s ∧
    (∃ resp, ⟨true, 0, .answer resp⟩ ∈ tr ∧ resp.status = 200) ∧
    s.store.transacao.map TransacaoRow.lancamento =
      (commits tr).flatMap (fun e => e.2.2.filterMap Stmt.lancamento?) ∧
    ∃ url body t o, ⟨true, 0, .accept (.post url (some body))⟩ ∈ tr ∧ Pedido J url body t ∧
      execsOf tr true 0 = [(insertStmts t, o)] ∧ commitsOf tr true 0 = [insertStmts t] := by
  obtain ⟨tr, s, lidas, h, hs⟩ := execucaoSql_of_play (R := .parado) .estrito
    (J := .pedido 60000 (ascii "d") (ascii "pix") (by decide)) (lida_pedido (by decide))
    [.accept true debito, .go true, .go true, .go true, .exec true 0]
    (fun tr s => (s.client true).inFlight.isEmpty && (s.client false).inFlight.isEmpty &&
      !(commitsOf tr true 0).isEmpty && debitoRespondido tr) (by decide)
  simp only [Bool.and_eq_true, List.isEmpty_iff, Bool.not_eq_true'] at hs
  obtain ⟨⟨⟨ht, hf⟩, hc⟩, hd⟩ := hs
  unfold debitoRespondido at hd
  split at hd
  · rename_i url body l resp l'
    obtain ⟨hrows, _, hreq⟩ := acknowledged lidas h (by rintro (_ | _); exacts [hf, ht])
    obtain ⟨_, t, o, hbody, hp, hx, hcommit | ⟨hn, _⟩⟩ :=
      (hreq true 0 _ _ resp List.mem_cons_self (by simp)).2 (by simpa using hd)
    · obtain rfl := Option.some.inj hbody
      exact ⟨_, _, s, h, ⟨resp, by simp, by simpa using hd⟩, hrows, _, _, t, o,
        List.mem_cons_self, hp, hx, hcommit⟩
    · simp [hn] at hc
  · cases hd

/-- Two processes debit 60000 each: both pass the test on the limit of 100000 and
both are answered 200, but the second query to be executed is rejected. -/
theorem acknowledged_not_committed : ∃ (J : Jansson) (tr : List (Rotulo Bool)) (s : Estado Bool),
    Lidas J tr ∧ ExecucaoSql .estrito J .parado tr s ∧ (∀ p, (s.client p).inFlight = []) ∧
    (∃ resp, ⟨true, 0, .answer resp⟩ ∈ tr ∧ resp.status = 200) ∧
    (∃ resp, ⟨false, 1, .answer resp⟩ ∈ tr ∧ resp.status = 200) ∧ commitsOf tr false 1 = [] ∧
    s.store.transacao.length = 1 := by
  obtain ⟨tr, s, lidas, h, hs⟩ := execucaoSql_of_play (R := .parado) .estrito
    (J := .pedido 60000 (ascii "d") (ascii "pix") (by decide)) (lida_pedido (by decide))
    [.accept true debito, .accept false debito, .go true, .go false, .go true, .go false,
      .go true, .go false, .exec true 0, .exec false 0]
    (fun tr s => (s.client true).inFlight.isEmpty && (s.client false).inFlight.isEmpty &&
      (answersOf tr true 0).any (·.status == 200) &&
      (answersOf tr false 1).any (·.status == 200) && (commitsOf tr false 1).isEmpty &&
      s.store.transacao.length == 1) (by decide)
  simp only [Bool.and_eq_true, beq_iff_eq, List.isEmpty_iff, List.any_eq_true] at hs
  obtain ⟨⟨⟨⟨⟨ht, hf⟩, resp, hr, hok⟩, resp', hr', hok'⟩, hc⟩, hl⟩ := hs
  exact ⟨_, tr, s, lidas, h, by rintro (_ | _); exacts [hf, ht], ⟨resp, mem_answersOf.mp hr, hok⟩,
    ⟨resp', mem_answersOf.mp hr', hok'⟩, hc, hl⟩

end Crinha
