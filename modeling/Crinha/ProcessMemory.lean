import Crinha.Extrato
import Crinha.HandlerMemory
import Crinha.Memory.Processes

/-!
# The processes with their heaps

* `execucaoMem_sound`, `execucaoMem_complete`: what the processes do with their heaps is what
  they do without.
-/

namespace Crinha
open Pipeline Memory Assertion CString

section
variable {P : Type} [DecidableEq P]

/-- A routed request, up to the text of its response. -/
def handlerMem (J : Jansson) (R : Relogio) (al : Allocator Celula) : Requisicao → MemProg Bytes
  | .post url body => clienteControllerSaveTransacaoMem J al url body
  | .get url agora => clienteControllerFindByIdMem al url (R.isoStr agora)

abbrev RotuloMem (P : Type) :=
  Label P Db Consulta (Option DBResultSet) (List Stmt) (Bytes × Heap Celula)
    (Requisicao × Heap Celula)

abbrev EstadoMem (P : Type) :=
  State P Db Consulta (Option DBResultSet) (List Stmt) (Bytes × Heap Celula)
    (Requisicao × Heap Celula)

/-- The runs of processes whose heaps are first `heaps₀` and last `heaps`. -/
abbrev ExecucaoMem (J : Jansson) (R : Relogio) (al : Allocator Celula) (heaps₀ : P → Heap Celula) :
    List (RotuloMem P) → EstadoMem P → (P → Heap Celula) → Prop :=
  LocalRun (banco R) (handlerMem J R al) Db.init heaps₀

end

theorem handlerMem_refines (J : Jansson) (R : Relogio) (al : Allocator Celula) (req : Requisicao) :
    Refines Legal 1 (handlerMem J R al req) (handler J R req)
      fun text resp => fact (text = resp.text) := by
  cases req with
  | post url body => exact saveTransacao_refines al J url body
  | get url agora => exact findById_refines al url (R.isoStr agora)

/-! ## What the database answers -/

theorem noNul_toChar (R : Relogio) (t : Nat) : 0 ∉ R.toChar t :=
  fun hm => absurd (R.toChar_ascii t 0 hm).1 (by decide)

theorem TransacaoRow.Gravada.noNul_record {r : TransacaoRow} (h : r.Gravada) (R : Relogio) :
    ∀ s ∈ r.record R.toChar, 0 ∉ s := by
  have htipo : 0 ∉ r.tipo := by rcases h.tipo with ht | ht <;> rw [ht] <;> decide
  simp only [TransacaoRow.record, List.forall_mem_cons]
  exact ⟨noNul_showNat _, noNul_showNat _, noNul_showInt _, htipo, h.noNul, noNul_toChar R _,
    fun _ hs => absurd hs List.not_mem_nil⟩

theorem legal_answer {d : Db} (hd : d.Gravadas) (R : Relogio) (q : Consulta) :
    Legal q (d.answer R.toChar q) := by
  intro rs hrs row hrow
  cases q with
  | cliente id =>
    cases hrs
    obtain ⟨c, _, rfl⟩ := List.mem_map.mp hrow
    refine ⟨rfl, ?_⟩
    simp only [ClienteRow.record, List.forall_mem_cons]
    exact ⟨noNul_showNat _, noNul_showInt _, noNul_showInt _, fun _ hs => absurd hs List.not_mem_nil⟩
  | ultimas id =>
    cases hrs
    obtain ⟨r, hr, rfl⟩ := List.mem_map.mp hrow
    exact ⟨rfl, (hd r (mem_ultimas hr).1).noNul_record R⟩

/-! ## All processes -/

def MesmoTexto (text : Bytes) (resp : Resposta) : Prop := text = resp.text

theorem handlerMem_mirrors (J : Jansson) (R : Relogio) (al : Allocator Celula) {P : Type}
    (heaps₀ : P → Heap Celula) (req : Requisicao) (p : P) :
    Mirrors Legal (GivesBack MesmoTexto heaps₀ p) (handlerMem J R al req (heaps₀ p))
      (handler J R req) :=
  (handlerMem_refines J R al req).mirrors (heaps₀ p)

section
variable {P : Type} [DecidableEq P] {J : Jansson} {R : Relogio} {al : Allocator Celula}
  {heaps₀ heaps : P → Heap Celula}

/-- The same steps, each request on the heap its process started with, each answer the
text of the response, with that same heap. -/
abbrev MesmosRotulos (heaps₀ : P → Heap Celula) : List (RotuloMem P) → List (Rotulo P) → Prop :=
  List.Forall₂ (SameLabel (StartsWith heaps₀) (GivesBack MesmoTexto heaps₀))

abbrev MesmoEstado (heaps₀ : P → Heap Celula) : EstadoMem P → Estado P → Prop :=
  SameState Legal (GivesBack MesmoTexto heaps₀)

/-- **A run with heaps is a run without them**: the same requests, reads and commits in
the same order, each answer the text of the other's; a process crashes only where it
does without a heap; and every heap is the one its process started with. -/
theorem execucaoMem_sound {tr : List (RotuloMem P)} {s : EstadoMem P}
    (h : ExecucaoMem J R al heaps₀ tr s heaps) :
    heaps = heaps₀ ∧ ∃ tr' s', Execucao J R tr' s' ∧ MesmosRotulos heaps₀ tr tr' ∧
      MesmoEstado heaps₀ s s' :=
  h.sound (handlerMem_mirrors J R al heaps₀) fun hr => legal_answer (gravadas hr) R

/-- **And every run without heaps is one with them**, whatever the heaps and wherever
blocks are allocated. -/
theorem execucaoMem_complete (al : Allocator Celula) (heaps₀ : P → Heap Celula)
    {tr' : List (Rotulo P)} {s' : Estado P} (h : Execucao J R tr' s') :
    ∃ tr s, ExecucaoMem J R al heaps₀ tr s heaps₀ ∧ MesmosRotulos heaps₀ tr tr' ∧
      MesmoEstado heaps₀ s s' :=
  LocalRun.complete (handlerMem_mirrors J R al heaps₀) (fun hr => legal_answer (gravadas hr) R) h

end

/-- A deposit of client 1 that process `true` answered and committed. -/
theorem exists_deposito : ∃ (tr : List (Rotulo Bool)) (s : Estado Bool),
    Execucao (.pedido 10 (ascii "c") (ascii "pix") (by decide)) .parado tr s ∧
      (s.store.saldo 1 == some 10) = true :=
  execucao_of_play _ .parado
    [.accept true (.post (ascii "/clientes/1/transacoes")
        (some (pedidoTexto 10 (ascii "c") (ascii "pix")))),
      .go true, .go true, .exec true 0, .go true]
    (fun _ s => s.store.saldo 1 == some 10) (by decide)

theorem execucaoMem_sound_deposito : ∃ (tr : List (RotuloMem Bool)) (s : EstadoMem Bool) (J : Jansson)
    (heaps : Bool → Heap Celula), ExecucaoMem J .parado .after (fun _ => ∅) tr s heaps ∧
      s.store.saldo 1 = some 10 ∧ heaps = (fun _ => ∅) ∧ ∃ tr' s', Execucao J .parado tr' s' ∧
        MesmosRotulos (fun _ => ∅) tr tr' ∧ MesmoEstado (fun _ => ∅) s s' := by
  obtain ⟨tr', s', h, hs⟩ := exists_deposito
  obtain ⟨tr, s, hmem, _, hsame⟩ := LocalRun.complete
    (handlerMem_mirrors _ .parado .after fun _ => ∅) (fun hr => legal_answer (gravadas hr) .parado) h
  exact ⟨tr, s, _, _, hmem, by rw [hsame.store]; simpa using hs, execucaoMem_sound hmem⟩

theorem execucaoMem_complete_deposito : ∃ (tr : List (RotuloMem Bool)) (s : EstadoMem Bool)
    (J : Jansson) (tr' : List (Rotulo Bool)) (s' : Estado Bool), s'.store.saldo 1 = some 10 ∧
      ExecucaoMem J .parado .after (fun _ => ∅) tr s (fun _ => ∅) ∧
      MesmosRotulos (fun _ => ∅) tr tr' ∧ MesmoEstado (fun _ => ∅) s s' := by
  obtain ⟨tr', s', h, hs⟩ := exists_deposito
  obtain ⟨tr, s, hmem⟩ := execucaoMem_complete .after (fun _ => ∅) h
  exact ⟨tr, s, _, tr', s', by simpa using hs, hmem⟩

end Crinha
