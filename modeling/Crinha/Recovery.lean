import Crinha.Isolation

/-!
# After a rejected request

An error of the shared parser is never cleared, so that from the first request that
the parser rejects on, the server routes nothing (`no_recovery`).
-/

namespace Crinha
open CString

section
variable {σ β α : Type} [Octet β] {L : Llhttp σ} {parser : Parser σ β}

/-- Some read of the connection makes `http_parser_parse` return false. -/
def Rejects (L : Llhttp σ) (parser : Parser σ β) (segments : List (List β)) : Prop :=
  ∃ before buffer after, segments = before ++ buffer :: after ∧
    (httpParserParse L (socketRead L parser before).1 buffer).2 = false

theorem errno_of_parse {data : List β} (h : (httpParserParse L parser data).2 = false) :
    (httpParserParse L parser data).1.errno = .failed := by
  simpa [httpParserParse] using h

/-- A rejected segment is not routed, and leaves the parser failed. -/
theorem socketRead_reject {buffer : List β} (h : (httpParserParse L parser buffer).2 = false)
    (segments : List (List β)) :
    socketRead L parser (buffer :: segments) = ((httpParserParse L parser buffer).1, []) := by
  have hread : socketRead L parser (buffer :: segments) =
      socketRead L (httpParserParse L parser buffer).1 segments := by
    simp [socketRead, h]
  rw [hread, socketRead_failed L (errno_of_parse h)]

theorem errno_of_rejects {segments : List (List β)} (h : Rejects L parser segments) :
    (socketRead L parser segments).1.errno = .failed := by
  obtain ⟨before, buffer, after, rfl, hp⟩ := h
  rw [socketRead_append, socketRead_reject hp]
  exact errno_of_parse hp

/-- **No recovery.** After a connection whose bytes the parser rejects, no request of
any later connection is routed. -/
theorem no_recovery {segments : List (List β)} (h : Rejects L parser segments) (connection : α)
    (later : List (α × List (List β))) :
    (socketLoop L parser ((connection, segments) :: later)).2 =
      (connection, (socketRead L parser segments).2) :: later.map fun c => (c.1, []) := by
  simp only [socketLoop, socketLoop_failed L (errno_of_rejects h)]

end

theorem no_recovery_get :
    (socketLoop getMachine (httpParserInit getMachine .zeros .zeros)
      [(1, [ascii "!"]), (2, [ascii "GET /clientes/2/extrato HTTP/1.1\r\n\r\n"])]).2 =
        [(1, []), (2, [])] :=
  no_recovery ⟨[], _, [], rfl, by decide +kernel⟩ 1 _

/-- A connection that sends one byte that is no request, then a well-formed request
that a new server would route. -/
theorem recovery_broken :
    (httpParserParse getMachine (httpParserInit getMachine .zeros .zeros) (ascii "!")).2 = false ∧
    (socketLoop getMachine (httpParserInit getMachine .zeros .zeros)
      [(1, [ascii "!"]), (2, [ascii "GET /clientes/2/extrato HTTP/1.1\r\n\r\n"])]).2 =
        [(1, []), (2, [])] ∧
    (socketLoop getMachine (httpParserInit getMachine .zeros .zeros)
      [(2, [ascii "GET /clientes/2/extrato HTTP/1.1\r\n\r\n"])]).2 =
        [(2, [⟨1, ascii "/clientes/2/extrato", []⟩])] := by
  refine ⟨by decide +kernel, by decide +kernel, by decide +kernel⟩

end Crinha
