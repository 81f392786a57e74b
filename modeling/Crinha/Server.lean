import Crinha.HttpParser

/-!
# `server/server.c`

The read loop of one connection, and the connections `socket_loop` serves one
after another: each is read until `recv` has no data, and then closed.
-/

namespace Crinha
open CString

/-- A call of `router_route`, with the strings its arguments point to. -/
structure RouterCall (β : Type) where
  method : UInt8
  url : List β
  body : List β
  deriving DecidableEq

section
variable {σ β : Type} [Octet β] (L : Llhttp σ)

/-- `recv` returns the elements of `segments` one after another, and then no data.
The calls are those whose response is sent on the connection. -/
def socketRead (parser : Parser σ β) : List (List β) → Parser σ β × List (RouterCall β)
  | [] => (parser, [])
  | buffer :: segments =>
    let (parser, parsed) := httpParserParse L parser buffer
    if parsed && httpParserRequestIsComplete parser then
      let call : RouterCall β :=
        ⟨L.method parser.state, parser.request.url.str, parser.request.body.str⟩
      let (parser, calls) := socketRead (httpParserResetRequest L parser) segments
      (parser, call :: calls)
    else socketRead parser segments

/-- A connection over its whole life: a burst is what `recv` returns before it reports
that there is no data yet. The socket is then shut down and closed, so that no later
burst is read. -/
def socketServe (parser : Parser σ β) : List (List (List β)) → Parser σ β × List (RouterCall β)
  | [] => (parser, [])
  | burst :: _ => socketRead L parser burst

/-- The connections served, each with the segments its reads return, in the order
of `socket_loop`. -/
def socketLoop {α : Type} (parser : Parser σ β) :
    List (α × List (List β)) → Parser σ β × List (α × List (RouterCall β))
  | [] => (parser, [])
  | (connection, segments) :: connections =>
    let (parser, calls) := socketRead L parser segments
    let (parser, served) := socketLoop parser connections
    (parser, (connection, calls) :: served)

theorem socketRead_append (parser : Parser σ β) (a b : List (List β)) :
    socketRead L parser (a ++ b) =
      ((socketRead L (socketRead L parser a).1 b).1,
        (socketRead L parser a).2 ++ (socketRead L (socketRead L parser a).1 b).2) := by
  induction a generalizing parser with
  | nil => rfl
  | cons buffer a ih =>
    simp only [List.cons_append, socketRead]
    split
    · simp [ih]
    · rw [ih]

/-- A parser that has failed routes nothing. -/
theorem socketRead_failed {parser : Parser σ β} (h : parser.errno = .failed)
    (segments : List (List β)) : socketRead L parser segments = (parser, []) := by
  induction segments with
  | nil => rfl
  | cons buffer segments ih =>
    simp only [socketRead, parse_failed L h]
    exact ih

theorem socketLoop_failed {α : Type} {parser : Parser σ β} (h : parser.errno = .failed)
    (connections : List (α × List (List β))) :
    socketLoop L parser connections = (parser, connections.map fun c => (c.1, [])) := by
  induction connections with
  | nil => rfl
  | cons c connections ih =>
    obtain ⟨connection, segments⟩ := c
    simp only [socketLoop, socketRead_failed L h, ih, List.map_cons]

end

end Crinha
