import Crinha.Segmentation

/-!
# Several requests in one segment

* `keep_alive`: a segment is answered at most once, whatever it holds;
* `keep_alive_merged`: its requests are appended to one another.
-/

namespace Crinha
open CString

section
variable {σ β : Type} [Octet β] {L : Llhttp σ} {parser : Parser σ β}

/-! ## What the callbacks keep -/

/-- Marking a byte changes the request by the callback for the open span, if at all. -/
theorem request_mark {request request' : HttpRequest β}
    {pending pending' : Option (Span × List β)} {span : Option Span} {b : β}
    (h : mark request pending span b = some (request', pending')) :
    request' = request ∨ flush request pending = some request' := by
  unfold mark at h
  split at h
  · split at h
    · exact .inl (Prod.mk.inj (Option.some.inj h)).1.symm
    · obtain ⟨r, hr, he⟩ := Option.map_eq_some_iff.mp h
      exact .inr ((Prod.mk.inj he).1 ▸ hr)
  · obtain ⟨r, hr, he⟩ := Option.map_eq_some_iff.mp h
    exact .inr ((Prod.mk.inj he).1 ▸ hr)

theorem str_appendSpan_le {cap limit : Nat} {h : limit ≤ cap} {buffer buffer' : Buffer β cap}
    {span : List β} (ha : appendSpan limit h buffer span = some buffer') :
    buffer'.str.length ≤ limit := by
  have hstr := str_appendSpan ha
  unfold appendSpan at ha
  split at ha
  · have hc := length_cstr_le span
    rw [hstr, List.length_append]
    omega
  · cases ha

/-- What a request holds fits its arrays. -/
def HttpRequest.Cabido (request : HttpRequest β) : Prop := Cabe request.url.str request.body.str

theorem HttpRequest.Cabido.flush {request request' : HttpRequest β}
    {pending : Option (Span × List β)} (h : request.Cabido)
    (hf : flush request pending = some request') : request'.Cabido := by
  have noNul (url : Buffer β httpRequestUrlBufferSize) (body : Buffer β httpRequestBodyBufferSize) :
      ∀ b ∈ url.str ++ body.str, Octet.val b ≠ 0 := by
    intro b hb
    rcases List.mem_append.mp hb with hb | hb <;> exact val_of_mem_cstr hb
  match pending with
  | none => exact (Option.some.inj hf) ▸ h
  | some (.url, bytes) =>
    obtain ⟨url, hu, rfl⟩ := Option.map_eq_some_iff.mp hf
    have hle := str_appendSpan_le hu
    exact ⟨Nat.lt_of_le_pred (by decide) hle, h.body_le, noNul _ _⟩
  | some (.body, bytes) =>
    obtain ⟨body, hb, rfl⟩ := Option.map_eq_some_iff.mp hf
    exact ⟨h.url_le, str_appendSpan_le hb, noNul _ _⟩

theorem HttpRequest.Cabido.parse {data : List β} (h : parser.request.Cabido) :
    (httpParserParse L parser data).1.request.Cabido := by
  have hr : (resume parser).request.Cabido := by
    unfold resume
    split <;> exact h
  simp only [httpParserParse, execute]
  split
  · have keeps := @executeFrom_keeps σ β _ L (fun request _ => request.Cabido)
      (fun h hf => h.flush hf) (fun h => h) (fun h => h) data
    apply keeps ?_ hr
    intro b _ request pending span request' pending' h hm
    rcases request_mark hm with he | hf
    · exact he ▸ h
    · exact h.flush hf
  · exact hr

theorem HttpRequest.Limpo.cabido {request : HttpRequest β} (h : request.Limpo) :
    request.Cabido := by
  unfold HttpRequest.Cabido
  rw [h.1, h.2]
  exact ⟨Nat.zero_lt_succ _, Nat.zero_le _, by simp⟩

/-- However the segments are cut, what is routed fits the arrays. -/
theorem cabe_socketRead {segments : List (List β)} : ∀ {parser : Parser σ β},
    parser.request.Cabido → ∀ call ∈ (socketRead L parser segments).2, Cabe call.url call.body := by
  induction segments with
  | nil =>
    intro parser _ call hc
    cases hc
  | cons buffer segments ih =>
    intro parser h call hc
    have hp : (httpParserParse L parser buffer).1.request.Cabido := h.parse
    simp only [socketRead] at hc
    split at hc
    · rcases List.mem_cons.mp hc with rfl | hc
      · exact hp
      · exact ih (limpo_reset L _).cabido call hc
    · exact ih hp call hc

/-! ## Messages back to back -/

/-- Messages that keep the connection alive, read one after another from the state
`s`, and the calls to make for each of them alone. -/
inductive Mensagens (L : Llhttp σ) : σ → List (List β) → List (RouterCall β) → Prop where
  | nil (s : σ) : Mensagens L s [] []
  | cons {s : σ} {message : List β} {r : Leitura σ β} {messages : List (List β)}
      {calls : List (RouterCall β)} (read : readMessage L s message = some r)
      (alive : L.closed r.state = false) (rest : Mensagens L r.state messages calls) :
      Mensagens L s (message :: messages) (⟨L.method r.state, r.url, r.body⟩ :: calls)

theorem Mensagens.length_eq {s : σ} {messages : List (List β)} {calls : List (RouterCall β)}
    (h : Mensagens L s messages calls) : calls.length = messages.length := by
  induction h with
  | nil => rfl
  | cons _ _ _ ih => rw [List.length_cons, List.length_cons, ih]

/-- A segment is answered at most once. -/
theorem length_socketRead_le (L : Llhttp σ) (parser : Parser σ β) (segments : List (List β)) :
    (socketRead L parser segments).2.length ≤ segments.length := by
  induction segments generalizing parser with
  | nil => exact Nat.le_refl _
  | cons buffer segments ih =>
    simp only [socketRead, List.length_cons]
    split
    · exact Nat.succ_le_succ (ih _)
    · exact Nat.le_succ_of_le (ih _)

/-- A message in one segment to an idle server. -/
theorem socketRead_single (hidle : Idle parser) {message : List β} {r : Leitura σ β}
    (hr : readMessage L parser.state message = some r) (hc : Cabe r.url r.body) :
    (socketRead L parser [message]).2 = [⟨L.method r.state, r.url, r.body⟩] := by
  have hne : message ≠ [] := ne_nil_of_readMessage hr
  have h : Falta L parser message ⟨L.method r.state, r.url, r.body⟩ := hidle.falta hr hc
  exact (socketRead_message (by simp) (by simpa using hne) (by simpa using h)).2

/-- **Keep-alive.** Requests that come back to back in one segment to an idle server
are routed one by one exactly if there is only one, and it fits the arrays. -/
theorem keep_alive {messages : List (List β)} {calls : List (RouterCall β)} (hidle : Idle parser)
    (h : Mensagens L parser.state messages calls) (hne : messages ≠ []) :
    (socketRead L parser [messages.flatten]).2 = calls ↔
      messages.length = 1 ∧ ∀ call ∈ calls, Cabe call.url call.body := by
  constructor
  · intro he
    have hle := length_socketRead_le L parser [messages.flatten]
    rw [he, h.length_eq] at hle
    have hpos := List.length_pos_iff.mpr hne
    exact ⟨Nat.le_antisymm hle hpos, he ▸ cabe_socketRead hidle.limpo.cabido⟩
  · intro ⟨hlen, hc⟩
    cases h with
    | nil => cases hlen
    | @cons _ message r messages calls hr _ hrest =>
      obtain rfl : messages = [] := List.eq_nil_of_length_eq_zero (Nat.succ.inj hlen)
      cases hrest
      rw [List.flatten_singleton]
      exact socketRead_single hidle hr (hc _ (List.mem_singleton.mpr rfl))

end

theorem keep_alive_get :
    (socketRead getMachine (httpParserInit getMachine .zeros .zeros)
      [[ascii "GET /clientes/1/extrato HTTP/1.1\r\n\r\n"].flatten]).2 =
        [⟨1, ascii "/clientes/1/extrato", []⟩] := by
  have hr : readMessage getMachine .start (ascii "GET /clientes/1/extrato HTTP/1.1\r\n\r\n") =
      some ⟨.start, ascii "/clientes/1/extrato", []⟩ := by decide +kernel
  have hc : Cabe (ascii "/clientes/1/extrato") [] :=
    ⟨by decide, by decide, by decide +kernel⟩
  have hidle : Idle (httpParserInit getMachine .zeros .zeros : Parser GetState UInt8) :=
    idle_init .zeros .zeros
  exact (keep_alive hidle (.cons hr rfl (.nil _)) (by simp)).mpr ⟨rfl, by simpa using hc⟩

/-- Two requests in one segment are routed once, with both URLs in one. -/
theorem keep_alive_merged :
    Mensagens getMachine GetState.start
      [ascii "GET /clientes/1/extrato HTTP/1.1\r\n\r\n",
        ascii "GET /clientes/2/extrato HTTP/1.1\r\n\r\n"]
      [⟨1, ascii "/clientes/1/extrato", []⟩, ⟨1, ascii "/clientes/2/extrato", []⟩] ∧
    (socketRead getMachine (httpParserInit getMachine .zeros .zeros)
      [[ascii "GET /clientes/1/extrato HTTP/1.1\r\n\r\n",
        ascii "GET /clientes/2/extrato HTTP/1.1\r\n\r\n"].flatten]).2 =
        [⟨1, ascii "/clientes/1/extrato/clientes/2/extrato", []⟩] := by
  refine ⟨?_, by decide +kernel⟩
  have h₁ : readMessage getMachine .start (ascii "GET /clientes/1/extrato HTTP/1.1\r\n\r\n") =
      some ⟨.start, ascii "/clientes/1/extrato", []⟩ := by decide +kernel
  have h₂ : readMessage getMachine .start (ascii "GET /clientes/2/extrato HTTP/1.1\r\n\r\n") =
      some ⟨.start, ascii "/clientes/2/extrato", []⟩ := by decide +kernel
  exact .cons h₁ rfl (.cons h₂ rfl (.nil _))

end Crinha
