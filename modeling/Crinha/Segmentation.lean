import Crinha.Isolation

/-!
# Segments and bursts

* `socketRead_message`: how a request is cut into segments does not matter;
* `segmentation`: but what comes after a `recv` without data is lost.
-/

namespace Crinha
open CString

section
variable {σ β : Type} [Octet β] (L : Llhttp σ)

/-- What the machine makes of a text: its state afterwards, and the bytes it found to
be part of the URL and of the body. -/
structure Leitura (σ β : Type) where
  state : σ
  url : List β
  body : List β
  deriving DecidableEq

def marked (span : Option Span) (s : Span) (b : β) : List β := if span = some s then [b] else []

/-- The bytes `b` and then what was read. -/
def Leitura.after (effect : Effect σ) (b : β) (r : Leitura σ β) : Leitura σ β :=
  ⟨r.state, marked effect.span .url b ++ r.url, marked effect.span .body b ++ r.body⟩

/-- A text that is part of a message: no byte is an error or completes it. -/
def readPart (s : σ) : List β → Option (Leitura σ β)
  | [] => some ⟨s, [], []⟩
  | b :: bs =>
    match L.next s (Octet.val b) with
    | none => none
    | some effect =>
      if effect.complete then none else (readPart effect.state bs).map (Leitura.after effect b)

/-- A text that is one message: its last byte completes it, and no byte before. -/
def readMessage (s : σ) : List β → Option (Leitura σ β)
  | [] => none
  | b :: bs =>
    match L.next s (Octet.val b) with
    | none => none
    | some effect =>
      if effect.complete then
        match bs with
        | [] => some (Leitura.after effect b ⟨effect.state, [], []⟩)
        | _ :: _ => none
      else (readMessage effect.state bs).map (Leitura.after effect b)

variable {L}

theorem ne_nil_of_readMessage {s : σ} {message : List β} {r : Leitura σ β}
    (h : readMessage L s message = some r) : message ≠ [] := by
  intro he
  rw [he] at h
  cases h

/-- A message cut anywhere before its end is a part and a message. -/
theorem readMessage_append {b : List β} (hb : b ≠ []) : ∀ {a : List β} {s : σ} {r : Leitura σ β},
    readMessage L s (a ++ b) = some r → ∃ r₁ r₂, readPart L s a = some r₁ ∧
      readMessage L r₁.state b = some r₂ ∧ r = ⟨r₂.state, r₁.url ++ r₂.url, r₁.body ++ r₂.body⟩
  | [], s, r, h => ⟨_, r, rfl, h, rfl⟩
  | x :: a, s, r, h => by
    simp only [List.cons_append, readMessage] at h
    split at h
    · cases h
    · rename_i effect he
      split at h
      · split at h
        · rename_i hnil
          simp [hb] at hnil
        · cases h
      · rename_i hc
        obtain ⟨r', hr', rfl⟩ := Option.map_eq_some_iff.mp h
        obtain ⟨r₁, r₂, h₁, h₂, rfl⟩ := readMessage_append hb hr'
        refine ⟨Leitura.after effect x r₁, r₂, ?_, h₂, ?_⟩
        · simp only [readPart, he, if_neg hc, h₁, Option.map_some]
        · simp [Leitura.after]

/-! ## What the request holds -/

/-- The strings of the request, with the bytes of the span that is still open. -/
structure Conteudo (β : Type) where
  url : List β
  body : List β
  complete : Bool

def pendingOf (pending : Option (Span × List β)) (s : Span) : List β :=
  match pending with
  | some (s', bytes) => if s' = s then bytes else []
  | none => []

def conteudo (request : HttpRequest β) (pending : Option (Span × List β)) : Conteudo β :=
  ⟨request.url.str ++ pendingOf pending .url, request.body.str ++ pendingOf pending .body,
    request.complete⟩

/-- Short enough for the arrays, and without NUL. -/
structure Cabe (url body : List β) : Prop where
  url_le : url.length < httpRequestUrlBufferSize
  body_le : body.length ≤ httpRequestBodyBufferSize
  noNul : ∀ b ∈ url ++ body, Octet.val b ≠ 0

theorem Cabe.of_append {u u' v v' : List β} (h : Cabe (u ++ u') (v ++ v')) : Cabe u v where
  url_le := by
    have := h.url_le
    rw [List.length_append] at this
    omega
  body_le := by
    have := h.body_le
    rw [List.length_append] at this
    omega
  noNul := fun b hb => h.noNul b (by
    rcases List.mem_append.mp hb with hb | hb
    · exact List.mem_append_left _ (List.mem_append_left _ hb)
    · exact List.mem_append_right _ (List.mem_append_left _ hb))

theorem flush_conteudo {request : HttpRequest β} {pending : Option (Span × List β)}
    (h : Cabe (conteudo request pending).url (conteudo request pending).body) :
    ∃ request', flush request pending = some request' ∧
      conteudo request' none = conteudo request pending := by
  cases pending with
  | none => exact ⟨request, rfl, rfl⟩
  | some p =>
    obtain ⟨s, bytes⟩ := p
    have hlen := h.url_le
    have hlen' := h.body_le
    have hnul := h.noNul
    simp only [conteudo, List.length_append] at hlen hlen' hnul
    cases s with
    | url =>
      simp only [pendingOf, if_true] at hlen hnul
      have hc : cstr bytes = bytes := cstr_of_noNul fun b hb => hnul b (by simp [hb])
      obtain ⟨url, hu⟩ : ∃ url, appendSpan (httpRequestUrlBufferSize - 1) (by decide) request.url
          bytes = some url := appendSpan_isSome (by decide) (by omega)
      refine ⟨{ request with url := url }, by simp [flush, handleOnUrl, hu], ?_⟩
      simp [conteudo, pendingOf, str_appendSpan hu, hc]
    | body =>
      simp only [pendingOf, if_true] at hlen' hnul
      have hc : cstr bytes = bytes := cstr_of_noNul fun b hb => hnul b (by simp [hb])
      obtain ⟨body, hb⟩ : ∃ body, appendSpan httpRequestBodyBufferSize (Nat.le_refl _) request.body
          bytes = some body := appendSpan_isSome _ (by omega)
      refine ⟨{ request with body := body }, by simp [flush, handleOnBody, hb], ?_⟩
      simp [conteudo, pendingOf, str_appendSpan hb, hc]

/-- Marking a byte appends it to what the request holds. -/
theorem mark_conteudo {request : HttpRequest β} {pending : Option (Span × List β)}
    (span : Option Span) (b : β)
    (h : Cabe (conteudo request pending).url (conteudo request pending).body) :
    ∃ request' pending', mark request pending span b = some (request', pending') ∧
      conteudo request' pending' =
        ⟨(conteudo request pending).url ++ marked span .url b,
          (conteudo request pending).body ++ marked span .body b, request.complete⟩ := by
  have fresh : ∃ request', (flush request pending).map
        (fun r => (r, span.map fun s => (s, [b]))) = some (request', span.map fun s => (s, [b])) ∧
      conteudo request' (span.map fun s => (s, [b])) =
        ⟨(conteudo request pending).url ++ marked span .url b,
          (conteudo request pending).body ++ marked span .body b, request.complete⟩ := by
    obtain ⟨request', hf, hc⟩ := flush_conteudo h
    refine ⟨request', by rw [hf]; rfl, ?_⟩
    have hcomplete : request'.complete = request.complete := congrArg Conteudo.complete hc
    have hurl : request'.url.str = (conteudo request pending).url := by
      simpa [conteudo, pendingOf] using congrArg Conteudo.url hc
    have hbody : request'.body.str = (conteudo request pending).body := by
      simpa [conteudo, pendingOf] using congrArg Conteudo.body hc
    rcases span with _ | _ | _ <;>
      simp [conteudo, pendingOf, marked, hcomplete] <;> simp [hurl, hbody, conteudo, pendingOf]
  obtain ⟨request', hf, hc⟩ := fresh
  unfold mark
  split
  · rename_i s bytes s'
    split
    · rename_i hs
      subst hs
      refine ⟨request, some (s, bytes ++ [b]), rfl, ?_⟩
      cases s <;> simp [conteudo, pendingOf, marked]
    · exact ⟨request', _, hf, hc⟩
  · exact ⟨request', _, hf, hc⟩

/-! ## Reading a segment -/

/-- A byte that does not complete the message. -/
theorem executeFrom_cons {parser : Parser σ β} {pending : Option (Span × List β)} {b : β}
    {effect : Effect σ} {r : Leitura σ β} (he : L.next parser.state (Octet.val b) = some effect)
    (hcomplete : ¬effect.complete)
    (hc : Cabe ((conteudo parser.request pending).url ++ (Leitura.after effect b r).url)
      ((conteudo parser.request pending).body ++ (Leitura.after effect b r).body)) :
    ∃ request' pending', (∀ data, executeFrom L parser pending (b :: data) =
        executeFrom L ⟨effect.state, parser.errno, request'⟩ pending' data) ∧
      (conteudo request' pending').url ++ r.url =
        (conteudo parser.request pending).url ++ (Leitura.after effect b r).url ∧
      (conteudo request' pending').body ++ r.body =
        (conteudo parser.request pending).body ++ (Leitura.after effect b r).body ∧
      request'.complete = parser.request.complete := by
  obtain ⟨request', pending', hm, h⟩ := mark_conteudo effect.span b hc.of_append
  refine ⟨request', pending', fun data => ?_, ?_, ?_, congrArg Conteudo.complete h⟩
  · rw [executeFrom, he]
    simp only [hm, if_neg hcomplete]
  · rw [h]
    simp only [Leitura.after, List.append_assoc]
  · rw [h]
    simp only [Leitura.after, List.append_assoc]

theorem executeFrom_part : ∀ {data : List β} {parser : Parser σ β}
    {pending : Option (Span × List β)} {r : Leitura σ β}, readPart L parser.state data = some r →
    Cabe ((conteudo parser.request pending).url ++ r.url)
      ((conteudo parser.request pending).body ++ r.body) →
    ∃ request', executeFrom L parser pending data = ⟨r.state, parser.errno, request'⟩ ∧
      conteudo request' none = ⟨(conteudo parser.request pending).url ++ r.url,
        (conteudo parser.request pending).body ++ r.body, parser.request.complete⟩
  | [], parser, pending, r, hr, hc => by
    obtain rfl := Option.some.inj hr
    obtain ⟨request', hf, hr'⟩ := flush_conteudo hc.of_append
    refine ⟨request', by rw [executeFrom, hf], ?_⟩
    simp only [hr', List.append_nil]
    rfl
  | b :: data, parser, pending, r, hr, hc => by
    simp only [readPart] at hr
    split at hr
    · cases hr
    · rename_i effect he
      split at hr
      · cases hr
      · rename_i hcomplete
        obtain ⟨r', hr', rfl⟩ := Option.map_eq_some_iff.mp hr
        obtain ⟨request₁, pending₁, hx₁, hurl, hbody, hcomp⟩ := executeFrom_cons he hcomplete hc
        obtain ⟨request', hx, h'⟩ := @executeFrom_part data ⟨effect.state, parser.errno, request₁⟩
          pending₁ r' hr' (by rwa [hurl, hbody])
        refine ⟨request', ?_, ?_⟩
        · rw [hx₁, hx]
          rfl
        · rw [h', hurl, hbody, hcomp]

theorem executeFrom_message : ∀ {data : List β} {parser : Parser σ β}
    {pending : Option (Span × List β)} {r : Leitura σ β}, readMessage L parser.state data = some r →
    parser.errno ≠ .failed →
    Cabe ((conteudo parser.request pending).url ++ r.url)
      ((conteudo parser.request pending).body ++ r.body) →
    ∃ request' errno, executeFrom L parser pending data = ⟨r.state, errno, request'⟩ ∧
      errno ≠ .failed ∧ conteudo request' none = ⟨(conteudo parser.request pending).url ++ r.url,
        (conteudo parser.request pending).body ++ r.body, true⟩
  | [], _, _, _, hr, _, _ => by cases hr
  | b :: data, parser, pending, r, hr, hok, hc => by
    simp only [readMessage] at hr
    split at hr
    · cases hr
    · rename_i effect he
      split at hr
      · rename_i hcomplete
        obtain ⟨request₁, pending₁, hm, h₁⟩ := mark_conteudo effect.span b hc.of_append
        have hurl := congrArg Conteudo.url h₁
        have hbody := congrArg Conteudo.body h₁
        simp only at hurl hbody
        split at hr
        · obtain rfl := Option.some.inj hr
          simp only [Leitura.after, List.append_nil] at hc ⊢
          obtain ⟨request₂, hf, h₂⟩ := @flush_conteudo _ _ request₁ pending₁ (by
            rwa [hurl, hbody])
          have hsome : conteudo (handleOnMessageComplete request₂) none =
              ⟨(conteudo parser.request pending).url ++ marked effect.span .url b,
                (conteudo parser.request pending).body ++ marked effect.span .body b, true⟩ := by
            rw [← hurl, ← hbody, ← h₂]
            rfl
          cases hpause : effect.pause with
          | true =>
            refine ⟨_, .pausedUpgrade, ?_, by decide, hsome⟩
            rw [executeFrom, he]
            simp [hm, hcomplete, hf, hpause]
          | false =>
            refine ⟨_, parser.errno, ?_, hok, hsome⟩
            rw [executeFrom, he]
            simp only [hm, hcomplete, hf, hpause, if_true, Bool.false_eq_true, if_false]
            rfl
        · cases hr
      · rename_i hcomplete
        obtain ⟨r', hr', rfl⟩ := Option.map_eq_some_iff.mp hr
        obtain ⟨request₁, pending₁, hx₁, hurl, hbody, _⟩ := executeFrom_cons he hcomplete hc
        obtain ⟨request', errno, hx, herr, h'⟩ := @executeFrom_message data
          ⟨effect.state, parser.errno, request₁⟩ pending₁ r' hr' hok (by rwa [hurl, hbody])
        refine ⟨request', errno, ?_, herr, ?_⟩
        · rw [hx₁, hx]
          rfl
        · rw [h', hurl, hbody]

/-! ## Reading a message in parts -/

/-- What the parser holds is followed by `rest` to a message that makes `call`. -/
structure Falta (L : Llhttp σ) (parser : Parser σ β) (rest : List β) (call : RouterCall β) :
    Prop where
  ok : parser.errno ≠ .failed
  incomplete : parser.request.complete = false
  message : ∃ r, readMessage L parser.state rest = some r ∧
    call = ⟨L.method r.state, parser.request.url.str ++ r.url, parser.request.body.str ++ r.body⟩
  cabe : Cabe call.url call.body

variable {parser : Parser σ β} {call : RouterCall β}

theorem parse_of_ok (h : parser.errno ≠ .failed) (data : List β) :
    httpParserParse L parser data =
      (executeFrom L { parser with errno := .ok } none data,
        decide ((executeFrom L { parser with errno := .ok } none data).errno ≠ .failed)) := by
  simp only [httpParserParse, resume_of_ok h, execute, if_true]

theorem conteudo_none (request : HttpRequest β) :
    conteudo request none = ⟨request.url.str, request.body.str, request.complete⟩ := by
  simp [conteudo, pendingOf]

/-- A segment that ends before the message does. -/
theorem parse_part {buffer rest : List β} (hrest : rest ≠ [])
    (h : Falta L parser (buffer ++ rest) call) :
    ∃ parser', httpParserParse L parser buffer = (parser', true) ∧ Falta L parser' rest call := by
  obtain ⟨r, hr, rfl⟩ := h.message
  obtain ⟨r₁, r₂, h₁, h₂, rfl⟩ := readMessage_append hrest hr
  have hc := h.cabe
  simp only [← List.append_assoc] at hc
  obtain ⟨request', hx, hk⟩ := @executeFrom_part _ _ _ L buffer { parser with errno := .ok } none
    r₁ h₁ (by simpa only [conteudo_none] using hc.of_append)
  simp only [conteudo_none, Conteudo.mk.injEq] at hk
  obtain ⟨hurl, hbody, hcomplete⟩ := hk
  refine ⟨⟨r₁.state, .ok, request'⟩, ?_, by simp, hcomplete.trans h.incomplete, ⟨r₂, h₂, ?_⟩,
    h.cabe⟩
  · rw [parse_of_ok h.ok, hx]
    rfl
  · simp only [hurl, hbody, List.append_assoc]

/-- The segment that ends the message. -/
theorem parse_message {buffer : List β} (h : Falta L parser buffer call) :
    ∃ parser', httpParserParse L parser buffer = (parser', true) ∧ parser'.errno ≠ .failed ∧
      parser'.request.complete = true ∧
      call = ⟨L.method parser'.state, parser'.request.url.str, parser'.request.body.str⟩ := by
  obtain ⟨r, hr, rfl⟩ := h.message
  obtain ⟨request', errno, hx, herr, hk⟩ := @executeFrom_message _ _ _ L buffer
    { parser with errno := .ok } none r hr (by simp) (by simpa only [conteudo_none] using h.cabe)
  simp only [conteudo_none, Conteudo.mk.injEq] at hk
  obtain ⟨hurl, hbody, hcomplete⟩ := hk
  refine ⟨⟨r.state, errno, request'⟩, ?_, herr, hcomplete, ?_⟩
  · rw [parse_of_ok h.ok, hx]
    simp [herr]
  · simp only [hurl, hbody]

/-- Segments that end before the message does are read and not answered. -/
theorem socketRead_part {rest : List β} (hrest : rest ≠ []) {segments : List (List β)} :
    ∀ {parser : Parser σ β}, Falta L parser (segments.flatten ++ rest) call →
      ∃ parser', socketRead L parser segments = (parser', []) ∧ Falta L parser' rest call := by
  induction segments with
  | nil =>
    intro parser h
    exact ⟨parser, rfl, h⟩
  | cons buffer segments ih =>
    intro parser h
    rw [List.flatten_cons, List.append_assoc] at h
    obtain ⟨parser₁, hp, h₁⟩ := parse_part (by simp [hrest]) h
    obtain ⟨parser', hs, h'⟩ := ih h₁
    refine ⟨parser', ?_, h'⟩
    simp only [socketRead, hp, httpParserRequestIsComplete, h₁.incomplete, Bool.and_false,
      Bool.false_eq_true, if_false, hs]

/-! ## An idle server -/

/-- Between requests. -/
structure Idle (parser : Parser σ β) : Prop where
  ok : parser.errno ≠ .failed
  limpo : parser.request.Limpo
  incomplete : parser.request.complete = false

theorem idle_reset (h : parser.errno ≠ .failed) : Idle (httpParserResetRequest L parser) where
  ok := by
    unfold httpParserResetRequest
    simp only
    split
    · simp
    · exact h
  limpo := limpo_reset L parser
  incomplete := by
    unfold httpParserResetRequest
    simp only
    split <;> rfl

theorem idle_init (url : Buffer β httpRequestUrlBufferSize)
    (body : Buffer β httpRequestBodyBufferSize) : Idle (httpParserInit L url body) :=
  idle_reset (by simp)

theorem Idle.falta (hidle : Idle parser) {message : List β} {r : Leitura σ β}
    (hr : readMessage L parser.state message = some r) (hc : Cabe r.url r.body) :
    Falta L parser message ⟨L.method r.state, r.url, r.body⟩ where
  ok := hidle.ok
  incomplete := hidle.incomplete
  message := ⟨r, hr, by rw [hidle.limpo.1, hidle.limpo.2]; rfl⟩
  cabe := hc

/-- A message is routed once however it is cut into segments, and the server is idle
again. -/
theorem socketRead_message {segments : List (List β)} (hne : segments ≠ [])
    (hs : ∀ buffer ∈ segments, buffer ≠ []) (h : Falta L parser segments.flatten call) :
    Idle (socketRead L parser segments).1 ∧ (socketRead L parser segments).2 = [call] := by
  obtain ⟨before, buffer, rfl⟩ : ∃ before buffer, segments = before ++ [buffer] :=
    ⟨_, _, (List.dropLast_concat_getLast hne).symm⟩
  rw [List.flatten_append, List.flatten_singleton] at h
  obtain ⟨parser₁, hread, h₁⟩ := socketRead_part (hs buffer (by simp)) h
  obtain ⟨parser₂, hp, hok, hcomplete, rfl⟩ := parse_message h₁
  have hlast : socketRead L parser₁ [buffer] = (httpParserResetRequest L parser₂,
      [⟨L.method parser₂.state, parser₂.request.url.str, parser₂.request.body.str⟩]) := by
    simp [socketRead, hp, httpParserRequestIsComplete, hcomplete]
  rw [socketRead_append, hread, hlast]
  exact ⟨idle_reset hok, rfl⟩

/-- **Segmentation.** A request to an idle server is answered, once and as when it
comes in one segment, exactly if all its segments arrive before `recv` first reports
that there is no data. -/
theorem segmentation {r : Leitura σ β} {bursts : List (List (List β))} (hidle : Idle parser)
    (hr : readMessage L parser.state bursts.flatten.flatten = some r) (hc : Cabe r.url r.body)
    (hbursts : ∀ burst ∈ bursts, burst ≠ [] ∧ ∀ buffer ∈ burst, buffer ≠ []) :
    (socketServe L parser [[bursts.flatten.flatten]]).2 = [⟨L.method r.state, r.url, r.body⟩] ∧
    ((socketServe L parser bursts).2 = [⟨L.method r.state, r.url, r.body⟩] ↔
      bursts.length = 1) := by
  have h : Falta L parser bursts.flatten.flatten ⟨L.method r.state, r.url, r.body⟩ :=
    hidle.falta hr hc
  have hnil : bursts.flatten.flatten ≠ [] := ne_nil_of_readMessage hr
  refine ⟨(socketRead_message (by simp) (by simpa using hnil) (by simpa using h)).2, ?_⟩
  match bursts, hbursts, h with
  | [], _, h => exact absurd rfl hnil
  | [burst], hbursts, h =>
    obtain ⟨hne, hs⟩ := hbursts burst (by simp)
    simp only [List.length_singleton, iff_true]
    exact (socketRead_message hne hs (by simpa using h)).2
  | burst :: burst' :: bursts, hbursts, h =>
    -- the second burst is not empty, so that the first ends before the message does
    have hrest : (burst' :: bursts).flatten.flatten ≠ [] := by
      obtain ⟨hne, hs⟩ := hbursts burst' (by simp)
      obtain ⟨buffer, burst', rfl⟩ := List.exists_cons_of_ne_nil hne
      simp [hs buffer (by simp)]
    rw [List.flatten_cons, List.flatten_append] at h
    obtain ⟨parser', hread, -⟩ := socketRead_part hrest h
    simp [socketServe, hread]

end

theorem segmentation_get :
    (socketServe getMachine (httpParserInit getMachine .zeros .zeros)
      [[ascii "GET /clientes/1/ext", ascii "rato HTTP/1.1\r\n\r\n"]]).2 =
        [⟨1, ascii "/clientes/1/extrato", []⟩] := by
  have hr : readMessage getMachine .start
      [[ascii "GET /clientes/1/ext", ascii "rato HTTP/1.1\r\n\r\n"]].flatten.flatten =
        some ⟨.start, ascii "/clientes/1/extrato", []⟩ := by decide +kernel
  have hc : Cabe (ascii "/clientes/1/extrato") [] :=
    ⟨by decide, by decide, by decide +kernel⟩
  have hbursts : ∀ burst ∈ [[ascii "GET /clientes/1/ext", ascii "rato HTTP/1.1\r\n\r\n"]],
      burst ≠ [] ∧ ∀ buffer ∈ burst, buffer ≠ [] := by decide +kernel
  have hidle : Idle (httpParserInit getMachine .zeros .zeros : Parser GetState UInt8) :=
    idle_init .zeros .zeros
  exact (segmentation hidle hr hc hbursts).2.mpr rfl

/-- The same bytes in two bursts get no answer. -/
theorem segmentation_lost :
    (socketServe getMachine (httpParserInit getMachine .zeros .zeros)
      [[ascii "GET /clientes/1/ext"], [ascii "rato HTTP/1.1\r\n\r\n"]]).2 = [] ∧
    (socketServe getMachine (httpParserInit getMachine .zeros .zeros)
      [[ascii "GET /clientes/1/extrato HTTP/1.1\r\n\r\n"]]).2 =
        [⟨1, ascii "/clientes/1/extrato", []⟩] := by
  refine ⟨by decide +kernel, by decide +kernel⟩

end Crinha
