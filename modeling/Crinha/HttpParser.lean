import Crinha.Entity

/-!
# `server/http_parser.c`

One llhttp parser with one request buffer serves every connection. llhttp itself
is a parameter, a machine that reads a byte at a time.
-/

namespace Crinha
open CString

def httpRequestUrlBufferSize : Nat := 256
def httpRequestBodyBufferSize : Nat := 1024

structure HttpRequest (β : Type) where
  url : Buffer β httpRequestUrlBufferSize
  body : Buffer β httpRequestBodyBufferSize
  complete : Bool

section
variable {β : Type} [Octet β]

/-! ## Callbacks -/

theorem length_strzcpy_end {cap : Nat} {buffer : Buffer β cap} {span : List β}
    (h : span.length + buffer.str.length ≤ cap) :
    (overwrite (strzcpy buffer.mem buffer.str.length span span.length)
      (span.length + buffer.str.length) [Octet.nul]).length = cap + 1 := by
  have hsize := buffer.size
  have hcopy : (strncpy buffer.mem buffer.str.length span span.length).length =
      buffer.mem.length := length_overwrite (by rw [length_padded]; omega)
  have hterm : (strzcpy buffer.mem buffer.str.length span span.length).length =
      buffer.mem.length := by
    rw [strzcpy, length_overwrite (by rw [hcopy, List.length_singleton]; omega), hcopy]
  rw [length_overwrite (by rw [hterm, List.length_singleton]; omega), hterm, hsize]

/-- Append to the string of an array, unless it would become longer than `limit`.
`none` is the callback's return value 1. -/
def appendSpan {cap : Nat} (limit : Nat) (h : limit ≤ cap) (buffer : Buffer β cap) (span : List β) :
    Option (Buffer β cap) :=
  if hlen : span.length + buffer.str.length ≤ limit then
    some {
      mem := overwrite (strzcpy buffer.mem buffer.str.length span span.length)
        (span.length + buffer.str.length) [Octet.nul]
      size := length_strzcpy_end (Nat.le_trans hlen h) }
  else none

/-- The old contents behind the string, and the NULs `strncpy` pads with, are not
part of the new string. -/
theorem str_appendSpan {cap limit : Nat} {h : limit ≤ cap} {buffer buffer' : Buffer β cap}
    {span : List β} (ha : appendSpan limit h buffer span = some buffer') :
    buffer'.str = buffer.str ++ cstr span := by
  unfold appendSpan at ha
  split at ha
  · obtain rfl := Option.some.inj ha
    obtain ⟨rest, hr⟩ := strzcpy_eq span span.length (length_cstr_le buffer.mem)
    have hl : (cstr buffer.mem ++ padded span span.length).length =
        span.length + (cstr buffer.mem).length := by
      rw [List.length_append, length_padded, Nat.add_comm]
    have ho := overwrite_append (cstr buffer.mem ++ padded span span.length)
      (Octet.nul :: rest) [Octet.nul]
    rw [hl] at ho
    simp only [Buffer.str]
    rw [hr, take_cstr, ho]
    simp only [List.append_assoc, List.cons_append, List.nil_append, List.length_cons,
      List.length_nil, List.drop_succ_cons, List.drop_zero]
    rw [← List.append_assoc, cstr_padded _ _ _ _ fun b hb => val_of_mem_cstr hb]
    exact congrArg _ (List.take_of_length_le (length_cstr_le span))
  · cases ha

theorem appendSpan_isSome {cap limit : Nat} (h : limit ≤ cap) {buffer : Buffer β cap}
    {span : List β} (hl : span.length + buffer.str.length ≤ limit) :
    ∃ buffer', appendSpan limit h buffer span = some buffer' := by
  rw [appendSpan, dif_pos hl]
  exact ⟨_, rfl⟩

/-- Refuses a URL of 256 bytes or more. -/
def handleOnUrl (request : HttpRequest β) (span : List β) : Option (HttpRequest β) :=
  (appendSpan (httpRequestUrlBufferSize - 1) (by decide) request.url span).map
    fun url => { request with url := url }

/-- Refuses a body of more than 1024 bytes. -/
def handleOnBody (request : HttpRequest β) (span : List β) : Option (HttpRequest β) :=
  (appendSpan httpRequestBodyBufferSize (Nat.le_refl _) request.body span).map
    fun body => { request with body := body }

def handleOnMessageComplete (request : HttpRequest β) : HttpRequest β :=
  { request with complete := true }

end

/-! ## llhttp -/

inductive Span where
  | url
  | body
  deriving DecidableEq

/-- What a byte does: the next state, the span the byte is part of, and whether it
completes the message and then pauses the parser (for an upgrade). -/
structure Effect (σ : Type) where
  state : σ
  span : Option Span
  complete : Bool
  pause : Bool

/-- The machine of llhttp. `next` is `none` on a byte that is an error; `closed` is
the state after a message that ends its connection. -/
structure Llhttp (σ : Type) where
  init : σ
  next : σ → UInt8 → Option (Effect σ)
  closed : σ → Bool
  method : σ → UInt8

/-- `HPE_OK`, `HPE_PAUSED`, `HPE_PAUSED_UPGRADE`, or any other code. -/
inductive Errno where
  | ok
  | paused
  | pausedUpgrade
  | failed
  deriving DecidableEq

structure Parser (σ β : Type) where
  state : σ
  errno : Errno
  request : HttpRequest β

section
variable {σ β : Type} [Octet β] (L : Llhttp σ)

/-- The callback for the bytes of a span. -/
def flush (request : HttpRequest β) : Option (Span × List β) → Option (HttpRequest β)
  | none => some request
  | some (.url, bytes) => handleOnUrl request bytes
  | some (.body, bytes) => handleOnBody request bytes

/-- A byte continues the open span, or ends it and may start another. -/
def mark (request : HttpRequest β) (pending : Option (Span × List β)) (span : Option Span) (b : β) :
    Option (HttpRequest β × Option (Span × List β)) :=
  match pending, span with
  | some (s, bytes), some s' =>
    if s = s' then some (request, some (s, bytes ++ [b]))
    else (flush request pending).map fun request => (request, some (s', [b]))
  | pending, span =>
    (flush request pending).map fun request => (request, span.map fun s => (s, [b]))

/-- Read a segment. The callback for a span comes when the span or the segment ends,
not when a byte of it is an error. -/
def executeFrom (parser : Parser σ β) (pending : Option (Span × List β)) : List β → Parser σ β
  | [] =>
    match flush parser.request pending with
    | some request => { parser with request := request }
    | none => { parser with errno := .failed }
  | b :: data =>
    match L.next parser.state (Octet.val b) with
    | none => { parser with errno := .failed }
    | some effect =>
      match mark parser.request pending effect.span b with
      | none => { parser with state := effect.state, errno := .failed }
      | some (request, pending) =>
        if effect.complete then
          match flush request pending with
          | none => { parser with state := effect.state, errno := .failed }
          | some request =>
            let parser := { parser with
              state := effect.state, request := handleOnMessageComplete request }
            if effect.pause then { parser with errno := .pausedUpgrade }
            else executeFrom parser none data
        else executeFrom { parser with state := effect.state, request := request } pending data

variable {L}

/-- What the callbacks keep, for the bytes `data`, is kept when they are read. -/
theorem executeFrom_keeps {P : HttpRequest β → Option (Span × List β) → Prop}
    (hflush : ∀ {request pending request'}, P request pending →
      flush request pending = some request' → P request' none)
    (hdrop : ∀ {request pending}, P request pending → P request none)
    (hcomplete : ∀ {request}, P request none → P (handleOnMessageComplete request) none) :
    ∀ {data : List β} {parser : Parser σ β} {pending : Option (Span × List β)},
      (∀ b ∈ data, ∀ {request pending span request' pending'}, P request pending →
        mark request pending span b = some (request', pending') → P request' pending') →
      P parser.request pending → P (executeFrom L parser pending data).request none
  | [], parser, pending, _, h => by
    unfold executeFrom
    split
    · exact hflush h ‹_›
    · exact hdrop h
  | b :: data, parser, pending, hmark, h => by
    have hmark' : ∀ c ∈ data, ∀ {request pending span request' pending'}, P request pending →
        mark request pending span c = some (request', pending') → P request' pending' :=
      fun c hc => hmark c (List.mem_cons_of_mem _ hc)
    unfold executeFrom
    split
    · exact hdrop h
    · split
      · exact hdrop h
      · rename_i request pending' hm
        have hr : P request pending' := hmark b List.mem_cons_self h hm
        split
        · split
          · exact hdrop h
          · rename_i request' hf
            have hr' := hcomplete (hflush hr hf)
            simp only
            split
            · exact hr'
            · exact executeFrom_keeps hflush hdrop hcomplete hmark' hr'
        · exact executeFrom_keeps hflush hdrop hcomplete hmark' hr

variable (L)

/-- An error is returned at once, and so is a pause. -/
def execute (parser : Parser σ β) (data : List β) : Parser σ β :=
  if parser.errno = .ok then executeFrom L parser none data else parser

/-! ## The parser of the server -/

/-- `url[0] = 0; body[0] = 0; complete = false`, and `llhttp_reset` in the closed state. -/
def httpParserResetRequest (parser : Parser σ β) : Parser σ β :=
  let request : HttpRequest β := ⟨parser.request.url.clear, parser.request.body.clear, false⟩
  if L.closed parser.state then { state := L.init, errno := .ok, request := request }
  else { parser with request := request }

/-- The arrays are as `malloc` gives them. -/
def httpParserInit (url : Buffer β httpRequestUrlBufferSize)
    (body : Buffer β httpRequestBodyBufferSize) : Parser σ β :=
  httpParserResetRequest L ⟨L.init, .ok, ⟨url, body, false⟩⟩

/-- `llhttp_resume` and `llhttp_resume_after_upgrade`. -/
def resume (parser : Parser σ β) : Parser σ β :=
  if parser.errno = .paused ∨ parser.errno = .pausedUpgrade then { parser with errno := .ok }
  else parser

omit [Octet β] in
theorem resume_of_ok {parser : Parser σ β} (h : parser.errno ≠ .failed) :
    resume parser = { parser with errno := .ok } := by
  obtain ⟨state, errno, request⟩ := parser
  cases errno with
  | ok => rfl
  | paused => rfl
  | pausedUpgrade => rfl
  | failed => exact absurd rfl h

/-- On an error `llhttp_finish` is called, which returns at once. -/
def httpParserParse (parser : Parser σ β) (data : List β) : Parser σ β × Bool :=
  let parser := execute L (resume parser) data
  (parser, decide (parser.errno ≠ .failed))

def httpParserRequestIsComplete (parser : Parser σ β) : Bool := parser.request.complete

/-- Once the parser has failed, it stays as it is. -/
theorem parse_failed {parser : Parser σ β} (h : parser.errno = .failed) (data : List β) :
    httpParserParse L parser data = (parser, false) := by
  simp [httpParserParse, execute, resume, h]

end

/-! ## Requests without a body -/

inductive GetState where
  | start
  | method
  | url
  | line
  | newLine
  | blankLine
  deriving DecidableEq

/-- An example machine, for a `GET` that keeps the connection alive. -/
def getMachine : Llhttp GetState where
  init := .start
  next := fun s b => match s with
    | .start =>
      if b = 13 ∨ b = 10 then some ⟨.start, none, false, false⟩
      else if b = 71 then some ⟨.method, none, false, false⟩
      else none
    | .method => some ⟨if b = 32 then .url else .method, none, false, false⟩
    | .url =>
      if b = 32 then some ⟨.line, none, false, false⟩ else some ⟨.url, some .url, false, false⟩
    | .line => some ⟨if b = 10 then .newLine else .line, none, false, false⟩
    | .newLine => some ⟨if b = 13 then .blankLine else .line, none, false, false⟩
    | .blankLine => if b = 10 then some ⟨.start, none, true, false⟩ else none
  closed := fun _ => false
  method := fun _ => 1

end Crinha
