import Crinha.HttpParser
import Crinha.Bytes.Chunks

/-!
# Reassembly

* `reassembly`: when the URL and the body do not depend on the chunks.
-/

namespace Crinha
open CString

section
variable {β : Type} [Octet β]

/-- Chunks one after another; a chunk that is refused ends the message. -/
def deliver (callback : HttpRequest β → List β → Option (HttpRequest β)) (request : HttpRequest β)
    (chunks : List (List β)) : Option (HttpRequest β) :=
  chunks.foldlM callback request

/-- Any two ways of cutting `p` are both refused, or both leave the string in `p`. -/
def ChunksIgnored (callback : HttpRequest β → List β → Option (HttpRequest β))
    (text : HttpRequest β → List β) (request : HttpRequest β) (p : List β) : Prop :=
  ∀ chunks chunks' : List (List β), chunks.flatten = p → chunks'.flatten = p →
    deliver callback request chunks = none ∧ deliver callback request chunks' = none ∨
    ∃ r r', deliver callback request chunks = some r ∧ text r = cstr p ∧
      deliver callback request chunks' = some r' ∧ text r' = cstr p

variable {callback : HttpRequest β → List β → Option (HttpRequest β)}
  {text : HttpRequest β → List β} {limit : Nat}

theorem map_appendSpan {cap : Nat} (h : limit ≤ cap) (buffer : Buffer β cap) (span : List β) :
    (appendSpan limit h buffer span).map Buffer.str = appendChunk limit buffer.str span := by
  by_cases hlen : span.length + buffer.str.length ≤ limit
  · obtain ⟨buffer', ha⟩ := appendSpan_isSome h hlen
    rw [ha, Option.map_some, str_appendSpan ha, appendChunk_eq hlen]
  · rw [appendSpan, dif_neg hlen, appendChunk, if_neg hlen, Option.map_none]

/-- What chunks leave, if each callback appends its chunk. -/
theorem map_deliver
    (h : ∀ request span, (callback request span).map text = appendChunk limit (text request) span)
    (request : HttpRequest β) (chunks : List (List β)) :
    (deliver callback request chunks).map text = appendChunks limit (text request) chunks := by
  induction chunks generalizing request with
  | nil => rfl
  | cons span chunks ih =>
    have hspan := h request span
    rw [appendChunks_cons, ← hspan, deliver, List.foldlM_cons]
    cases hcall : callback request span with
    | none => rfl
    | some request' => exact ih request'

theorem chunksIgnored_iff
    (h : ∀ request span, (callback request span).map text = appendChunk limit (text request) span)
    {request : HttpRequest β} (hempty : text request = []) {p : List β} :
    ChunksIgnored callback text request p ↔ Uniform limit p := by
  have hmap := map_deliver h request
  rw [hempty] at hmap
  have hnone (chunks : List (List β)) : appendChunks limit [] chunks = none ↔
      deliver callback request chunks = none := by
    rw [← hmap, Option.map_eq_none_iff]
  have hsome (chunks : List (List β)) : appendChunks limit [] chunks = some (cstr p) ↔
      ∃ r, deliver callback request chunks = some r ∧ text r = cstr p := by
    rw [← hmap, Option.map_eq_some_iff]
  constructor
  · intro hig chunks chunks' hflat hflat'
    rcases hig chunks chunks' hflat hflat' with ⟨hn, hn'⟩ | ⟨r, r', hr, ht, hr', ht'⟩
    · exact .inl ⟨(hnone _).mpr hn, (hnone _).mpr hn'⟩
    · exact .inr ⟨(hsome _).mpr ⟨r, hr, ht⟩, (hsome _).mpr ⟨r', hr', ht'⟩⟩
  · intro hu chunks chunks' hflat hflat'
    rcases hu chunks chunks' hflat hflat' with ⟨hn, hn'⟩ | ⟨hs, hs'⟩
    · exact .inl ⟨(hnone _).mp hn, (hnone _).mp hn'⟩
    · obtain ⟨r, hr, ht⟩ := (hsome _).mp hs
      obtain ⟨r', hr', ht'⟩ := (hsome _).mp hs'
      exact .inr ⟨r, r', hr, ht, hr', ht'⟩

theorem map_handleOnBody (request : HttpRequest β) (span : List β) :
    (handleOnBody request span).map (fun r => r.body.str) =
      appendChunk httpRequestBodyBufferSize request.body.str span := by
  rw [handleOnBody, Option.map_map]
  exact map_appendSpan _ request.body span

theorem map_handleOnUrl (request : HttpRequest β) (span : List β) :
    (handleOnUrl request span).map (fun r => r.url.str) =
      appendChunk (httpRequestUrlBufferSize - 1) request.url.str span := by
  rw [handleOnUrl, Option.map_map]
  exact map_appendSpan _ request.url span

theorem str_reset {σ : Type} (L : Llhttp σ) (parser : Parser σ β) :
    (httpParserResetRequest L parser).request.body.str = [] ∧
      (httpParserResetRequest L parser).request.url.str = [] := by
  have hrequest : (httpParserResetRequest L parser).request =
      ⟨parser.request.url.clear, parser.request.body.clear, false⟩ := by
    unfold httpParserResetRequest
    simp only
    split <;> rfl
  rw [hrequest]
  exact ⟨str_clear _, str_clear _⟩

end

/-- **Reassembly.** After a reset, it does not matter how a body and a URL are cut, exactly
if the body fits and has no byte but NUL behind its first NUL, or does not fit however it
is cut. For URLs without NUL it never matters. -/
theorem reassembly {σ : Type} (L : Llhttp σ) (parser : Parser σ UInt8) (p : Bytes) :
    (ChunksIgnored handleOnBody (fun r => r.body.str) (httpParserResetRequest L parser).request p ∧
      (0 ∉ p → ChunksIgnored handleOnUrl (fun r => r.url.str)
        (httpParserResetRequest L parser).request p)) ↔
    p.length ≤ httpRequestBodyBufferSize ∧ Quiet p ∨
      scanText httpRequestBodyBufferSize ⟨0, 0⟩ p = none := by
  obtain ⟨hbody, hurl⟩ := str_reset L parser
  rw [chunksIgnored_iff map_handleOnBody hbody, chunksIgnored_iff map_handleOnUrl hurl,
    uniform_iff]
  apply and_iff_left
  intro hn
  exact uniform_of_noNul (val_ne_of_noNul hn)

/-- The request of a new parser. -/
def requestInit : HttpRequest UInt8 := (httpParserInit getMachine .zeros .zeros).request

/-- The body `a`, NUL, `b` is `a` in one chunk, and `ab` cut behind the NUL. -/
theorem reassembly_cut :
    (deliver handleOnBody requestInit [[97, 0, 98]]).map (fun r => r.body.str) = some [97] ∧
    (deliver handleOnBody requestInit [[97, 0], [98]]).map (fun r => r.body.str) =
      some [97, 98] := by
  have hempty : requestInit.body.str = [] := (str_reset getMachine _).1
  rw [map_deliver map_handleOnBody, map_deliver map_handleOnBody, hempty]
  decide

end Crinha
