import Crinha.Server
import Crinha.Bytes.Stores

/-!
# The buffer of `socket_read`

* `buffer_safe`: no store leaves the array exactly if no segment fills it.
-/

namespace Crinha
open CString

def socketMaxReadBuffer : Nat := 1024

/-- What `recv` stores of a segment, and the terminator. -/
def turnStores (segment : Bytes) : List (CellStore UInt8) :=
  consecutive 0 segment ++ [⟨segment.length, 0⟩]

section
variable {σ : Type} (L : Llhttp σ)

/-- The loop on the memory `mem`, whose first bytes are `buffer`. The last component is the
memory each time that the text in `buffer` is logged. -/
def socketReadBuffer (parser : Parser σ UInt8) (mem : Bytes) :
    List Bytes → Parser σ UInt8 × List (RouterCall UInt8) × List Bytes
  | [] => (parser, [], [])
  | segment :: segments =>
    let mem := applyStores mem (turnStores segment)
    let (parser, parsed) := httpParserParse L parser (mem.take segment.length)
    let trace := if parsed then [] else [mem]
    if parsed && httpParserRequestIsComplete parser then
      let call : RouterCall UInt8 :=
        ⟨L.method parser.state, parser.request.url.str, parser.request.body.str⟩
      let (parser, calls, logs) :=
        socketReadBuffer (httpParserResetRequest L parser) mem segments
      (parser, call :: calls, trace ++ logs)
    else
      let (parser, calls, logs) := socketReadBuffer parser mem segments
      (parser, calls, trace ++ mem :: logs)

/-! ## One turn -/

section
variable {mem segment : Bytes}

theorem applyStores_turn (h : segment.length < mem.length) :
    applyStores mem (turnStores segment) =
      segment ++ 0 :: mem.drop (segment.length + 1) := by
  have hcopy : applyStores mem (consecutive 0 segment) = segment ++ mem.drop segment.length := by
    rw [applyStores_consecutive (by omega), overwrite, List.take_zero, List.nil_append,
      Nat.zero_add]
  rw [turnStores, applyStores_append, hcopy, List.drop_eq_getElem_cons h]
  show List.set _ segment.length 0 = _
  rw [List.set_append_right _ _ (Nat.le_refl _), Nat.sub_self, List.set_cons_zero]

theorem take_turn (h : segment.length < mem.length) :
    (applyStores mem (turnStores segment)).take segment.length = segment := by
  rw [applyStores_turn h, List.take_left]

/-- The text ends in the array if the segment does not fill it or has a NUL of its own. -/
theorem terminated_turn (h : segment.length < mem.length) {size : Nat}
    (hle : segment.length ≤ size) :
    (∃ i < size, (applyStores mem (turnStores segment))[i]? = some 0) ↔
      segment.length < size ∨ 0 ∈ segment := by
  rw [applyStores_turn h]
  constructor
  · rintro ⟨i, hi, hget⟩
    by_cases hlt : segment.length < size
    · exact .inl hlt
    · rw [List.getElem?_append_left (by omega)] at hget
      exact .inr (List.mem_of_getElem? hget)
  · rintro (hlt | hm)
    · refine ⟨segment.length, hlt, ?_⟩
      rw [List.getElem?_append_right (Nat.le_refl _), Nat.sub_self]
      rfl
    · obtain ⟨i, hi, hget⟩ := List.getElem_of_mem hm
      refine ⟨i, by omega, ?_⟩
      rw [List.getElem?_append_left hi, List.getElem?_eq_getElem hi, hget]

/-- The terminator is in the array if the segment does not fill it. -/
theorem within_turn {size : Nat} :
    Within 0 size (turnStores segment) ↔ segment.length < size := by
  constructor
  · intro h
    have hlast := (h ⟨segment.length, 0⟩ (List.mem_append_right _ List.mem_cons_self)).2
    rwa [Nat.zero_add] at hlast
  · intro h
    exact (within_consecutive (Nat.zero_le _) (by omega)).append
      (within_single (Nat.zero_le _) (by omega))

end

/-! ## The loop -/

section
variable {mem : Bytes} {segments : List Bytes}

/-- The loop reads what `socketRead` reads. -/
theorem socketReadBuffer_eq (parser : Parser σ UInt8)
    (h : ∀ segment ∈ segments, segment.length < mem.length) :
    ((socketReadBuffer L parser mem segments).1, (socketReadBuffer L parser mem segments).2.1) =
      socketRead L parser segments := by
  induction segments generalizing parser mem with
  | nil => rfl
  | cons segment segments ih =>
    have hsegment := take_turn (h segment List.mem_cons_self)
    have hrest : ∀ x ∈ segments, x.length < (applyStores mem (turnStores segment)).length := by
      intro x hx
      rw [length_applyStores]
      exact h x (List.mem_cons_of_mem _ hx)
    simp only [socketReadBuffer, socketRead, hsegment]
    split
    · rw [← ih _ hrest]
    · rw [← ih _ hrest]

theorem logged_turn (parser : Parser σ UInt8) {logged : Bytes}
    (hlog : logged ∈ (socketReadBuffer L parser mem segments).2.2)
    (h : ∀ segment ∈ segments, segment.length < mem.length) :
    ∃ segment ∈ segments, ∃ before : Bytes, before.length = mem.length ∧
      logged = applyStores before (turnStores segment) := by
  induction segments generalizing parser mem with
  | nil => cases hlog
  | cons segment segments ih =>
    have hlen : (applyStores mem (turnStores segment)).length = mem.length :=
      length_applyStores _ _
    have hrest : ∀ x ∈ segments, x.length < (applyStores mem (turnStores segment)).length := by
      intro x hx
      rw [hlen]
      exact h x (List.mem_cons_of_mem _ hx)
    have here : logged = applyStores mem (turnStores segment) →
        ∃ x ∈ segment :: segments, ∃ before : Bytes, before.length = mem.length ∧
          logged = applyStores before (turnStores x) :=
      fun he => ⟨segment, List.mem_cons_self, mem, rfl, he⟩
    have later : ∀ parser : Parser σ UInt8, logged ∈ (socketReadBuffer L parser
        (applyStores mem (turnStores segment)) segments).2.2 →
        ∃ x ∈ segment :: segments, ∃ before : Bytes, before.length = mem.length ∧
          logged = applyStores before (turnStores x) := by
      intro parser hm
      obtain ⟨x, hx, before, hbefore, he⟩ := ih parser hm hrest
      exact ⟨x, List.mem_cons_of_mem _ hx, before, hbefore.trans hlen, he⟩
    -- the text that `http_parser_parse` logs on an error
    have traced : ∀ parsed : Bool,
        logged ∈ (if parsed then [] else [applyStores mem (turnStores segment)]) →
        ∃ x ∈ segment :: segments, ∃ before : Bytes, before.length = mem.length ∧
          logged = applyStores before (turnStores x) := by
      intro parsed hm
      cases parsed with
      | true => cases hm
      | false => exact here (List.mem_singleton.mp hm)
    simp only [socketReadBuffer] at hlog
    split at hlog
    · rcases List.mem_append.mp hlog with hm | hm
      · exact traced _ hm
      · exact later _ hm
    · rcases List.mem_append.mp hlog with hm | hm
      · exact traced _ hm
      · rcases List.mem_cons.mp hm with hm | hm
        · exact here hm
        · exact later _ hm

end

/-- **The read buffer.** Every store of a run of the loop is inside `buffer`, and every text
that is logged ends inside it, exactly if no segment fills it. -/
theorem buffer_safe (parser : Parser σ UInt8) {buffer : Bytes}
    (hbuffer : buffer.length = socketMaxReadBuffer) (behind : Bytes) (segments : List Bytes) :
    ((∀ segment ∈ segments, Within 0 socketMaxReadBuffer (turnStores segment)) ∧
      ∀ logged ∈ (socketReadBuffer L parser (buffer ++ behind) segments).2.2,
        ∃ i < socketMaxReadBuffer, logged[i]? = some 0) ↔
    ∀ segment ∈ segments, segment.length < socketMaxReadBuffer := by
  constructor
  · intro ⟨hwithin, _⟩ segment hm
    exact within_turn.mp (hwithin segment hm)
  · intro hlt
    have hlen : socketMaxReadBuffer ≤ (buffer ++ behind).length := by
      rw [List.length_append, hbuffer]
      exact Nat.le_add_right _ _
    refine ⟨fun segment hm => within_turn.mpr (hlt segment hm), ?_⟩
    intro logged hlog
    obtain ⟨segment, hm, before, hbefore, rfl⟩ := logged_turn L parser hlog
      fun x hx => Nat.lt_of_lt_of_le (hlt x hx) hlen
    have hsegment := hlt segment hm
    exact (terminated_turn (by omega) (Nat.le_of_lt hsegment)).mpr (.inl hsegment)

end

/-- What a read returns that takes `n` bytes of a client that only sends `A`. -/
def segmentoDe (n : Nat) : Bytes := List.replicate n 65

theorem length_segmentoDe (n : Nat) : (segmentoDe n).length = n := List.length_replicate

theorem buffer_safe_one :
    Within 0 socketMaxReadBuffer (turnStores (segmentoDe 1023)) ∧
    ∀ logged ∈ (socketReadBuffer getMachine (httpParserInit getMachine .zeros .zeros)
      (segmentoDe socketMaxReadBuffer ++ segmentoDe 1) [segmentoDe 1023]).2.2,
      ∃ i < socketMaxReadBuffer, logged[i]? = some 0 := by
  have hlt : ∀ segment ∈ [segmentoDe 1023], segment.length < socketMaxReadBuffer := by
    intro segment hm
    rw [List.mem_singleton.mp hm, length_segmentoDe]
    decide
  have h := (buffer_safe getMachine (httpParserInit getMachine .zeros .zeros)
    (length_segmentoDe socketMaxReadBuffer) (segmentoDe 1) [segmentoDe 1023]).mpr hlt
  exact ⟨h.1 _ (List.mem_singleton_self _), h.2⟩

/-- A read that fills the buffer: the terminator is stored behind it, and the text that is
logged does not end in it. -/
theorem buffer_unsafe :
    ¬Within 0 socketMaxReadBuffer (turnStores (segmentoDe socketMaxReadBuffer)) ∧
    ∃ logged ∈ (socketReadBuffer getMachine (httpParserInit getMachine .zeros .zeros)
      (segmentoDe socketMaxReadBuffer ++ [170]) [segmentoDe socketMaxReadBuffer]).2.2,
      ¬∃ i < socketMaxReadBuffer, logged[i]? = some 0 := by
  have hlen := length_segmentoDe socketMaxReadBuffer
  have hlt : (segmentoDe socketMaxReadBuffer).length <
      (segmentoDe socketMaxReadBuffer ++ [170]).length := by
    rw [List.length_append, hlen]
    decide
  have hparse : (httpParserParse getMachine (httpParserInit getMachine .zeros .zeros)
      (segmentoDe socketMaxReadBuffer)).2 = false := rfl
  constructor
  · rw [within_turn, hlen]
    decide
  · refine ⟨applyStores (segmentoDe socketMaxReadBuffer ++ [170])
      (turnStores (segmentoDe socketMaxReadBuffer)), ?_, ?_⟩
    · simp only [socketReadBuffer, take_turn hlt, hparse]
      exact List.mem_cons_self
    · rw [terminated_turn hlt (Nat.le_of_eq hlen), hlen]
      rintro (h | h)
      · exact absurd h (by decide)
      · exact absurd (List.eq_of_mem_replicate h) (by decide)

end Crinha
