import Crinha.Server

/-!
# Isolation of connections

* `isolation`: what is routed for a connection was received on it, as long as each finds
  the URL and the body empty;
* `isolation_broken`: nothing clears them when a connection ends early.
-/

namespace Crinha
open CString

/-- An octet that came from a connection, or was written by the server. -/
abbrev Octeto (α : Type) := UInt8 × Option α

variable {α σ : Type}

/-- The segments `recv` returns on a connection, with where they came from. -/
def received (connection : α) (segments : List (List UInt8)) : List (List (Octeto α)) :=
  segments.map fun buffer => buffer.map fun b => (b, some connection)

def receivedAll (connections : List (α × List (List UInt8))) :
    List (α × List (List (Octeto α))) :=
  connections.map fun c => (c.1, received c.1 c.2)

/-- Neither string holds anything. -/
def HttpRequest.Limpo {β : Type} [Octet β] (request : HttpRequest β) : Prop :=
  request.url.str = [] ∧ request.body.str = []

/-- All that the request holds was received on `connection`. -/
def HttpRequest.Owned (connection : α) (request : HttpRequest (Octeto α)) : Prop :=
  ∀ b ∈ request.url.str ++ request.body.str, b.2 = some connection

section
variable {c : α} {request request' : HttpRequest (Octeto α)}

theorem owned_of_limpo (h : request.Limpo) : request.Owned c := by
  intro b hb
  simp [h.1, h.2] at hb

theorem owned_flush {pending : Option (Span × List (Octeto α))} (h : request.Owned c)
    (hp : ∀ s bytes, pending = some (s, bytes) → ∀ b ∈ bytes, b.2 = some c)
    (hf : flush request pending = some request') : request'.Owned c := by
  cases pending with
  | none => exact (Option.some.inj hf) ▸ h
  | some p =>
    obtain ⟨s, bytes⟩ := p
    have hbytes : ∀ b ∈ cstr bytes, b.2 = some c := fun b hb =>
      hp s bytes rfl b ((List.takeWhile_prefix _).subset hb)
    intro b hb
    cases s with
    | url =>
      obtain ⟨url, hu, rfl⟩ := Option.map_eq_some_iff.mp hf
      simp only [str_appendSpan hu, List.mem_append] at hb
      rcases hb with (hb | hb) | hb
      · exact h b (List.mem_append_left _ hb)
      · exact hbytes b hb
      · exact h b (List.mem_append_right _ hb)
    | body =>
      obtain ⟨body, hu, rfl⟩ := Option.map_eq_some_iff.mp hf
      simp only [str_appendSpan hu, List.mem_append] at hb
      rcases hb with hb | hb | hb
      · exact h b (List.mem_append_left _ hb)
      · exact h b (List.mem_append_right _ hb)
      · exact hbytes b hb

theorem owned_mark {pending pending' : Option (Span × List (Octeto α))} {span : Option Span}
    {x : Octeto α} (h : request.Owned c)
    (hp : ∀ s bytes, pending = some (s, bytes) → ∀ b ∈ bytes, b.2 = some c) (hx : x.2 = some c)
    (hm : mark request pending span x = some (request', pending')) :
    request'.Owned c ∧ ∀ s bytes, pending' = some (s, bytes) → ∀ b ∈ bytes, b.2 = some c := by
  have fresh {p : Option (Span × List (Octeto α))}
      (hs : ∀ s bytes, p = some (s, bytes) → bytes = [x])
      (hf : (flush request pending).map (fun r => (r, p)) = some (request', pending')) :
      request'.Owned c ∧ ∀ s bytes, pending' = some (s, bytes) → ∀ b ∈ bytes, b.2 = some c := by
    obtain ⟨r, hr, he⟩ := Option.map_eq_some_iff.mp hf
    obtain ⟨rfl, rfl⟩ := Prod.mk.inj he
    refine ⟨owned_flush h hp hr, fun s bytes hb b hm => ?_⟩
    rw [hs s bytes hb] at hm
    exact (List.mem_singleton.mp hm) ▸ hx
  unfold mark at hm
  split at hm
  · rename_i s bytes s'
    split at hm
    · obtain ⟨rfl, rfl⟩ := Prod.mk.inj (Option.some.inj hm)
      refine ⟨h, fun s₁ bytes₁ hs b hb => ?_⟩
      obtain ⟨_, rfl⟩ := Prod.mk.inj (Option.some.inj hs)
      rcases List.mem_append.mp hb with hb | hb
      · exact hp _ _ rfl b hb
      · exact (List.mem_singleton.mp hb) ▸ hx
    · exact fresh (fun _ _ he => (Prod.mk.inj (Option.some.inj he)).2.symm) hm
  · refine fresh (fun s bytes he => ?_) hm
    obtain ⟨_, _, he⟩ := Option.map_eq_some_iff.mp he
    exact (Prod.mk.inj he).2.symm

end

variable {L : Llhttp σ} {c : α}

/-- Reading octets of one connection into a request of that connection keeps it so. -/
theorem owned_executeFrom {data : List (Octeto α)} {parser : Parser σ (Octeto α)}
    {pending : Option (Span × List (Octeto α))} (h : parser.request.Owned c)
    (hp : ∀ s bytes, pending = some (s, bytes) → ∀ b ∈ bytes, b.2 = some c)
    (hd : ∀ b ∈ data, b.2 = some c) : (executeFrom L parser pending data).request.Owned c := by
  -- the bytes of the open span are of the connection too
  have keeps := @executeFrom_keeps σ (Octeto α) _ L (fun request pending =>
    request.Owned c ∧ ∀ s bytes, pending = some (s, bytes) → ∀ b ∈ bytes, b.2 = some c)
    (fun h hf => ⟨owned_flush h.1 h.2 hf, by simp⟩) (fun h => ⟨h.1, by simp⟩)
    (fun h => ⟨h.1, by simp⟩) data parser pending
  exact (keeps (fun b hb _ _ _ _ _ h hm => owned_mark h.1 h.2 (hd b hb) hm) ⟨h, hp⟩).1

theorem owned_parse {parser : Parser σ (Octeto α)} {data : List (Octeto α)}
    (h : parser.request.Owned c) (hd : ∀ b ∈ data, b.2 = some c) :
    (httpParserParse L parser data).1.request.Owned c := by
  have hr : (resume parser).request = parser.request := by
    unfold resume
    split <;> rfl
  simp only [httpParserParse, execute]
  split
  · exact owned_executeFrom (by rwa [hr]) (by simp) hd
  · rwa [hr]

theorem limpo_reset {β : Type} [Octet β] (L : Llhttp σ) (parser : Parser σ β) :
    (httpParserResetRequest L parser).request.Limpo := by
  unfold httpParserResetRequest
  simp only
  split <;> exact ⟨str_clear _, str_clear _⟩

/-- What is routed while a connection is read was received on it, if what was left
before was. -/
theorem owned_socketRead : ∀ {segments : List (List (Octeto α))} {parser : Parser σ (Octeto α)},
    parser.request.Owned c → (∀ buffer ∈ segments, ∀ b ∈ buffer, b.2 = some c) →
      ∀ call ∈ (socketRead L parser segments).2, ∀ b ∈ call.url ++ call.body, b.2 = some c
  | [], _, _, _, _, hc => by cases hc
  | buffer :: segments, parser, h, hs, call, hc => by
    have hp := owned_parse (L := L) h (hs buffer List.mem_cons_self)
    have hs' : ∀ buffer ∈ segments, ∀ b ∈ buffer, b.2 = some c := fun x hx =>
      hs x (List.mem_cons_of_mem _ hx)
    simp only [socketRead] at hc
    split at hc
    · rcases List.mem_cons.mp hc with rfl | hc
      · exact hp
      · exact owned_socketRead (owned_of_limpo (limpo_reset L _)) hs' call hc
    · exact owned_socketRead hp hs' call hc

/-- **Isolation.** In every run in which each connection is served from a state whose
URL and body are empty strings, every byte that is routed while a connection is
served was received on that connection. -/
theorem isolation {connections : List (α × List (List UInt8))} :
    ∀ {parser : Parser σ (Octeto α)},
      (∀ before connection segments after,
        connections = before ++ (connection, segments) :: after →
          (socketLoop L parser (receivedAll before)).1.request.Limpo) →
      ∀ connection calls, (connection, calls) ∈ (socketLoop L parser (receivedAll connections)).2 →
        ∀ call ∈ calls, ∀ b ∈ call.url ++ call.body, b.2 = some connection := by
  induction connections with
  | nil =>
    intro parser _ connection calls hm
    cases hm
  | cons first connections ih =>
    obtain ⟨c₀, segments₀⟩ := first
    intro parser hclean connection calls hm
    rcases List.mem_cons.mp hm with he | hm
    · obtain ⟨rfl, rfl⟩ := Prod.mk.inj he
      have h₀ : parser.request.Limpo := hclean [] _ _ _ rfl
      refine owned_socketRead (owned_of_limpo h₀) ?_
      intro buffer hb b hbb
      obtain ⟨bytes, _, rfl⟩ := List.mem_map.mp hb
      obtain ⟨v, _, rfl⟩ := List.mem_map.mp hbb
      rfl
    · refine @ih (socketRead L parser (received c₀ segments₀)).1 ?_ connection calls hm
      intro before connection' segments' after hsplit
      exact hclean ((c₀, segments₀) :: before) connection' segments' after (by rw [hsplit]; rfl)

/-- The server before its first connection. -/
def servidor : Parser GetState (Octeto Nat) := httpParserInit getMachine .zeros .zeros

theorem isolation_get :
    ∃ calls, (2, calls) ∈ (socketLoop getMachine servidor (receivedAll
        [(1, [ascii "GET /clientes/1/extrato HTTP/1.1\r\n\r\n"]),
          (2, [ascii "GET /clientes/2/ext", ascii "rato HTTP/1.1\r\n\r\n"])])).2 ∧
      calls.length = 1 ∧ ∀ call ∈ calls, ∀ b ∈ call.url ++ call.body, b.2 = some 2 := by
  have hclean : ∀ before connection segments after,
      [(1, [ascii "GET /clientes/1/extrato HTTP/1.1\r\n\r\n"]),
        (2, [ascii "GET /clientes/2/ext", ascii "rato HTTP/1.1\r\n\r\n"])] =
          before ++ (connection, segments) :: after →
      (socketLoop getMachine servidor (receivedAll before)).1.request.Limpo := by
    intro before connection segments after h
    match before with
    | [] => exact ⟨by decide +kernel, by decide +kernel⟩
    | [x] =>
      obtain ⟨rfl, _⟩ := List.cons.inj h
      exact ⟨by decide +kernel, by decide +kernel⟩
    | x :: y :: z => simp at h
  have hcalls : ((socketLoop getMachine servidor (receivedAll
      [(1, [ascii "GET /clientes/1/extrato HTTP/1.1\r\n\r\n"]),
        (2, [ascii "GET /clientes/2/ext", ascii "rato HTTP/1.1\r\n\r\n"])])).2.any
          fun e => e.1 == 2 && e.2.length == 1) = true := by decide +kernel
  simp only [List.any_eq_true, Bool.and_eq_true, beq_iff_eq, Prod.exists] at hcalls
  obtain ⟨_, calls, hm, rfl, hl⟩ := hcalls
  exact ⟨calls, hm, hl, isolation hclean 2 calls hm⟩

/-- Connection 1 ends before the blank line. The line end that connection 2 starts with
completes its request, and the URL that is routed for connection 2 starts with that
of connection 1. -/
theorem isolation_broken :
    ∃ calls, (2, calls) ∈ (socketLoop getMachine servidor (receivedAll
        [(1, [ascii "GET /clientes/1/extrato HTTP/1.1\r\n"]),
          (2, [ascii "\r\nGET /clientes/2/extrato HTTP/1.1\r\n\r\n"])])).2 ∧
      ∃ call ∈ calls, ∃ b ∈ call.url ++ call.body, b.2 = some 1 := by
  have h : ((socketLoop getMachine servidor (receivedAll
      [(1, [ascii "GET /clientes/1/extrato HTTP/1.1\r\n"]),
        (2, [ascii "\r\nGET /clientes/2/extrato HTTP/1.1\r\n\r\n"])])).2.any fun e =>
          e.1 == 2 && e.2.any fun call => (call.url ++ call.body).any fun b => b.2 == some 1) =
        true := by decide +kernel
  simp only [List.any_eq_true, Bool.and_eq_true, beq_iff_eq, Prod.exists] at h
  obtain ⟨_, calls, hm, rfl, call, hc, v, o, hb, rfl⟩ := h
  exact ⟨calls, hm, call, hc, (v, some 1), hb, rfl⟩

end Crinha
