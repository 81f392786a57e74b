import Crinha.Slots.Scan
import Crinha.UrlParam

/-!
# `server/router.c`

The table of routes, filled once at the start and searched for every request.
-/

namespace Crinha
open Slots CString Pipeline

def maxRoutes : Nat := 10
def httpPost : UInt8 := 3

/-- A `Route` with its handlers, either of which may be `NULL`. -/
structure RouteEntry (A : Type) extends Route where
  controller : Option (Bytes → A)
  controllerBody : Option (Bytes → Option Bytes → A)

/-- What `router_route` comes to; the call of a `NULL` handler has no value. -/
inductive Despacho (A : Type) where
  | badRequest
  | handler (value : Option A)

section
variable {A : Type}

/-- The table, and what lies behind it in memory. -/
abbrev Routes (A : Type) := Nat → Option (RouteEntry A)

/-- What follows after a loop with these reads. After a read behind the table anything may. -/
def depoisDe {X : Type} (reads : List Nat) (x : X) : Option X :=
  if ∀ i ∈ reads, i < maxRoutes then some x else none

/-- The length, and the indices that are read for it. -/
def routerRoutesLen (routes : Routes A) : Option Nat × List Nat :=
  let (i, reads) := scanFrom maxRoutes routes (fun _ => false) 0
  (depoisDe reads i, reads)

def routerAddRoute (routes : Routes A) (route : RouteEntry A) :
    Option (Routes A × Bool) × List Nat :=
  let (len, reads) := routerRoutesLen routes
  (len.map fun len =>
    if len < maxRoutes then (Function.update routes len (some route), true) else (routes, false),
    reads)

/-- One registration after another. -/
def addRoutes (routes : Routes A) : List (RouteEntry A) → Option (Routes A × List Bool) × List Nat
  | [] => (some (routes, []), [])
  | route :: list =>
    match routerAddRoute routes route with
    | (none, reads) => (none, reads)
    | (some (routes, added), reads) =>
      let (rest, readsRest) := addRoutes routes list
      (rest.map fun rest => (rest.1, added :: rest.2), reads ++ readsRest)

def RouteEntry.accepts (matchUrl : Bytes → Bytes → Bool) (method : UInt8) (url : Bytes)
    (route : RouteEntry A) : Bool :=
  route.method == method && matchUrl route.url url

def RouteEntry.call (route : RouteEntry A) (method : UInt8) (url : Bytes) (body : Option Bytes) :
    Option A :=
  if method = httpPost then route.controllerBody.map fun f => f url body
  else route.controller.map fun f => f url

/-- `matchUrl` compiles a pattern and searches a URL with it. -/
def routerRoute (matchUrl : Bytes → Bytes → Bool) (routes : Routes A) (method : UInt8)
    (url : Bytes) (body : Option Bytes) : Option (Despacho A) × List Nat :=
  let (i, reads) := scanFrom maxRoutes routes (RouteEntry.accepts matchUrl method url) 0
  (depoisDe reads <| match routes i with
    | some route =>
      if i < maxRoutes then .handler (route.call method url body) else .badRequest
    | none => .badRequest, reads)

/-! ## Registration -/

section
variable {routes : Routes A} {l : List (RouteEntry A)}

theorem depoisDe_eq_some {X : Type} {reads : List Nat} {x : X} (h : ∀ i ∈ reads, i < maxRoutes) :
    depoisDe reads x = some x := if_pos h

theorem reads_len_iff (h : Holds maxRoutes routes l) :
    (∀ i ∈ (routerRoutesLen routes).2, i < maxRoutes) ↔ l.length < maxRoutes := by
  have hreads := reads_lt_iff h fun _ => false
  simpa [routerRoutesLen] using hreads

/-- A registration for which there is room. -/
theorem addRoute_accept (h : Holds maxRoutes routes l) (route : RouteEntry A)
    (hlt : l.length < maxRoutes) : (routerAddRoute routes route).1 =
      some (Function.update routes l.length (some route), true) := by
  have hlen : (scanFrom maxRoutes routes (fun _ => false) 0).1 = l.length := by
    rw [scan_eq h]
    exact List.findIdx_eq_length.mpr fun _ _ => rfl
  have hreads : ∀ i ∈ (scanFrom maxRoutes routes (fun _ => false) 0).2, i < maxRoutes :=
    (reads_len_iff h).mpr hlt
  rw [routerAddRoute, routerRoutesLen]
  simp only [depoisDe_eq_some hreads, hlen, Option.map_some, if_pos hlt]

/-- For one without room the scan has read behind the table. -/
theorem addRoute_full (h : Holds maxRoutes routes l) (route : RouteEntry A)
    (hfull : ¬l.length < maxRoutes) : (routerAddRoute routes route).1 = none := by
  have hread : ¬∀ i ∈ (scanFrom maxRoutes routes (fun _ => false) 0).2, i < maxRoutes :=
    mt (reads_len_iff h).mp hfull
  rw [routerAddRoute, routerRoutesLen]
  simp only [depoisDe, if_neg hread, Option.map_none]

/-- As long as there is room, the table holds the routes in their order. -/
theorem addRoutes_holds (h : Holds maxRoutes routes l) (list : List (RouteEntry A))
    (room : l.length + list.length ≤ maxRoutes) :
    ∃ table, (addRoutes routes list).1 = some (table, list.map fun _ => true) ∧
      Holds maxRoutes table (l ++ list) := by
  induction list generalizing routes l with
  | nil => exact ⟨routes, rfl, by rwa [List.append_nil]⟩
  | cons route list ih =>
    rw [List.length_cons] at room
    have hlt : l.length < maxRoutes := by omega
    have hroom : (l ++ [route]).length + list.length ≤ maxRoutes := by
      rw [List.length_append, List.length_singleton]
      omega
    obtain ⟨table, htable, hholds⟩ := ih (h.push route hlt) hroom
    have haccept := addRoute_accept h route hlt
    refine ⟨table, ?_, by rwa [List.append_assoc, List.singleton_append] at hholds⟩
    rw [addRoutes]
    generalize routerAddRoute routes route = added at haccept
    obtain ⟨_, reads⟩ := added
    obtain rfl := haccept
    simp only [htable, Option.map_some, List.map_cons]

/-- The scans of registrations read no slot behind the table exactly if all are accepted. -/
theorem addRoutes_reads (h : Holds maxRoutes routes l) (list : List (RouteEntry A)) :
    (∀ i ∈ (addRoutes routes list).2, i < maxRoutes) ↔
      list = [] ∨ l.length + list.length ≤ maxRoutes := by
  induction list generalizing routes l with
  | nil => simp [addRoutes]
  | cons route list ih =>
    have hfirst : (∀ i ∈ (routerAddRoute routes route).2, i < maxRoutes) ↔ l.length < maxRoutes :=
      reads_len_iff h
    rw [addRoutes]
    by_cases hlt : l.length < maxRoutes
    · have hrest := ih (h.push route hlt)
      have haccept := addRoute_accept h route hlt
      rw [List.length_append, List.length_singleton] at hrest
      generalize routerAddRoute routes route = added at haccept hfirst
      obtain ⟨_, reads⟩ := added
      obtain rfl := haccept
      simp only [List.forall_mem_append, hfirst, hrest, hlt, true_and, List.length_cons,
        reduceCtorEq, false_or]
      constructor
      · rintro (rfl | hle)
        · exact hlt
        · omega
      · intro hle
        exact .inr (by omega)
    · have hfull := addRoute_full h route hlt
      generalize routerAddRoute routes route = added at hfull hfirst
      obtain ⟨_, reads⟩ := added
      obtain rfl := hfull
      simp only [hfirst, hlt, List.length_cons, reduceCtorEq, false_or, false_iff]
      omega

/-- More than there is room for have no result. -/
theorem addRoutes_none (h : Holds maxRoutes routes l) {list : List (RouteEntry A)}
    (full : maxRoutes < l.length + list.length) : (addRoutes routes list).1 = none := by
  induction list generalizing routes l with
  | nil => exact absurd h.length_le (Nat.not_le.mpr full)
  | cons route list ih =>
    rw [List.length_cons] at full
    rw [addRoutes]
    by_cases hlt : l.length < maxRoutes
    · have hfull : maxRoutes < (l ++ [route]).length + list.length := by
        rw [List.length_append, List.length_singleton]
        omega
      have hrest := ih (h.push route hlt) hfull
      have haccept := addRoute_accept h route hlt
      generalize routerAddRoute routes route = added at haccept
      obtain ⟨_, reads⟩ := added
      obtain rfl := haccept
      simp only [hrest, Option.map_none]
    · have hnone := addRoute_full h route hlt
      generalize routerAddRoute routes route = added at hnone
      obtain ⟨_, reads⟩ := added
      obtain rfl := hnone
      rfl

/-! ## Dispatch -/

variable {matchUrl : Bytes → Bytes → Bool} {method : UInt8} {url : Bytes} {body : Option Bytes}

theorem accepts_iff {route : RouteEntry A} : route.accepts matchUrl method url = true ↔
    route.method = method ∧ matchUrl route.url url = true := by
  rw [RouteEntry.accepts, Bool.and_eq_true, beq_iff_eq]

theorem routerRoute_reads (matchUrl : Bytes → Bytes → Bool) (method : UInt8) (url : Bytes)
    (body : Option Bytes) (h : Holds maxRoutes routes l) :
    (∀ i ∈ (routerRoute matchUrl routes method url body).2, i < maxRoutes) ↔
      l.length < maxRoutes ∨ ∃ route ∈ l, route.accepts matchUrl method url = true :=
  reads_lt_iff h _

/-- The handler of the first route that accepts the request is called. -/
theorem routerRoute_eq (h : Holds maxRoutes routes l)
    (safe : l.length < maxRoutes ∨ ∃ route ∈ l, route.accepts matchUrl method url = true) :
    (routerRoute matchUrl routes method url body).1 =
      some ((l.find? (RouteEntry.accepts matchUrl method url)).elim .badRequest
        fun route => .handler (route.call method url body)) := by
  have hreads := (routerRoute_reads matchUrl method url body h).mpr safe
  rw [routerRoute] at hreads ⊢
  simp only at hreads ⊢
  rw [depoisDe_eq_some hreads, scan_eq h, List.find?_eq_getElem?_findIdx]
  simp only
  by_cases hlt : l.findIdx (RouteEntry.accepts matchUrl method url) < maxRoutes
  · rw [h.slot _ hlt]
    cases l[l.findIdx (RouteEntry.accepts matchUrl method url)]? with
    | none => rfl
    | some route =>
      simp only [if_pos hlt]
      rfl
  · have hend : l[l.findIdx (RouteEntry.accepts matchUrl method url)]? = none :=
      List.getElem?_eq_none (Nat.le_trans h.length_le (Nat.not_lt.mp hlt))
    rw [hend]
    split
    · rw [if_neg hlt]
      rfl
    · rfl

end

/-! ## A request after registrations -/

/-- The registrations of `list` have filled `table`, and the request that follows goes where
it should. -/
structure Roteada (matchUrl : Bytes → Bytes → Bool) (routes : Routes A)
    (list : List (RouteEntry A)) (method : UInt8) (url : Bytes) (body : Option Bytes)
    (table : Routes A) : Prop where
  registered : (addRoutes routes list).1 =
    some (table, list.mapIdx fun i _ => decide (i < maxRoutes))
  holds : Holds maxRoutes table (list.take maxRoutes)
  dispatch : (routerRoute matchUrl table method url body).1 =
    some (((list.take maxRoutes).find? (RouteEntry.accepts matchUrl method url)).elim .badRequest
      fun route => .handler (route.call method url body))
  readsAdd : ∀ i ∈ (addRoutes routes list).2, i < maxRoutes
  readsRoute : ∀ i ∈ (routerRoute matchUrl table method url body).2, i < maxRoutes

theorem holds_empty {routes : Routes A} (h : ∀ i < maxRoutes, routes i = none) :
    Holds maxRoutes routes [] :=
  ⟨Nat.zero_le _, fun i hi => (h i hi).trans List.getElem?_nil.symm⟩

/-- **The router** registers and dispatches as it should, and never reads behind its table,
exactly if the table does not get full, or just gets full and a route in it accepts the
request. -/
theorem router_safe (matchUrl : Bytes → Bytes → Bool) {routes : Routes A}
    (h : ∀ i < maxRoutes, routes i = none) (list : List (RouteEntry A)) (method : UInt8)
    (url : Bytes) (body : Option Bytes) :
    (∃ table, Roteada matchUrl routes list method url body table) ↔
      list.length < maxRoutes ∨ list.length = maxRoutes ∧
        ∃ route ∈ list, route.method = method ∧ matchUrl route.url url = true := by
  have hempty := holds_empty h
  have hadd := addRoutes_reads hempty list
  rw [List.length_nil, Nat.zero_add] at hadd
  have haccepts : (∃ route ∈ list, route.accepts matchUrl method url = true) ↔
      ∃ route ∈ list, route.method = method ∧ matchUrl route.url url = true := by
    simp only [accepts_iff]
  rw [← haccepts]
  constructor
  · rintro ⟨table, hr⟩
    have hle : list.length ≤ maxRoutes := by
      rcases hadd.mp hr.readsAdd with rfl | hle
      · exact Nat.zero_le _
      · exact hle
    have hholds := hr.holds
    rw [List.take_of_length_le hle] at hholds
    rcases (routerRoute_reads matchUrl method url body hholds).mp hr.readsRoute with hlt | hany
    · exact .inl hlt
    · by_cases hlt : list.length < maxRoutes
      · exact .inl hlt
      · exact .inr ⟨by omega, hany⟩
  · intro hsafe
    have hle : list.length ≤ maxRoutes := by
      rcases hsafe with hlt | ⟨heq, _⟩
      · omega
      · omega
    have hroom : list.length < maxRoutes ∨
        ∃ route ∈ list, route.accepts matchUrl method url = true := hsafe.imp_right And.right
    obtain ⟨table, htable, hholds⟩ := addRoutes_holds hempty list
      (by rwa [List.length_nil, Nat.zero_add])
    rw [List.nil_append] at hholds
    have hadded : (list.map fun _ => true) = list.mapIdx fun i _ => decide (i < maxRoutes) := by
      apply List.ext_getElem (by simp)
      intro i hi _
      rw [List.length_map] at hi
      rw [List.getElem_map, List.getElem_mapIdx, decide_eq_true (by omega)]
    have htake : list.take maxRoutes = list := List.take_of_length_le hle
    refine ⟨table, by rw [htable, hadded], by rwa [htake], ?_, hadd.mpr (.inr hle),
      (routerRoute_reads _ _ _ _ hholds).mpr hroom⟩
    rw [htake]
    exact routerRoute_eq hholds hroom

end

/-! ## The routes of the service -/

section
variable (J : Jansson) (dataExtrato : Bytes)

def entryFindById : RouteEntry (DbProg Resposta) where
  toRoute := routeFindById
  controller := some fun url => clienteControllerFindById url dataExtrato
  controllerBody := none

def entryTransacaoSave : RouteEntry (DbProg Resposta) where
  toRoute := routeTransacaoSave
  controller := none
  controllerBody := some (clienteControllerSaveTransacao J)

/-- What `cliente_controller_init` leaves in the table. -/
def clienteControllerInit : Option (Routes (DbProg Resposta)) :=
  (addRoutes (fun _ => none) [entryFindById dataExtrato, entryTransacaoSave J]).1.map Prod.fst

/-- A GET of an extrato and a POST of a transaction get to their handlers, no handler is
`NULL`, and all else is a bad request. -/
theorem router_service (method : UInt8) (url : Bytes) (body : Option Bytes) :
    ((clienteControllerInit J dataExtrato).bind fun routes =>
      (routerRoute routerMatchUrl routes method url body).1) =
      some (if method = 1 ∧ routerMatchUrl routeFindById.url url = true then
        .handler (some (clienteControllerFindById url dataExtrato))
      else if method = httpPost ∧ routerMatchUrl routeTransacaoSave.url url = true then
        .handler (some (clienteControllerSaveTransacao J url body))
      else .badRequest) := by
  have hempty : Holds maxRoutes (fun _ => none) ([] : List (RouteEntry (DbProg Resposta))) :=
    holds_empty fun _ _ => rfl
  obtain ⟨table, htable, hholds⟩ := addRoutes_holds hempty
    [entryFindById dataExtrato, entryTransacaoSave J] (Nat.le_of_ble_eq_true rfl)
  have hget : (entryFindById dataExtrato).accepts routerMatchUrl method url = true ↔
      method = 1 ∧ routerMatchUrl routeFindById.url url = true :=
    accepts_iff.trans (and_congr_left' eq_comm)
  have hpost : (entryTransacaoSave J).accepts routerMatchUrl method url = true ↔
      method = httpPost ∧ routerMatchUrl routeTransacaoSave.url url = true :=
    accepts_iff.trans (and_congr_left' eq_comm)
  rw [clienteControllerInit, htable, Option.map_some, Option.bind_some,
    routerRoute_eq hholds (.inl (Nat.le_of_ble_eq_true rfl)), List.nil_append]
  by_cases h : method = 1 ∧ routerMatchUrl routeFindById.url url = true
  · rw [if_pos h, List.find?_cons_of_pos (hget.mpr h)]
    obtain ⟨rfl, _⟩ := h
    rfl
  · rw [if_neg h, List.find?_cons_of_neg (mt hget.mp h)]
    by_cases h' : method = httpPost ∧ routerMatchUrl routeTransacaoSave.url url = true
    · rw [if_pos h', List.find?_cons_of_pos (hpost.mpr h')]
      obtain ⟨rfl, _⟩ := h'
      rfl
    · rw [if_neg h', List.find?_cons_of_neg (mt hpost.mp h')]
      rfl

/-- The service after its two registrations. -/
theorem router_safe_service : ∃ table,
    Roteada routerMatchUrl (fun _ => none) [entryFindById [], entryTransacaoSave .semTipo] 1
      (ascii "/clientes/1/extrato") none table :=
  (router_safe routerMatchUrl (fun _ _ => rfl) _ _ _ _).mpr (.inl (by decide))

end

/-- With ten routes, the search for a request that none of them accepts reads behind the
table, and so does an eleventh registration: nothing is known of what they do. -/
theorem router_unsafe :
    (∃ table, (addRoutes (fun _ => none) (List.replicate 10 (entryFindById []))).1 =
        some (table, List.replicate 10 true) ∧
      (¬∀ i ∈ (routerRoute routerMatchUrl table httpPost (ascii "/clientes/1/extrato") none).2,
        i < maxRoutes) ∧
      (routerRoute routerMatchUrl table httpPost (ascii "/clientes/1/extrato") none).1.isNone) ∧
    (¬∀ i ∈ (addRoutes (fun _ => none) (List.replicate 11 (entryFindById []))).2,
      i < maxRoutes) ∧
    (addRoutes (fun _ => none) (List.replicate 11 (entryFindById []))).1.isNone := by
  have hempty : Holds maxRoutes (fun _ => none) ([] : List (RouteEntry (DbProg Resposta))) :=
    holds_empty fun _ _ => rfl
  obtain ⟨table, htable, hholds⟩ := addRoutes_holds hempty
    (List.replicate 10 (entryFindById [])) (by decide)
  have hread : ¬∀ i ∈ (routerRoute routerMatchUrl table httpPost (ascii "/clientes/1/extrato")
      none).2, i < maxRoutes := by
    rw [routerRoute_reads _ _ _ _ hholds]
    rintro (hlt | ⟨route, hm, haccepts⟩)
    · exact absurd hlt (by decide)
    · rw [List.eq_of_mem_replicate hm] at haccepts
      exact absurd (accepts_iff.mp haccepts).1 (by decide)
  refine ⟨⟨table, htable, hread, ?_⟩, ?_, ?_⟩
  · rw [routerRoute] at hread ⊢
    simp only [depoisDe] at hread ⊢
    rw [if_neg hread]
    rfl
  · rw [addRoutes_reads hempty]
    rintro (hnil | hle)
    · cases hnil
    · exact absurd hle (by decide)
  · rw [addRoutes_none hempty (by decide)]
    rfl

end Crinha
