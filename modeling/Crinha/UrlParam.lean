import Crinha.Bytes.Regex
import Crinha.HttpParser
import Crinha.Failures

/-!
# The parameter of a URL

* `url_param`: the id used is the id in the URL;
* `url_param_fits`: when it fits its buffer.
-/

namespace Crinha
open Pipeline CString Regex Decimal

/-! ## `server/router.c` and the patterns -/

def matchOneUrlParam (str str2 : Bytes) : Bytes :=
  ascii "^\\" ++ str ++ ascii "\\/([a-zA-Z0-9\\-]*)\\" ++ str2 ++ ascii "$"

def extractOneUrlParam : Bytes := ascii "\\/([0-9]*)\\/"

def maxBufferUrlParam : Nat := 128

structure Route where
  method : UInt8
  url : Bytes

def routeFindById : Route := ⟨1, matchOneUrlParam (ascii "/clientes") (ascii "/extrato")⟩

def routeTransacaoSave : Route := ⟨3, matchOneUrlParam (ascii "/clientes") (ascii "/transacoes")⟩

def routes : List Route := [routeFindById, routeTransacaoSave]

def routerMatchUrl (url requestUrl : Bytes) : Bool :=
  ((regcomp url).bind fun regex => regex.exec requestUrl).isSome

/-! ## `extract_param` -/

/-- The bytes `sprintf` stores, and the value returned. -/
def extractParamRegex (pattern str : Bytes) : Bytes × Nat :=
  match (regcomp pattern).bind fun regex => regex.exec str with
  | some m => ((cstr (str.drop (m.so + 1))).take (m.eo - m.so - 2) ++ [0], m.eo - m.so)
  | none => ([], 0)

/-- The buffer afterwards. Neither `delimiter` nor `size` is used. -/
def extractParam (buffer url : Bytes) (_delimiter : UInt8) (_size : Nat) : Bytes :=
  let (stored, len) := extractParamRegex extractOneUrlParam url
  let buffer := overwrite buffer 0 stored
  if len = 0 then overwrite buffer 0 [0] else buffer

/-! ## The pattern of the id -/

/-- What `extractOneUrlParam` is compiled to. -/
def idPattern : Pattern UInt8 where
  atStart := false
  body := [.char 47, [(oneOf (bracketMembers (ascii "0-9"))).star].prod, .char 47].prod
  atEnd := false

theorem regcomp_extract : regcomp extractOneUrlParam = some idPattern := rfl

theorem mem_digits {b : UInt8} : b ∈ bracketMembers (ascii "0-9") ↔ isDigit b = true := by
  revert b
  apply forall_byte
  decide +kernel

theorem digitsOnly_iff {d : Bytes} : digitsOnly d = true ↔ ∀ b ∈ d, isDigit b = true :=
  List.all_eq_true

/-- A match is digits between two slashes. -/
theorem mem_idPattern {x : Bytes} :
    x ∈ idPattern.body.matches' ↔ ∃ d, digitsOnly d = true ∧ x = 47 :: (d ++ [47]) := by
  simp only [idPattern, mem_cons, mem_nil, mem_char, mem_star_oneOf, mem_digits]
  constructor
  · rintro ⟨_, rfl, _, ⟨_, ⟨d, hd, _, rfl, rfl⟩, _, ⟨_, rfl, _, rfl, rfl⟩, rfl⟩, rfl⟩
    exact ⟨d, digitsOnly_iff.mpr hd, by simp⟩
  · rintro ⟨d, hd, rfl⟩
    exact ⟨[47], rfl, d ++ [47], ⟨d, ⟨d, digitsOnly_iff.mp hd, [], rfl, List.append_nil d⟩, [47],
      ⟨[47], rfl, [], rfl, rfl⟩, rfl⟩, rfl⟩

theorem ocorre_idPattern {a x b : Bytes} :
    idPattern.Ocorre a x b ↔ ∃ d, digitsOnly d = true ∧ x = 47 :: (d ++ [47]) := by
  rw [← mem_idPattern]
  exact ⟨fun h => h.mem, fun h => ⟨h, fun h => (by cases h), fun h => (by cases h)⟩⟩

/-! ## Searching for the id -/

/-- Digits up to a slash are all there are in front. -/
theorem takeWhile_digits {d : Bytes} (hd : digitsOnly d = true) (rest : Bytes) :
    (d ++ 47 :: rest).takeWhile isDigit = d ∧ (d ++ 47 :: rest).dropWhile isDigit = 47 :: rest := by
  have h := digitsOnly_iff.mp hd
  rw [List.takeWhile_append_of_pos h, List.dropWhile_append_of_pos h]
  have hslash : isDigit 47 = false := by decide
  simp [hslash]

theorem digitsOnly_takeWhile (str : Bytes) : digitsOnly (str.takeWhile isDigit) = true :=
  List.all_takeWhile

/-- The longest match at the start of a text. -/
theorem longest_idPattern (b : UInt8) (str : Bytes) :
    idPattern.longest (b :: str) =
      if b = 47 ∧ (str.dropWhile isDigit).head? = some 47 then
        some ((str.takeWhile isDigit).length + 2) else none := by
  -- every match in front is the digits that are there
  have front {x rest : Bytes} (hs : b :: str = x ++ rest) (hx : idPattern.Ocorre [] x rest) :
      b = 47 ∧ (str.dropWhile isDigit).head? = some 47 ∧
        x.length = (str.takeWhile isDigit).length + 2 := by
    obtain ⟨d, hd, rfl⟩ := ocorre_idPattern.mp hx
    simp only [List.cons_append, List.append_assoc, List.nil_append, List.cons.injEq] at hs
    obtain ⟨rfl, rfl⟩ := hs
    obtain ⟨ht, hr⟩ := takeWhile_digits hd rest
    exact ⟨rfl, by rw [hr]; rfl, by simp [ht]⟩
  cases hl : idPattern.longest (b :: str) with
  | some n =>
    obtain ⟨⟨x, rest, hs, hn, hx⟩, _⟩ := longest_some hl
    obtain ⟨hb, hh, hlen⟩ := front hs hx
    rw [if_pos ⟨hb, hh⟩, ← hlen, hn]
  | none =>
    rw [if_neg]
    rintro ⟨rfl, hh⟩
    obtain ⟨rest, hr⟩ : ∃ rest, str.dropWhile isDigit = 47 :: rest := by
      cases hd : str.dropWhile isDigit with
      | nil => simp [hd] at hh
      | cons c rest =>
        rw [hd, List.head?_cons, Option.some.injEq] at hh
        exact ⟨rest, by rw [hh]⟩
    have hs : 47 :: str = (47 :: (str.takeWhile isDigit ++ [47])) ++ rest := by
      rw [List.cons_append, List.append_assoc, List.singleton_append, ← hr,
        List.takeWhile_append_dropWhile]
    exact longest_none hl hs (ocorre_idPattern.mpr ⟨_, digitsOnly_takeWhile str, rfl⟩)

/-- The search finds the id as `matchUrlParam` does. -/
theorem exec_idPattern (str : Bytes) :
    (∀ d, matchUrlParam str = some d → ∃ m, idPattern.exec str = some m ∧
      m.eo - m.so = d.length + 2 ∧ ∃ rest, str.drop (m.so + 1) = d ++ rest) ∧
    (matchUrlParam str = none → idPattern.exec str = none) := by
  induction str with
  | nil => exact ⟨fun d h => (by cases h), fun _ => rfl⟩
  | cons b str ih =>
    simp only [matchUrlParam, Pattern.exec, longest_idPattern]
    split
    · constructor
      · intro d hd
        obtain rfl := Option.some.inj hd
        exact ⟨_, rfl, rfl, str.dropWhile isDigit, List.takeWhile_append_dropWhile.symm⟩
      · intro h
        cases h
    · constructor
      · intro d hd
        obtain ⟨m, hm, hlen, rest, hrest⟩ := ih.1 d hd
        refine ⟨m.succ, ?_, ?_, rest, hrest⟩
        · rw [hm]
          rfl
        · simp only [Match.succ]
          omega
      · intro h
        rw [ih.2 h]
        rfl

theorem digitsOnly_of_matchUrlParam {str d : Bytes} (h : matchUrlParam str = some d) :
    digitsOnly d = true := by
  induction str with
  | nil => cases h
  | cons b str ih =>
    unfold matchUrlParam at h
    split at h
    · obtain rfl := Option.some.inj h
      exact digitsOnly_takeWhile str
    · exact ih h

theorem digits_noNul {d : Bytes} (hd : digitsOnly d = true) : ∀ b ∈ d, Octet.val b ≠ 0 := by
  intro b hb h0
  have hdigit := digitsOnly_iff.mp hd b hb
  rw [show b = 0 from h0] at hdigit
  revert hdigit
  decide

/-- The bytes of the id and a NUL are stored. -/
theorem extractParamRegex_some {str d : Bytes} (h : matchUrlParam str = some d) :
    extractParamRegex extractOneUrlParam str = (d ++ [0], d.length + 2) := by
  obtain ⟨m, hm, hlen, rest, hrest⟩ := (exec_idPattern str).1 d h
  have hc : (cstr (d ++ rest)).take d.length = d := by
    rw [cstr_append rest (digits_noNul (digitsOnly_of_matchUrlParam h)), List.take_left]
  simp only [extractParamRegex, regcomp_extract, Option.bind_some, hm, hlen, hrest,
    Nat.add_sub_cancel, hc]

theorem extractParamRegex_none {str : Bytes} (h : matchUrlParam str = none) :
    extractParamRegex extractOneUrlParam str = ([], 0) := by
  simp only [extractParamRegex, regcomp_extract, Option.bind_some, (exec_idPattern str).2 h]

/-- What `extract_param` leaves in its buffer is what `extractUrlParam` says. -/
theorem extractParam_eq (buffer url : Bytes) (delimiter : UInt8) (size : Nat) :
    cstr (extractParam buffer url delimiter size) = extractUrlParam url := by
  unfold extractParam extractUrlParam
  cases h : matchUrlParam url with
  | none =>
    rw [extractParamRegex_none h]
    exact cstr_nul _
  | some d =>
    rw [extractParamRegex_some h]
    have hd := digits_noNul (digitsOnly_of_matchUrlParam h)
    show cstr (d ++ [0] ++ buffer.drop _) = d
    rw [List.append_assoc, cstr_append _ hd]
    exact (congrArg (d ++ ·) (cstr_nul _)).trans (List.append_nil d)

/-! ## The URLs that are routed -/

/-- The bytes of `[a-zA-Z0-9\-]`: the backslash is one of them. -/
def classe : Bytes := bracketMembers (ascii "a-zA-Z0-9\\-")

/-- What a route's URL is compiled to. -/
def routePattern (fim : Bytes) : Pattern UInt8 where
  atStart := true
  body := ((ascii "/clientes/").map RegularExpression.char ++
    ([(oneOf classe).star].prod :: (fim.map RegularExpression.char ++ []))).prod
  atEnd := true

/-- The last part of a route's URL. -/
def Fim (fim : Bytes) : Prop := fim = ascii "/extrato" ∨ fim = ascii "/transacoes"

theorem regcomp_route {route : Route} (h : route ∈ routes) :
    ∃ fim, Fim fim ∧ regcomp route.url = some (routePattern fim) := by
  simp only [routes, List.mem_cons, List.not_mem_nil, or_false] at h
  rcases h with rfl | rfl
  · exact ⟨_, .inl rfl, rfl⟩
  · exact ⟨_, .inr rfl, rfl⟩

theorem routerMatchUrl_iff {route : Route} {fim url : Bytes}
    (h : regcomp route.url = some (routePattern fim)) :
    routerMatchUrl route.url url = true ↔
      ∃ s, url = ascii "/clientes/" ++ s ++ fim ∧ ∀ b ∈ s, b ∈ classe := by
  have hmem {x : Bytes} : x ∈ (routePattern fim).body.matches' ↔
      ∃ s, x = ascii "/clientes/" ++ s ++ fim ∧ ∀ b ∈ s, b ∈ classe := by
    simp only [routePattern, mem_literal, mem_cons, mem_nil, mem_star_oneOf]
    constructor
    · rintro ⟨_, ⟨_, ⟨s, hs, _, rfl, rfl⟩, _, ⟨_, rfl, rfl⟩, rfl⟩, rfl⟩
      exact ⟨s, by simp, hs⟩
    · rintro ⟨s, rfl, hs⟩
      exact ⟨s ++ fim, ⟨s, ⟨s, hs, [], rfl, List.append_nil s⟩, fim,
        ⟨[], rfl, List.append_nil fim⟩, rfl⟩, (List.append_assoc _ _ _).symm⟩
  rw [routerMatchUrl, h, Option.bind_some, exec_isSome_iff]
  constructor
  · rintro ⟨a, x, b, rfl, hx⟩
    obtain ⟨s, rfl, hs⟩ := hmem.mp hx.mem
    exact ⟨s, by simp [hx.atStart rfl, hx.atEnd rfl], hs⟩
  · rintro ⟨s, rfl, hs⟩
    exact ⟨[], _, [], by simp, hmem.mpr ⟨s, rfl, hs⟩, fun _ => rfl, fun _ => rfl⟩

theorem classe_noSlash {s : Bytes} (hs : ∀ b ∈ s, b ∈ classe) : ∀ b ∈ s, b ≠ 47 := by
  rintro b hb rfl
  have h := hs 47 hb
  revert h
  decide +kernel

/-- There is no id before the first slash. -/
theorem matchUrlParam_append {s : Bytes} (hs : ∀ b ∈ s, b ≠ 47) (rest : Bytes) :
    matchUrlParam (s ++ rest) = matchUrlParam rest := by
  induction s with
  | nil => rfl
  | cons b s ih =>
    rw [List.cons_append, matchUrlParam, if_neg fun h => hs b List.mem_cons_self h.1]
    exact ih fun c hc => hs c (List.mem_cons_of_mem _ hc)

/-- The id of a routed URL is the text between its last two slashes, if it has digits
only. -/
theorem matchUrlParam_route {s fim : Bytes} (hs : ∀ b ∈ s, b ≠ 47) (hf : Fim fim) :
    matchUrlParam (ascii "/clientes/" ++ s ++ fim) =
      if digitsOnly s then some s else none := by
  have hstart : matchUrlParam (ascii "/clientes/" ++ s ++ fim) =
      matchUrlParam (47 :: (s ++ fim)) := by
    rw [List.append_assoc]
    rfl
  obtain ⟨rest, hrest, hno⟩ : ∃ rest, fim = 47 :: rest ∧ matchUrlParam fim = none := by
    rcases hf with rfl | rfl
    · exact ⟨ascii "extrato", by decide, by decide⟩
    · exact ⟨ascii "transacoes", by decide, by decide⟩
  rw [hstart, matchUrlParam, matchUrlParam_append hs, hno]
  by_cases hd : digitsOnly s = true
  · obtain ⟨ht, hr⟩ := takeWhile_digits hd rest
    rw [hrest, ht, hr]
    simp [hd]
  · have hne : s.dropWhile isDigit ≠ [] := by
      rwa [Ne, List.dropWhile_eq_nil_iff, ← digitsOnly_iff]
    obtain ⟨b, t, hb⟩ := List.exists_cons_of_ne_nil hne
    have hslash : b ≠ 47 := hs b ((List.dropWhile_suffix _).subset (hb ▸ List.mem_cons_self))
    have hr : (s ++ fim).dropWhile isDigit = b :: (t ++ fim) := by
      rw [List.dropWhile_append, hb]
      rfl
    rw [hr]
    simp [hd, hslash]

/-! ## What the handlers do with it -/

theorem value_append_lt (ds : Bytes) (b : UInt8) (hb : isDigit b = true) :
    value (ds ++ [b]) < 10 * value ds + 10 := by
  simp only [isDigit, Bool.and_eq_true, decide_eq_true_eq] at hb
  simp only [value, List.foldl_append, List.foldl_cons, List.foldl_nil]
  omega

/-- `n` digits make a number below `10 ^ n`. -/
theorem value_lt {ds : Bytes} (h : digitsOnly ds = true) : value ds < 10 ^ ds.length := by
  induction ds using List.reverseRecOn with
  | nil => decide
  | append_singleton ds b ih =>
    have hall := digitsOnly_iff.mp h
    have hlt := ih (digitsOnly_iff.mpr fun c hc => hall c (List.mem_append_left _ hc))
    have hb := value_append_lt ds b (hall b (by simp))
    rw [List.length_append, List.length_singleton, Nat.pow_succ]
    omega

theorem atoi_digits {s : Bytes} (h : digitsOnly s = true) : atoi s = value s := by
  have hall := digitsOnly_iff.mp h
  have ht : s.takeWhile isDigit = s := List.takeWhile_eq_self_iff.mpr hall
  have hp : parseInt s = value (s.takeWhile isDigit) := by
    unfold parseInt
    split
    · exact absurd (hall 45 List.mem_cons_self) (by decide)
    · rfl
  rw [atoi, hp, ht, Int.toNat_natCast]

/-- One to nine digits. -/
def NoveDigitos (s : Bytes) : Prop := 1 ≤ s.length ∧ s.length ≤ 9 ∧ digitsOnly s = true

theorem isIdClienteValido_iff {s : Bytes} :
    isIdClienteValido (if digitsOnly s then s else []) = true ↔ NoveDigitos s := by
  unfold isIdClienteValido NoveDigitos
  split
  · rename_i h
    simp only [h, Bool.and_true, Bool.and_eq_true, decide_eq_true_eq, and_true]
    omega
  · rename_i h
    simp [h]

/-- The checks on the body are passed. -/
def Requisicao.Passa (J : Jansson) : Requisicao → Prop
  | post _ body => ∃ text, body = some text ∧ Aceitavel (J.loads text)
  | get .. => True

section
variable {J : Jansson} {R : Relogio} {req : Requisicao}

theorem handler_refuses (hid : isIdClienteValido (extractUrlParam req.url) = false) :
    ∃ resp, handler J R req = .done resp ∧ (resp.status = 400 ∨ resp.status = 422) := by
  cases req with
  | get url agora =>
    refine ⟨.badRequest, ?_, .inl rfl⟩
    simp only [Requisicao.url] at hid
    simp [handler, clienteControllerFindById, hid]
  | post url body =>
    simp only [Requisicao.url] at hid
    cases body with
    | none => exact ⟨.badRequest, rfl, .inl rfl⟩
    | some body => exact ⟨.unprocessableEntity, saveTransacao_badId hid, .inr rfl⟩

/-- With a valid id, a request that passes the checks on its body queries its client
first, and one that does not queries nothing. -/
theorem handler_queries (hid : isIdClienteValido (extractUrlParam req.url) = true) :
    (req.Passa J → ∃ k, handler J R req = .query req.cliente k) ∧
      ((∃ q k, handler J R req = .query q k) → req.Passa J) := by
  cases req with
  | get url agora =>
    simp only [Requisicao.url] at hid
    constructor
    · intro _
      simp only [handler, clienteControllerFindById, hid, if_true]
      exact ⟨_, rfl⟩
    · intro _
      trivial
  | post url body =>
    simp only [Requisicao.url] at hid
    constructor
    · rintro ⟨text, rfl, hok⟩
      exact saveTransacao_accept hid (campos_accept.mpr hok)
    · rintro ⟨q, k, hq⟩
      cases body with
      | none => cases hq
      | some text =>
        refine ⟨text, rfl, campos_accept.mp ?_⟩
        simp only [handler] at hq
        cases hc : campos J text with
        | none =>
          rw [saveTransacao_crash hid hc] at hq
          cases hq
        | some accept =>
          cases accept with
          | true => rfl
          | false =>
            rw [saveTransacao_refuse hid hc] at hq
            cases hq

end

/-- What becomes of a routed URL with the text `s` between its last two slashes. -/
structure ParamLido (url s : Bytes) : Prop where
  extraido : ∀ buffer, cstr (extractParam buffer url 47 maxBufferUrlParam) =
    if digitsOnly s then s else []
  valor : NoveDigitos s → atoi s = value s ∧ value s < 2 ^ 31
  consulta : ∀ (J : Jansson) (R : Relogio) (req : Requisicao), req.url = url → NoveDigitos s →
    req.Passa J → ∃ k, handler J R req = .query (.cliente (value s)) k
  apenas : ∀ (J : Jansson) (R : Relogio) (req : Requisicao), req.url = url →
    (∃ q k, handler J R req = .query q k) → NoveDigitos s ∧ req.Passa J
  recusa : ∀ (J : Jansson) (R : Relogio) (req : Requisicao), req.url = url → ¬NoveDigitos s →
    ∃ resp, handler J R req = .done resp ∧ (resp.status = 400 ∨ resp.status = 422)

theorem paramLido_of_extract {url s : Bytes}
    (hparam : extractUrlParam url = if digitsOnly s then s else []) : ParamLido url s := by
  have hid {req : Requisicao} (hreq : req.url = url) :
      isIdClienteValido (extractUrlParam req.url) = true ↔ NoveDigitos s := by
    rw [hreq, hparam, isIdClienteValido_iff]
  have hrecusa (J : Jansson) (R : Relogio) (req : Requisicao) (hreq : req.url = url)
      (hn : ¬NoveDigitos s) :
      ∃ resp, handler J R req = .done resp ∧ (resp.status = 400 ∨ resp.status = 422) :=
    handler_refuses (Bool.eq_false_iff.mpr fun he => hn ((hid hreq).mp he))
  exact {
    extraido := fun buffer => by rw [extractParam_eq, hparam]
    valor := fun hn => by
      have hlt := value_lt hn.2.2
      have hpow : 10 ^ s.length ≤ 10 ^ 9 := Nat.pow_le_pow_right (by decide) hn.2.1
      exact ⟨atoi_digits hn.2.2, by omega⟩
    consulta := fun J R req hreq hn hp => by
      obtain ⟨k, hk⟩ := (handler_queries (R := R) ((hid hreq).mpr hn)).1 hp
      refine ⟨k, ?_⟩
      rw [hk, Requisicao.cliente, hreq, hparam, if_pos hn.2.2, atoi_digits hn.2.2]
    apenas := fun J R req hreq hq => by
      have hn : NoveDigitos s := by
        by_contra hn
        obtain ⟨resp, hr, _⟩ := hrecusa J R req hreq hn
        obtain ⟨q, k, hq⟩ := hq
        rw [hr] at hq
        cases hq
      exact ⟨hn, (handler_queries ((hid hreq).mpr hn)).2 hq⟩
    recusa := hrecusa }

/-- **The id used is the id in the URL.** It is the text between the last two slashes if
that has digits only. The database is queried exactly if it is one to nine digits and
the checks on the body are passed, and then for the client of that number. -/
theorem url_param {route : Route} (hroute : route ∈ routes) {url : Bytes}
    (h : routerMatchUrl route.url url = true) :
    ∃ s fim, url = ascii "/clientes/" ++ s ++ fim ∧ Fim fim ∧ ParamLido url s := by
  obtain ⟨fim, hfim, hc⟩ := regcomp_route hroute
  obtain ⟨s, rfl, hs⟩ := (routerMatchUrl_iff hc).mp h
  refine ⟨s, fim, rfl, hfim, paramLido_of_extract ?_⟩
  rw [extractUrlParam, matchUrlParam_route (classe_noSlash hs) hfim]
  split <;> rfl

theorem url_param_doze :
    ∃ s fim, ascii "/clientes/12/extrato" = ascii "/clientes/" ++ s ++ fim ∧ Fim fim ∧
      ParamLido (ascii "/clientes/12/extrato") s :=
  @url_param routeFindById (by simp [routes]) _ (by decide +kernel)

/-- A POST for a client of one digit, with a body that is no JSON, queries nothing. -/
theorem url_param_refused :
    routerMatchUrl routeTransacaoSave.url (ascii "/clientes/1/transacoes") = true ∧
    NoveDigitos (ascii "1") ∧
    handler .semTipo .parado (.post (ascii "/clientes/1/transacoes") (some (ascii "x"))) =
      .done .unprocessableEntity := by
  have hid : isIdClienteValido (extractUrlParam (ascii "/clientes/1/transacoes")) = true := by
    decide
  have hc : campos .semTipo (ascii "x") = some false := by decide
  exact ⟨by decide +kernel, ⟨by decide, by decide, by decide⟩, saveTransacao_refuse hid hc⟩

/-! ## The buffer -/

/-- **The id fits its buffer** exactly if it has at most 127 digits, or is not stored. -/
theorem url_param_fits {route : Route} (hroute : route ∈ routes) {url : Bytes}
    (h : routerMatchUrl route.url url = true) :
    ∃ s fim, url = ascii "/clientes/" ++ s ++ fim ∧ Fim fim ∧
      ((extractParamRegex extractOneUrlParam url).1.length ≤ maxBufferUrlParam ↔
        (∃ b ∈ s, isDigit b = false) ∨ s.length ≤ 127) := by
  obtain ⟨fim, hfim, hc⟩ := regcomp_route hroute
  obtain ⟨s, rfl, hs⟩ := (routerMatchUrl_iff hc).mp h
  have hm := matchUrlParam_route (classe_noSlash hs) hfim
  refine ⟨s, fim, rfl, hfim, ?_⟩
  by_cases hd : digitsOnly s = true
  · have hall : ¬∃ b ∈ s, isDigit b = false := by
      rintro ⟨b, hb, hno⟩
      rw [digitsOnly_iff.mp hd b hb] at hno
      cases hno
    rw [if_pos hd] at hm
    rw [extractParamRegex_some hm, or_iff_right hall, List.length_append, List.length_singleton]
    exact Nat.succ_le_succ_iff
  · rw [if_neg hd] at hm
    have hno : ∃ b ∈ s, isDigit b = false := by
      simpa [digitsOnly] using hd
    rw [extractParamRegex_none hm]
    exact iff_of_true (Nat.zero_le _) (.inl hno)

theorem url_param_fits_doze :
    (extractParamRegex extractOneUrlParam (ascii "/clientes/12/extrato")).1.length ≤
      maxBufferUrlParam := by
  obtain ⟨s, fim, he, hfim, h⟩ := @url_param_fits routeFindById (by simp [routes])
    (ascii "/clientes/12/extrato") (by decide +kernel)
  refine h.mpr (.inr ?_)
  have hlen := congrArg List.length he
  simp only [List.length_append] at hlen
  have htotal : (ascii "/clientes/12/extrato").length = 20 := by decide
  omega

/-- A URL with an id of 128 digits, of 146 bytes in all. -/
def urlLonga : Bytes := ascii "/clientes/" ++ List.replicate 128 49 ++ ascii "/extrato"

/-- It is accepted and routed, and 129 bytes are stored for its id. -/
theorem url_param_overflow :
    (handleOnUrl ⟨.zeros, .zeros, false⟩ urlLonga).map (fun request => request.url.str) =
      some urlLonga ∧
    routerMatchUrl routeFindById.url urlLonga = true ∧
    (extractParamRegex extractOneUrlParam urlLonga).1.length = 129 := by
  refine ⟨by decide +kernel, ?_, ?_⟩
  · exact (routerMatchUrl_iff rfl).mpr ⟨_, rfl, by decide +kernel⟩
  · rw [extractParamRegex_some (d := List.replicate 128 49) (by decide +kernel),
      List.length_append, List.length_replicate]
    rfl

end Crinha
