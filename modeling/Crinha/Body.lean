import Crinha.Api

/-!
# The body of a POST

* `body_validated`: what the checks accept, and the `tipo` that crashes them;
* `descricao_kept`: which descriptions are kept whole.
-/

namespace Crinha
open Pipeline CString

/-! ## What a body should be -/

/-- A string of 1 to 10 code points. -/
def DescricaoBoa (json : Option Json) : Prop :=
  ∃ cs, json = some (.string (Utf8.encode cs)) ∧ 1 ≤ cs.length ∧ cs.length ≤ 10

structure Conforme (members : List (String × Json)) : Prop where
  descricao : DescricaoBoa (members.lookup "descricao")
  tipo : members.lookup "tipo" = some (.string (ascii "c")) ∨
    members.lookup "tipo" = some (.string (ascii "d"))
  valor : ∃ v, members.lookup "valor" = some (.integer v) ∧ 0 < v.toInt

/-- What a body is to be accepted for. -/
def Aceitavel (json : Option Json) : Prop :=
  ∃ members, json = some (.object members) ∧ Conforme members

/-- The description is good and `tipo` is missing or not a string. -/
def TipoNulo (json : Option Json) : Prop :=
  ∃ members, json = some (.object members) ∧ DescricaoBoa (members.lookup "descricao") ∧
    ∀ s, members.lookup "tipo" ≠ some (.string s)

/-! ## What the checks see -/

theorem jsonStringValue_eq_some {json : Option Json} {s : Bytes} :
    jsonStringValue json = some s ↔ json = some (.string s) := by
  unfold jsonStringValue
  split <;> simp_all

theorem jsonObjectGet_eq_some {json : Option Json} {key : String} {value : Json} :
    jsonObjectGet json key = some value ↔
      ∃ members, json = some (.object members) ∧ members.lookup key = some value := by
  unfold jsonObjectGet
  split
  · simp
  · rename_i hno
    simp only [false_iff, reduceCtorEq]
    rintro ⟨members, rfl, _⟩
    exact hno members rfl

@[simp] theorem jsonObjectGet_object (members : List (String × Json)) (key : String) :
    jsonObjectGet (some (.object members)) key = members.lookup key := rfl

section
variable {J : Jansson} {url body : Bytes}

/-- Strings of a JSON text are those of characters. -/
theorem descricao_iff : (∃ s, jsonStringValue (jsonObjectGet (J.loads body) "descricao") = some s ∧
      1 ≤ Utf8.charLength s ∧ Utf8.charLength s ≤ 10) ↔
    ∃ members, J.loads body = some (.object members) ∧
      DescricaoBoa (members.lookup "descricao") := by
  constructor
  · rintro ⟨s, hs, hlo, hhi⟩
    obtain ⟨members, hm, hl⟩ := jsonObjectGet_eq_some.mp (jsonStringValue_eq_some.mp hs)
    obtain ⟨hv, _⟩ := J.text hm (by rw [← hm]; exact hs)
    obtain ⟨cs, rfl⟩ := (Utf8.valid_iff s).mp hv
    rw [Utf8.charLength_encode] at hlo hhi
    exact ⟨members, hm, cs, hl, hlo, hhi⟩
  · rintro ⟨members, hm, cs, hl, hlo, hhi⟩
    refine ⟨Utf8.encode cs, ?_, ?_⟩
    · exact jsonStringValue_eq_some.mpr (jsonObjectGet_eq_some.mpr ⟨members, hm, hl⟩)
    · rw [Utf8.charLength_encode]
      exact ⟨hlo, hhi⟩

/-- The test on the three members of the body. -/
def campos (J : Jansson) (body : Bytes) : Option Bool :=
  camposValidos (jsonObjectGet (J.loads body) "descricao") (jsonObjectGet (J.loads body) "tipo")
    (jsonObjectGet (J.loads body) "valor")

theorem campos_accept : campos J body = some true ↔ Aceitavel (J.loads body) := by
  rw [campos, camposValidos_iff, descricao_iff]
  constructor
  · rintro ⟨⟨members, hm, hd⟩, ht, v, hv, hpos⟩
    simp only [hm, jsonObjectGet_object, jsonStringValue_eq_some] at ht hv
    exact ⟨members, hm, hd, ht, v, hv, Int64.lt_iff_toInt_lt.mp hpos⟩
  · rintro ⟨members, hm, hd, ht, v, hv, hpos⟩
    simp only [hm, jsonObjectGet_object, jsonStringValue_eq_some]
    exact ⟨⟨members, rfl, hd⟩, ht, v, hv, Int64.lt_iff_toInt_lt.mpr hpos⟩

theorem camposValidos_crash {jsonDescricao jsonTipo jsonValor : Option Json} :
    camposValidos jsonDescricao jsonTipo jsonValor = none ↔
      (∃ s, jsonStringValue jsonDescricao = some s ∧ 1 ≤ Utf8.charLength s ∧
        Utf8.charLength s ≤ 10) ∧ jsonStringValue jsonTipo = none := by
  rw [← isDescricaoTransacaoValida_iff]
  unfold camposValidos
  split
  · rename_i h
    cases jsonStringValue jsonTipo <;> simp [isTipoTransacaoValido, h]
  · rename_i h
    simp [h]

theorem campos_crash : campos J body = none ↔ TipoNulo (J.loads body) := by
  rw [campos, camposValidos_crash, descricao_iff]
  constructor
  · rintro ⟨⟨members, hm, hd⟩, ht⟩
    refine ⟨members, hm, hd, ?_⟩
    intro s hs
    rw [hm, jsonObjectGet_object, hs] at ht
    cases ht
  · rintro ⟨members, hm, hd, ht⟩
    refine ⟨⟨members, hm, hd⟩, ?_⟩
    rw [Option.eq_none_iff_forall_ne_some]
    intro s hs
    rw [hm, jsonObjectGet_object] at hs
    exact ht s (jsonStringValue_eq_some.mp hs)

/-! ## The verdict -/

theorem saveTransacao_badId (hid : isIdClienteValido (extractUrlParam url) = false) :
    clienteControllerSaveTransacao J url (some body) = .done .unprocessableEntity := by
  simp [clienteControllerSaveTransacao, hid]

theorem saveTransacao_crash (hid : isIdClienteValido (extractUrlParam url) = true)
    (h : campos J body = none) :
    clienteControllerSaveTransacao J url (some body) = .halt := by
  simp only [campos] at h
  simp [clienteControllerSaveTransacao, hid, h]

theorem saveTransacao_refuse (hid : isIdClienteValido (extractUrlParam url) = true)
    (h : campos J body = some false) :
    clienteControllerSaveTransacao J url (some body) = .done .unprocessableEntity := by
  simp only [campos] at h
  simp [clienteControllerSaveTransacao, hid, h]

/-- An accepted request goes on to its client. -/
theorem saveTransacao_accept (hid : isIdClienteValido (extractUrlParam url) = true)
    (h : campos J body = some true) :
    ∃ k, clienteControllerSaveTransacao J url (some body) =
      .query (.cliente (atoi (extractUrlParam url))) k := by
  simp only [campos] at h
  simp only [clienteControllerSaveTransacao, hid, h, Bool.not_true, Bool.false_eq_true, if_false]
  exact ⟨_, rfl⟩

/-- **Validation of the body.** With a valid id in the URL, the handler goes on to the
database with the bodies it should accept and answers 422 to all others, exactly if it
does not come to a `tipo` that is no string. -/
theorem body_validated (hid : isIdClienteValido (extractUrlParam url) = true) :
    ((Aceitavel (J.loads body) → ∃ k, clienteControllerSaveTransacao J url (some body) =
        .query (.cliente (atoi (extractUrlParam url))) k) ∧
      (¬Aceitavel (J.loads body) →
        clienteControllerSaveTransacao J url (some body) = .done .unprocessableEntity)) ↔
      ¬TipoNulo (J.loads body) := by
  rw [← campos_accept, ← campos_crash]
  cases hc : campos J body with
  | none =>
    have crash := saveTransacao_crash hid hc
    simp [crash]
  | some accept =>
    cases accept with
    | false =>
      have refuse := saveTransacao_refuse hid hc
      simp [refuse]
    | true =>
      have accept := saveTransacao_accept hid hc
      simp [accept]

end

theorem body_validated_pix :
    ∃ k, clienteControllerSaveTransacao (.pedido 10 (ascii "c") (ascii "pix") (by decide))
        (ascii "/clientes/1/transacoes") (some (pedidoTexto 10 (ascii "c") (ascii "pix"))) =
      .query (.cliente 1) k := by
  have hid : isIdClienteValido (extractUrlParam (ascii "/clientes/1/transacoes")) = true := by
    decide
  have hj : (Jansson.pedido 10 (ascii "c") (ascii "pix") (by decide)).loads
      (pedidoTexto 10 (ascii "c") (ascii "pix")) =
        some (pedidoJson 10 (ascii "c") (ascii "pix")) := by
    simp [Jansson.pedido]
  have hno : ¬TipoNulo (some (pedidoJson 10 (ascii "c") (ascii "pix"))) := by
    rintro ⟨members, hm, _, ht⟩
    obtain rfl := Json.object.inj (Option.some.inj hm)
    exact ht _ rfl
  have hok : Aceitavel (some (pedidoJson 10 (ascii "c") (ascii "pix"))) :=
    ⟨_, rfl, ⟨"pix".toList, rfl, by decide, by decide⟩, .inl rfl, 10, rfl, by decide⟩
  exact ((body_validated hid).mpr (by rwa [hj])).1 (by rwa [hj])

/-! A parser that knows one text without a `tipo`. -/

def semTipoTexto : Bytes := ascii "\x7b\"valor\":1,\"descricao\":\"pix\"\x7d"

def semTipo : Json := .object [("valor", .integer 1), ("descricao", .string (ascii "pix"))]

def Jansson.semTipo : Jansson where
  loads := fun body => if body = semTipoTexto then some Crinha.semTipo else none
  text := by
    intro body json key s hb hs
    split at hb
    · obtain rfl := Option.some.inj hb
      simp only [Crinha.semTipo, jsonObjectGet, List.lookup_cons, List.lookup_nil] at hs
      split at hs
      · simp [jsonStringValue] at hs
      · split at hs
        · obtain rfl : ascii "pix" = s := by simpa [jsonStringValue] using hs
          decide
        · simp [jsonStringValue] at hs
    · cases hb

/-- A body without `tipo` is not answered 422. -/
theorem body_crash :
    ¬Aceitavel (Jansson.semTipo.loads semTipoTexto) ∧
    clienteControllerSaveTransacao .semTipo (ascii "/clientes/1/transacoes")
      (some semTipoTexto) = .halt := by
  have hj : Jansson.semTipo.loads semTipoTexto = some semTipo := by simp [Jansson.semTipo]
  refine ⟨?_, saveTransacao_crash (by decide) (by decide)⟩
  rw [hj]
  rintro ⟨members, hm, h⟩
  obtain rfl := Json.object.inj (Option.some.inj hm)
  rcases h.tipo with ht | ht <;> cases ht

/-! ## Code points -/

/-- The loop of `string_util_utf8_strlen` on the chars themselves, which are signed: `*str`
is extended to an `int` before the mask. -/
def strlenChars : List Int8 → Nat
  | [] => 0
  | c :: str =>
    if c = 0 then 0
    else if c.toInt32 &&& 0xC0 != 0x80 then strlenChars str + 1 else strlenChars str

/-- The extension of the sign does not reach the bits of the mask. -/
theorem mask_toInt8 (b : UInt8) : (b.toInt8.toInt32 &&& 0xC0 != 0x80) = (b &&& 0xC0 != 0x80) := by
  revert b
  apply forall_byte
  decide +kernel

theorem toInt8_eq_zero {b : UInt8} : b.toInt8 = 0 ↔ b = 0 := by
  revert b
  apply forall_byte
  decide +kernel

/-- The loop counts in the C string at the start of the memory. -/
theorem strlenChars_eq (mem : Bytes) :
    strlenChars (mem.map UInt8.toInt8) = stringUtilUtf8Strlen (cstr mem) := by
  induction mem with
  | nil => rfl
  | cons b mem ih =>
    rw [List.map_cons, strlenChars]
    by_cases hb : b = 0
    · subst hb
      rfl
    · have hc : cstr (b :: mem) = b :: cstr mem := cstr_cons hb mem
      rw [if_neg (mt toInt8_eq_zero.mp hb), mask_toInt8, ih, hc, stringUtilUtf8Strlen]

/-- **Code points.** The number of scalar values of a text without NUL is what is counted,
whatever lies behind the text in memory, what the check of a description goes by, and
what `varchar(10)` allows. -/
theorem code_points {cs : List Char} (h : Char.ofNat 0 ∉ cs) (rest : Bytes) :
    strlenChars ((Utf8.encode cs ++ 0 :: rest).map UInt8.toInt8) = cs.length ∧
    stringUtilUtf8Strlen (Utf8.encode cs) = cs.length ∧
    (isDescricaoTransacaoValida (some (Utf8.encode cs)) = true ↔
      1 ≤ cs.length ∧ cs.length ≤ 10) ∧
    (IsText 10 (Utf8.encode cs) ↔ cs.length ≤ 10) := by
  have hlen : stringUtilUtf8Strlen (Utf8.encode cs) = cs.length := by
    rw [stringUtilUtf8Strlen_eq, Utf8.charLength_encode]
  have hn := val_ne_of_noNul (Utf8.noNul_encode h)
  refine ⟨?_, hlen, ?_, ?_⟩
  · have hc : cstr (Utf8.encode cs ++ 0 :: rest) = Utf8.encode cs := by
      rw [cstr_append _ hn]
      exact (congrArg (Utf8.encode cs ++ ·) (cstr_nul rest)).trans (List.append_nil _)
    rw [strlenChars_eq, hc, hlen]
  · rw [isDescricaoTransacaoValida_iff]
    simp only [Option.some.injEq, exists_eq_left', Utf8.charLength_encode]
  · rw [IsText, Utf8.charLength_encode]
    exact and_iff_right (Utf8.valid_encode cs)

/-- A text of five characters, of one to four bytes each. -/
theorem code_points_five :
    isDescricaoTransacaoValida (some (Utf8.encode "café😀".toList)) = true :=
  (code_points (by decide) []).2.2.1.mpr (by decide)

/-! ## The description -/

/-- **The description kept.** What the copy of a description leaves in the array,
whatever was there, is the description exactly if it has at most twenty bytes. -/
theorem descricao_kept {d : Bytes} (hv : Utf8.valid d = true) (hn : 0 ∉ d) (mem : Bytes) :
    (cstr (strzcpy mem 0 d utf8TransacaoDescricaoLen) = d ∧
      Utf8.valid (cstr (strzcpy mem 0 d utf8TransacaoDescricaoLen)) = true ∧
      stringUtilUtf8Strlen (cstr (strzcpy mem 0 d utf8TransacaoDescricaoLen)) =
        stringUtilUtf8Strlen d) ↔
      d.length ≤ 20 := by
  have hc : cstr d = d := cstr_of_noNul (val_ne_of_noNul hn)
  rw [cstr_strzcpy, hc]
  constructor
  · intro ⟨hk, _⟩
    exact (List.take_eq_self_iff d).mp hk
  · intro hlen
    have hk : d.take utf8TransacaoDescricaoLen = d := List.take_of_length_le hlen
    rw [hk]
    exact ⟨rfl, hv, rfl⟩

theorem descricao_kept_pix :
    cstr (strzcpy (List.replicate 21 255) 0 (ascii "pix") utf8TransacaoDescricaoLen) =
      ascii "pix" :=
  ((descricao_kept (by decide) (by decide) _).mpr (by decide)).1

/-- Seven euro signs are accepted, and kept as text that is not UTF-8. -/
theorem descricao_kept_cut :
    Utf8.valid (List.replicate 7 [0xE2, 0x82, 0xAC]).flatten = true ∧
    isDescricaoTransacaoValida (some (List.replicate 7 [0xE2, 0x82, 0xAC]).flatten) = true ∧
    Utf8.valid (cstr (strzcpy (List.replicate 21 255) 0
      (List.replicate 7 [0xE2, 0x82, 0xAC]).flatten utf8TransacaoDescricaoLen)) = false := by
  decide +kernel

end Crinha
