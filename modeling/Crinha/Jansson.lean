import Crinha.Entity
import Crinha.Bytes.Decimal

/-!
# JSON values

The part of jansson the handlers use. `json_loads` is a parameter; what it
returns for a text is a value whose strings are UTF-8 without NUL.
-/

namespace Crinha
open CString Decimal

inductive Json where
  | null
  | bool (b : Bool)
  | integer (v : Int64)
  | real
  | string (s : Bytes)
  | array (l : List Json)
  | object (members : List (String × Json))

/-! The accessors take `NULL` too. -/

def jsonObjectGet : Option Json → String → Option Json
  | some (.object members), key => members.lookup key
  | _, _ => none

def jsonStringValue : Option Json → Option Bytes
  | some (.string s) => some s
  | _ => none

def jsonIsInteger : Option Json → Bool
  | some (.integer _) => true
  | _ => false

def jsonIntegerValue : Option Json → Int64
  | some (.integer v) => v
  | _ => 0

/-- Format `i` of `json_pack`: the argument is consumed as a 32-bit `int`. -/
def packInt (v : Int64) : Json := .integer v.toInt32.toInt64

/-- Format `s?` of `json_pack`: text that is not UTF-8 makes the packing fail. -/
def packStr (s : Bytes) : Option Json := if Utf8.valid s then some (.string s) else none

structure Jansson where
  loads : Bytes → Option Json
  text : ∀ {body json key s}, loads body = some json →
    jsonStringValue (jsonObjectGet (some json) key) = some s → Utf8.valid s = true ∧ 0 ∉ s

/-! A parser that knows one text, with the value jansson gives for it. -/

def pedidoTexto (valor : Int64) (tipo descricao : Bytes) : Bytes :=
  ascii "\x7b\"valor\":" ++ showInt valor.toInt ++ ascii ",\"tipo\":\"" ++ tipo ++
    ascii "\",\"descricao\":\"" ++ descricao ++ ascii "\"\x7d"

def pedidoJson (valor : Int64) (tipo descricao : Bytes) : Json :=
  .object [("valor", .integer valor), ("tipo", .string tipo), ("descricao", .string descricao)]

def Jansson.pedido (valor : Int64) (tipo descricao : Bytes)
    (h : ∀ s ∈ [tipo, descricao], Utf8.valid s = true ∧ 0 ∉ s) : Jansson where
  loads := fun body =>
    if body = pedidoTexto valor tipo descricao then some (pedidoJson valor tipo descricao) else none
  text := by
    intro body json key s hb hs
    split at hb
    · obtain rfl := Option.some.inj hb
      simp only [pedidoJson, jsonObjectGet, List.lookup_cons, List.lookup_nil] at hs
      split at hs
      · simp [jsonStringValue] at hs
      · split at hs
        · obtain rfl : tipo = s := by simpa [jsonStringValue] using hs
          exact h _ (by simp)
        · split at hs
          · obtain rfl : descricao = s := by simpa [jsonStringValue] using hs
            exact h _ (by simp)
          · simp [jsonStringValue] at hs
    · cases hb

/-- It knows the texts of both. -/
def Jansson.ou (J J' : Jansson) : Jansson where
  loads := fun body => (J.loads body).or (J'.loads body)
  text := by
    intro body json key s hb hs
    rcases Option.or_eq_some_iff.mp hb with hb | ⟨_, hb⟩
    · exact J.text hb hs
    · exact J'.text hb hs

end Crinha
