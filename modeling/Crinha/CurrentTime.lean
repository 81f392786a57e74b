import Crinha.Calendar.Civil
import Crinha.Controller

/-!
# The time of an extrato

* `time_forward`: when the printed times do not run backwards.
-/

namespace Crinha
open CString Decimal Calendar

def maxBufferDateTimeIsoStr : Nat := 64

/-- The fields of `struct tm` that are printed. -/
structure Tm where
  year : Nat
  mon : Nat
  mday : Nat
  hour : Nat
  min : Nat
  sec : Nat
  year_lt : year < 10 ^ 10
  mon_lt : mon < 12
  mday_lt : mday < 32
  hour_lt : hour < 24
  min_lt : min < 60
  sec_lt : sec < 61

/-- The format `%FT%T`. -/
def strftime (tm : Tm) : Bytes :=
  [showNat tm.year, ascii "-", pad 2 (tm.mon + 1), ascii "-", pad 2 tm.mday, ascii "T",
    pad 2 tm.hour, ascii ":", pad 2 tm.min, ascii ":", pad 2 tm.sec].flatten

/-- `time` reads the clock at the instant `t`, and `gettimeofday` at the instant `tval`. -/
def getCurrentTimeAsIsoStr (localtime : Nat → Tm) (t tval : Nat) : Bytes :=
  let tm := localtime (t / 1000000)
  let tvUsec := tval % 1000000
  [strftime tm, ascii ".", pad 6 tvUsec, ascii "Z"].flatten

/-! ## The text -/

/-- A digit or one of `- . : T Z`. -/
def isHora (b : UInt8) : Bool := isDigit b || [45, 46, 58, 84, 90].contains b

theorem isHora_of_isDigit {b : UInt8} (h : isDigit b = true) : isHora b = true := by
  rw [isHora, h, Bool.true_or]

theorem lt_of_isHora : ∀ b, isHora b = true → b.toNat < 0x80 := by
  apply forall_byte
  decide +kernel

theorem isHora_ascii {s : String} (h : (ascii s).all isHora = true) :
    ∀ b ∈ ascii s, isHora b = true := List.all_eq_true.mp h

section
variable {localtime : Nat → Tm} {t tval : Nat}

theorem isHora_strftime (tm : Tm) : ∀ b ∈ strftime tm, isHora b = true := by
  have hyear : ∀ b ∈ showNat tm.year, isHora b = true := fun _ h =>
    isHora_of_isDigit (isDigit_of_mem_showNat h)
  have hpad (n : Nat) : ∀ b ∈ pad 2 n, isHora b = true := fun _ h =>
    isHora_of_isDigit (isDigit_of_mem_pad h)
  have hdash : ∀ b ∈ ascii "-", isHora b = true := isHora_ascii rfl
  have ht : ∀ b ∈ ascii "T", isHora b = true := isHora_ascii rfl
  have hcolon : ∀ b ∈ ascii ":", isHora b = true := isHora_ascii rfl
  simp only [strftime, List.forall_mem_flatten, List.forall_mem_cons]
  exact ⟨hyear, hdash, hpad _, hdash, hpad _, ht, hpad _, hcolon, hpad _, hcolon, hpad _,
    fun _ h => absurd h List.not_mem_nil⟩

theorem isHora_getCurrentTime : ∀ b ∈ getCurrentTimeAsIsoStr localtime t tval, isHora b = true := by
  have husec : ∀ b ∈ pad 6 (tval % 1000000), isHora b = true := fun _ h =>
    isHora_of_isDigit (isDigit_of_mem_pad h)
  have hdot : ∀ b ∈ ascii ".", isHora b = true := isHora_ascii rfl
  have hz : ∀ b ∈ ascii "Z", isHora b = true := isHora_ascii rfl
  simp only [getCurrentTimeAsIsoStr, List.forall_mem_flatten, List.forall_mem_cons]
  exact ⟨isHora_strftime _, hdot, husec, hz, fun _ h => absurd h List.not_mem_nil⟩

theorem length_strftime (tm : Tm) : (strftime tm).length ≤ 25 := by
  have hyear := length_showNat_le (by decide) tm.year_lt
  have two {n : Nat} (h : n < 10 ^ 2) : (pad 2 n).length = 2 := length_pad (by decide) h
  have hmon := two (n := tm.mon + 1) (by have := tm.mon_lt; omega)
  have hmday := two (n := tm.mday) (by have := tm.mday_lt; omega)
  have hhour := two (n := tm.hour) (by have := tm.hour_lt; omega)
  have hmin := two (n := tm.min) (by have := tm.min_lt; omega)
  have hsec := two (n := tm.sec) (by have := tm.sec_lt; omega)
  have hsep : (ascii "-").length = 1 ∧ (ascii "T").length = 1 ∧ (ascii ":").length = 1 := by
    decide
  simp only [strftime, List.length_flatten, List.map_cons, List.map_nil, List.sum_cons,
    List.sum_nil]
  omega

/-- The text and its NUL fit the array. -/
theorem length_getCurrentTime :
    (getCurrentTimeAsIsoStr localtime t tval).length < maxBufferDateTimeIsoStr := by
  have hdate := length_strftime (localtime (t / 1000000))
  have husec : (pad 6 (tval % 1000000)).length = 6 :=
    length_pad (by decide) (Nat.mod_lt _ (by decide))
  have hsep : (ascii ".").length = 1 ∧ (ascii "Z").length = 1 := by decide
  simp only [getCurrentTimeAsIsoStr, List.length_flatten, List.map_cons, List.map_nil,
    List.sum_cons, List.sum_nil, maxBufferDateTimeIsoStr]
  omega

end

/-- The first second of March 2024. -/
def Tm.marco : Tm :=
  ⟨2024, 2, 1, 0, 0, 0, by decide, by decide, by decide, by decide, by decide, by decide⟩

/-! ## The instant that a text shows -/

/-- The digits before each of the separators. -/
def fields : Bytes → Bytes → Option (List Bytes)
  | [], [] => some []
  | [], _ :: _ => none
  | sep :: seps, text =>
    match text.dropWhile isDigit with
    | b :: rest =>
      if b = sep then (fields seps rest).map (text.takeWhile isDigit :: ·) else none
    | [] => none

/-- The instant that a text of the form `YYYY-MM-DDTHH:MM:SS.uuuuuuZ` shows. -/
def instante? (text : Bytes) : Option Nat :=
  match fields (ascii "--T::.Z") text with
  | some [year, mon, mday, hour, min, sec, usec] =>
    if usec.length = 6 then
      some ((((dayNumber 1970 ⟨value year, value mon - 1, value mday - 1⟩ * 24 + value hour) * 60 +
        value min) * 60 + value sec) * 1000000 + value usec)
    else none
  | _ => none

theorem fields_cons {digits : Bytes} (h : ∀ b ∈ digits, isDigit b = true) {sep : UInt8}
    (hsep : isDigit sep = false) (seps rest : Bytes) :
    fields (sep :: seps) (digits ++ sep :: rest) = (fields seps rest).map (digits :: ·) := by
  rw [fields, List.takeWhile_append_of_pos h, List.dropWhile_append_of_pos h]
  simp [hsep]

/-- The seconds from 1970 on to a date and time of UTC. -/
def Tm.segundos (tm : Tm) : Nat :=
  ((dayNumber 1970 ⟨tm.year, tm.mon, tm.mday - 1⟩ * 24 + tm.hour) * 60 + tm.min) * 60 + tm.sec

theorem instante_getCurrentTime (localtime : Nat → Tm) (t tval : Nat) :
    instante? (getCurrentTimeAsIsoStr localtime t tval) =
      some ((localtime (t / 1000000)).segundos * 1000000 + tval % 1000000) := by
  have hpad (width n : Nat) : ∀ b ∈ pad width n, isDigit b = true := fun _ => isDigit_of_mem_pad
  have hyear (n : Nat) : ∀ b ∈ showNat n, isDigit b = true := fun _ => isDigit_of_mem_showNat
  have hfields (tm : Tm) (usec : Nat) : fields (ascii "--T::.Z")
      ([strftime tm, ascii ".", pad 6 usec, ascii "Z"].flatten) =
      some [showNat tm.year, pad 2 (tm.mon + 1), pad 2 tm.mday, pad 2 tm.hour, pad 2 tm.min,
        pad 2 tm.sec, pad 6 usec] := by
    have htext : [strftime tm, ascii ".", pad 6 usec, ascii "Z"].flatten =
        showNat tm.year ++ 45 :: (pad 2 (tm.mon + 1) ++ 45 :: (pad 2 tm.mday ++ 84 ::
          (pad 2 tm.hour ++ 58 :: (pad 2 tm.min ++ 58 :: (pad 2 tm.sec ++ 46 ::
            (pad 6 usec ++ 90 :: [])))))) := by
      simp [strftime, ascii]
    have hseps : ascii "--T::.Z" = [45, 45, 84, 58, 58, 46, 90] := by decide
    rw [htext, hseps, fields_cons (hyear _) (by decide), fields_cons (hpad _ _) (by decide),
      fields_cons (hpad _ _) (by decide), fields_cons (hpad _ _) (by decide),
      fields_cons (hpad _ _) (by decide), fields_cons (hpad _ _) (by decide),
      fields_cons (hpad _ _) (by decide)]
    rfl
  have husec : (pad 6 (tval % 1000000)).length = 6 :=
    length_pad (by decide) (Nat.mod_lt _ (by decide))
  rw [instante?, getCurrentTimeAsIsoStr, hfields]
  simp only [if_pos husec, value_showNat, value_pad, Nat.add_sub_cancel, Tm.segundos]

/-- `localtime` where there are no time zones: the image has no files but the program. It
has no result for the years that `tm_year` cannot count. -/
def utc (s : Nat) : Tm :=
  if h : (civil 1970 (s / 86400)).year < 10 ^ 10 then
    { year := (civil 1970 (s / 86400)).year
      mon := (civil 1970 (s / 86400)).month
      mday := (civil 1970 (s / 86400)).day + 1
      hour := s / 3600 % 24
      min := s / 60 % 60
      sec := s % 60
      year_lt := h
      mon_lt := civil_month_lt _ _
      mday_lt := Nat.succ_lt_succ (civil_day_lt _ _)
      hour_lt := Nat.mod_lt _ (by decide)
      min_lt := Nat.mod_lt _ (by decide)
      sec_lt := Nat.lt_succ_of_lt (Nat.mod_lt _ (by decide)) }
  else .marco

theorem segundos_utc {s : Nat} (h : s < 2 ^ 55) : (utc s).segundos = s := by
  have hle := civil_year_le 1970 (s / 86400)
  have hyear : (civil 1970 (s / 86400)).year < 10 ^ 10 := by omega
  have hday := dayNumber_civil 1970 (s / 86400)
  rw [utc, dif_pos hyear, Tm.segundos]
  simp only [Nat.add_sub_cancel, hday]
  omega

/-! ## Readings of the clock -/

/-- The instants at which one call reads the clock, which `localtime` can represent. -/
structure Leituras where
  time : Nat
  gettimeofday : Nat
  time_le : time ≤ gettimeofday
  gettimeofday_lt : gettimeofday < 2 ^ 55 * 1000000

namespace Leituras

def texto (l : Leituras) : Bytes := getCurrentTimeAsIsoStr utc l.time l.gettimeofday

/-- The instant that the `data_extrato` of an extrato shows. -/
def dataExtrato? (l : Leituras) (cliente : Cliente) : Option Nat :=
  (jsonStringValue (jsonObjectGet (buildJsonSaldoData l.texto cliente) "data_extrato")).bind
    instante?

/-- The seconds of the first reading and the microseconds of the second. -/
def escrito (l : Leituras) : Nat := l.time / 1000000 * 1000000 + l.gettimeofday % 1000000

variable {l l' : Leituras}

/-- The text shows the instant composed of the two. -/
theorem dataExtrato_eq (l : Leituras) (cliente : Cliente) :
    l.dataExtrato? cliente = some l.escrito := by
  have hascii : ∀ b ∈ l.texto, b.toNat < 0x80 := fun b hb =>
    lt_of_isHora b (isHora_getCurrentTime b hb)
  have hpack : buildJsonSaldoData l.texto cliente = some (.object
      [("total", packInt cliente.saldo), ("data_extrato", .string l.texto),
        ("limite", packInt cliente.limite)]) := by
    rw [buildJsonSaldoData, packStr, if_pos (Utf8.valid_ascii hascii)]
    rfl
  have hdata : jsonStringValue (jsonObjectGet (buildJsonSaldoData l.texto cliente)
      "data_extrato") = some l.texto := by
    rw [hpack]
    rfl
  have hlt := l.gettimeofday_lt
  have hle := l.time_le
  rw [dataExtrato?, hdata, Option.bind_some, texto, instante_getCurrentTime,
    segundos_utc (by omega), escrito]

theorem escrito_le (l : Leituras) : l.escrito ≤ l.gettimeofday := by
  have h := l.time_le
  unfold escrito
  omega

theorem le_escrito_iff :
    l.time ≤ l.escrito ↔ l.time % 1000000 ≤ l.gettimeofday % 1000000 := by
  unfold escrito
  omega

theorem escrito_mono (later : l.gettimeofday ≤ l'.time) (h : l'.time ≤ l'.escrito) :
    l.escrito ≤ l'.escrito := by
  calc l.escrito ≤ l.gettimeofday := l.escrito_le
    _ ≤ l'.time := later
    _ ≤ l'.escrito := h

end Leituras

/-- **The time of an extrato.** The instant that `data_extrato` shows lies between the two
readings, and is no earlier than that of an extrato before, for all extratos of a run
exactly if for none the microseconds of the second reading are below those of the first. -/
theorem time_forward {run : List (Leituras × Cliente)}
    (h : run.Pairwise fun e e' => e.1.gettimeofday ≤ e'.1.time) :
    ((∀ e ∈ run, ∃ x, e.1.dataExtrato? e.2 = some x ∧ e.1.time ≤ x ∧ x ≤ e.1.gettimeofday) ∧
      run.Pairwise fun e e' => ∃ x x', e.1.dataExtrato? e.2 = some x ∧
        e'.1.dataExtrato? e'.2 = some x' ∧ x ≤ x') ↔
      ∀ e ∈ run, e.1.time % 1000000 ≤ e.1.gettimeofday % 1000000 := by
  simp only [Leituras.dataExtrato_eq, Option.some.injEq, exists_and_left, exists_eq_left']
  constructor
  · intro ⟨hbetween, _⟩ e he
    exact Leituras.le_escrito_iff.mp (hbetween e he).1
  · intro hmicro
    have hle : ∀ e ∈ run, e.1.time ≤ e.1.escrito := fun e he =>
      Leituras.le_escrito_iff.mpr (hmicro e he)
    refine ⟨fun e he => ⟨hle e he, e.1.escrito_le⟩, ?_⟩
    apply h.imp_of_mem
    intro e e' _ he' later
    exact Leituras.escrito_mono later (hle e' he')

/-- Three extratos: the second is not within one second of the clock. -/
theorem time_forward_three :
    [((⟨12900000, 12900004, by decide, by decide⟩, ⟨1, 100000, 0⟩) : Leituras × Cliente),
      (⟨12950000, 13960000, by decide, by decide⟩, ⟨1, 100000, 10⟩),
      (⟨13960000, 13960000, by decide, by decide⟩, ⟨1, 100000, 10⟩)].Pairwise fun e e' =>
        ∃ x x', e.1.dataExtrato? e.2 = some x ∧ e'.1.dataExtrato? e'.2 = some x' ∧ x ≤ x' :=
  ((time_forward (by decide)).mpr (by decide)).2

/-- The first extrato reads the clock at 12.9 seconds, and the second at 12.95 and at
13.05: it shows 12.05. -/
theorem time_backward :
    let first : Leituras := ⟨12900000, 12900000, by decide, by decide⟩
    let second : Leituras := ⟨12950000, 13050000, by decide, by decide⟩
    first.gettimeofday ≤ second.time ∧
    first.dataExtrato? ⟨1, 100000, 0⟩ = some 12900000 ∧
    second.dataExtrato? ⟨1, 100000, 0⟩ = some 12050000 :=
  ⟨by decide, Leituras.dataExtrato_eq _ _, Leituras.dataExtrato_eq _ _⟩

end Crinha
