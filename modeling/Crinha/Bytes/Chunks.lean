import Crinha.Bytes.CString

/-!
# Texts that arrive in chunks

* `uniform_iff`: when all ways of cutting a text come to the same.
-/

namespace CString

section
variable {β : Type} [Octet β] {limit : Nat}

def appendChunk (limit : Nat) (s chunk : List β) : Option (List β) :=
  if chunk.length + s.length ≤ limit then some (s ++ cstr chunk) else none

def appendChunks (limit : Nat) (s : List β) (chunks : List (List β)) : Option (List β) :=
  chunks.foldlM (appendChunk limit) s

/-- The least length of the string so far, and how many of the next octets need not be
appended, since they can be put behind a NUL in the same chunk. -/
structure Scan where
  length : Nat
  hidden : Nat

/-- A NUL that fits starts a chunk of its own; an octet that cannot be hidden is appended. -/
def scanOctet (limit : Nat) (scan : Scan) (b : β) : Option Scan :=
  if Octet.val b = 0 then
    if scan.length < limit then some ⟨scan.length, limit - scan.length - 1⟩ else none
  else if 0 < scan.hidden then some ⟨scan.length, scan.hidden - 1⟩
  else if scan.length < limit then some ⟨scan.length + 1, 0⟩
  else none

def scanText (limit : Nat) (scan : Scan) (p : List β) : Option Scan :=
  p.foldlM (scanOctet limit) scan

/-- No octet but NUL follows the first NUL. -/
def Quiet (p : List β) : Prop :=
  ∀ a b, ∀ z x : β, p = a ++ z :: b → Octet.val z = 0 → x ∈ b → Octet.val x = 0

theorem cstr_cons_nul {z : β} (h : Octet.val z = 0) (p : List β) : cstr (z :: p) = [] := by
  simp [cstr, h]

/-- What follows a NUL is not part of the string. -/
theorem cstr_append_nul {z : β} (h : Octet.val z = 0) (a b : List β) :
    cstr (a ++ z :: b) = cstr a := by
  induction a with
  | nil => exact cstr_cons_nul h b
  | cons c a ih =>
    by_cases hc : Octet.val c = 0
    · rw [List.cons_append, cstr_cons_nul hc, cstr_cons_nul hc]
    · rw [List.cons_append, cstr_cons hc, cstr_cons hc, ih]

theorem appendChunk_eq {s chunk : List β} (h : chunk.length + s.length ≤ limit) :
    appendChunk limit s chunk = some (s ++ cstr chunk) := if_pos h

theorem appendChunk_some {s s' chunk : List β} (h : appendChunk limit s chunk = some s') :
    chunk.length + s.length ≤ limit ∧ s' = s ++ cstr chunk := by
  unfold appendChunk at h
  split at h
  · exact ⟨‹_›, (Option.some.inj h).symm⟩
  · cases h

@[simp] theorem appendChunks_nil (s : List β) : appendChunks limit s [] = some s := rfl

theorem appendChunks_cons (s chunk : List β) (chunks : List (List β)) :
    appendChunks limit s (chunk :: chunks) =
      (appendChunk limit s chunk).bind fun s => appendChunks limit s chunks := by
  rw [appendChunks, List.foldlM_cons]
  rfl

/-! ## The scan of a text that is accepted -/

/-- Octets that can all be hidden. -/
theorem scan_hide {p : List β} {length hidden : Nat} (hhidden : p.length ≤ hidden)
    (hlength : length + p.length ≤ limit) :
    ∃ hidden', scanText limit ⟨length, hidden⟩ p = some ⟨length, hidden'⟩ := by
  induction p generalizing hidden with
  | nil => exact ⟨hidden, rfl⟩
  | cons b p ih =>
    rw [List.length_cons] at hhidden hlength
    rw [scanText, List.foldlM_cons, scanOctet]
    dsimp only
    by_cases hb : Octet.val b = 0
    · rw [if_pos hb, if_pos (by omega)]
      exact ih (by omega) (by omega)
    · rw [if_neg hb, if_pos (by omega)]
      exact ih (by omega) (by omega)

/-- A chunk that fits behind a string of `length` octets. -/
theorem scan_chunk {chunk : List β} {scan : Scan} {length : Nat} (hle : scan.length ≤ length)
    (hfit : length + chunk.length ≤ limit) :
    ∃ scan', scanText limit scan chunk = some scan' ∧
      scan'.length ≤ length + (cstr chunk).length := by
  induction chunk generalizing scan length with
  | nil => exact ⟨scan, rfl, Nat.le_add_right_of_le hle⟩
  | cons b chunk ih =>
    rw [List.length_cons] at hfit
    rw [scanText, List.foldlM_cons, scanOctet]
    by_cases hb : Octet.val b = 0
    · rw [if_pos hb, if_pos (by omega), cstr_cons_nul hb]
      have hhide : chunk.length ≤ limit - scan.length - 1 := by omega
      have hlength : scan.length + chunk.length ≤ limit := by omega
      obtain ⟨hidden', hrest⟩ := scan_hide hhide hlength
      exact ⟨_, hrest, hle⟩
    · rw [if_neg hb, cstr_cons hb, List.length_cons]
      have hnext : ∀ next : Scan, next.length ≤ length + 1 →
          ∃ scan', scanText limit next chunk = some scan' ∧
            scan'.length ≤ length + ((cstr chunk).length + 1) := by
        intro next hn
        obtain ⟨scan', hscan, hlen⟩ := ih hn (by omega)
        exact ⟨scan', hscan, by omega⟩
      by_cases hhidden : 0 < scan.hidden
      · rw [if_pos hhidden]
        exact hnext ⟨scan.length, scan.hidden - 1⟩ (Nat.le_succ_of_le hle)
      · rw [if_neg hhidden, if_pos (by omega)]
        exact hnext ⟨scan.length + 1, 0⟩ (Nat.succ_le_succ hle)

/-- If one way of cutting is accepted, the scan goes through. -/
theorem scanText_of_appendChunks {chunks : List (List β)} {s s' : List β} {scan : Scan}
    (hle : scan.length ≤ s.length) (h : appendChunks limit s chunks = some s') :
    ∃ scan', scanText limit scan chunks.flatten = some scan' := by
  induction chunks generalizing s scan with
  | nil => exact ⟨scan, rfl⟩
  | cons chunk chunks ih =>
    rw [appendChunks_cons, Option.bind_eq_some_iff] at h
    obtain ⟨s₁, hchunk, hrest⟩ := h
    obtain ⟨hfit, rfl⟩ := appendChunk_some hchunk
    rw [Nat.add_comm] at hfit
    obtain ⟨scan₁, hscan, hlen⟩ := scan_chunk hle hfit
    rw [← List.length_append] at hlen
    obtain ⟨scan', hscan'⟩ := ih hlen hrest
    refine ⟨scan', ?_⟩
    rw [scanText] at hscan hscan' ⊢
    rw [List.flatten_cons, List.foldlM_append, hscan]
    exact hscan'

/-! ## A way of cutting, from the scan -/

/-- The chunk that is still open: nothing, or a NUL and what is hidden behind it. -/
def Open (chunk : List β) (hidden : Nat) : Prop :=
  chunk = [] ∧ hidden = 0 ∨ ∃ z rest, Octet.val z = 0 ∧ chunk = z :: rest

theorem Open.cstr_eq {chunk : List β} {hidden : Nat} (h : Open chunk hidden) :
    cstr chunk = [] := by
  rcases h with ⟨rfl, _⟩ | ⟨z, rest, hz, rfl⟩
  · rfl
  · exact cstr_cons_nul hz rest

/-- Delivered, the open chunk appends nothing. -/
theorem Open.deliver {s chunk : List β} {hidden : Nat} (h : Open chunk hidden)
    (hfit : s.length + chunk.length + hidden ≤ limit) : appendChunk limit s chunk = some s := by
  rw [appendChunk_eq (by omega), h.cstr_eq, List.append_nil]

/-- If the scan goes through, some way of cutting is accepted. -/
theorem exists_chunks_of_scan {p s chunk : List β} {hidden : Nat} {scan' : Scan}
    (hopen : Open chunk hidden) (hfit : s.length + chunk.length + hidden ≤ limit)
    (h : scanText limit ⟨s.length, hidden⟩ p = some scan') :
    ∃ chunks, chunks.flatten = chunk ++ p ∧ ∃ s', appendChunks limit s chunks = some s' := by
  induction p generalizing s chunk hidden with
  | nil =>
    refine ⟨[chunk], by simp, s, ?_⟩
    rw [appendChunks_cons, hopen.deliver hfit]
    rfl
  | cons b p ih =>
    rw [scanText, List.foldlM_cons, scanOctet] at h
    dsimp only at h
    by_cases hb : Octet.val b = 0
    · rw [if_pos hb] at h
      by_cases hlt : s.length < limit
      · rw [if_pos hlt] at h
        have hopen' : Open [b] (limit - s.length - 1) := .inr ⟨b, [], hb, rfl⟩
        have hfit' : s.length + [b].length + (limit - s.length - 1) ≤ limit := by
          rw [List.length_singleton]
          omega
        obtain ⟨chunks, hflat, s', hrun⟩ := ih hopen' hfit' h
        refine ⟨chunk :: chunks, by rw [List.flatten_cons, hflat]; rfl, s', ?_⟩
        rw [appendChunks_cons, hopen.deliver hfit]
        exact hrun
      · rw [if_neg hlt] at h
        cases h
    · rw [if_neg hb] at h
      by_cases hhidden : 0 < hidden
      · rw [if_pos hhidden] at h
        obtain ⟨z, rest, hz, rfl⟩ : ∃ z rest, Octet.val z = 0 ∧ chunk = z :: rest := by
          rcases hopen with ⟨_, hzero⟩ | hopen
          · omega
          · exact hopen
        have hopen' : Open (z :: (rest ++ [b])) (hidden - 1) := .inr ⟨z, rest ++ [b], hz, rfl⟩
        have hfit' : s.length + (z :: (rest ++ [b])).length + (hidden - 1) ≤ limit := by
          rw [List.length_cons, List.length_append, List.length_singleton]
          rw [List.length_cons] at hfit
          omega
        obtain ⟨chunks, hflat, hrun⟩ := ih hopen' hfit' h
        exact ⟨chunks, by simp [hflat], hrun⟩
      · rw [if_neg hhidden] at h
        by_cases hlt : s.length < limit
        · rw [if_pos hlt] at h
          have hlen : (s ++ [b]).length = s.length + 1 := by
            rw [List.length_append, List.length_singleton]
          have hopen' : Open ([] : List β) 0 := .inl ⟨rfl, rfl⟩
          have hfit' : (s ++ [b]).length + ([] : List β).length + 0 ≤ limit := by
            rw [hlen, List.length_nil]
            omega
          have hoctet : appendChunk limit s [b] = some (s ++ [b]) := by
            rw [appendChunk_eq (by rw [List.length_singleton]; omega), cstr_cons hb]
            rfl
          obtain ⟨chunks, hflat, s', hrun⟩ := ih hopen' hfit' (by rw [hlen]; exact h)
          refine ⟨chunk :: [b] :: chunks, by simp [hflat], s', ?_⟩
          rw [appendChunks_cons, hopen.deliver hfit, Option.bind_some, appendChunks_cons, hoctet]
          exact hrun
        · rw [if_neg hlt] at h
          cases h

/-! ## All ways of cutting -/

theorem Quiet.right {a b : List β} (h : Quiet (a ++ b)) : Quiet b := by
  intro c d z x he hz hx
  exact h (a ++ c) d z x (by rw [he, List.append_assoc]) hz hx

theorem quiet_of_noNul {p : List β} (h : ∀ b ∈ p, Octet.val b ≠ 0) : Quiet p := by
  intro a b z x he hz _
  exact absurd hz (h z (by rw [he]; exact List.mem_append_right _ List.mem_cons_self))

/-- The string of a quiet text is that of its first part and that of the rest. -/
theorem cstr_append_quiet {a b : List β} (h : Quiet (a ++ b)) :
    cstr (a ++ b) = cstr a ++ cstr b := by
  by_cases hnul : ∃ z ∈ a, Octet.val z = 0
  · obtain ⟨z, hm, hz⟩ := hnul
    obtain ⟨u, v, rfl⟩ := List.append_of_mem hm
    have hb : cstr b = [] := by
      cases b with
      | nil => rfl
      | cons c b =>
        apply cstr_cons_nul
        exact h u (v ++ c :: b) z c (by simp) hz (List.mem_append_right _ List.mem_cons_self)
    rw [List.append_assoc, List.cons_append, cstr_append_nul hz, cstr_append_nul hz, hb,
      List.append_nil]
  · have hn : ∀ c ∈ a, Octet.val c ≠ 0 := fun c hc hz => hnul ⟨c, hc, hz⟩
    rw [cstr_append b hn, cstr_of_noNul hn]

/-- A quiet text that fits is accepted however it is cut, and its string is appended. -/
theorem appendChunks_quiet {chunks : List (List β)} {s : List β} (hq : Quiet chunks.flatten)
    (hfit : s.length + chunks.flatten.length ≤ limit) :
    appendChunks limit s chunks = some (s ++ cstr chunks.flatten) := by
  induction chunks generalizing s with
  | nil => rw [List.flatten_nil, cstr, List.takeWhile_nil, List.append_nil, appendChunks_nil]
  | cons chunk chunks ih =>
    rw [List.flatten_cons] at hq hfit ⊢
    rw [List.length_append] at hfit
    have hlen := length_cstr_le chunk
    have hrest : (s ++ cstr chunk).length + chunks.flatten.length ≤ limit := by
      rw [List.length_append]
      omega
    rw [appendChunks_cons, appendChunk_eq (by omega), Option.bind_some, ih hq.right hrest,
      cstr_append_quiet hq, List.append_assoc]

/-- A text without NUL that is too long has no way through the scan. -/
theorem scan_noNul {p : List β} {length : Nat} (h : ∀ b ∈ p, Octet.val b ≠ 0)
    (hle : length ≤ limit) (hlong : limit < length + p.length) :
    scanText limit ⟨length, 0⟩ p = none := by
  induction p generalizing length with
  | nil => exact absurd hlong (Nat.not_lt.mpr hle)
  | cons b p ih =>
    rw [List.length_cons] at hlong
    rw [scanText, List.foldlM_cons, scanOctet]
    dsimp only
    rw [if_neg (h b List.mem_cons_self), if_neg (Nat.lt_irrefl 0)]
    by_cases hlt : length < limit
    · rw [if_pos hlt]
      exact ih (fun c hc => h c (List.mem_cons_of_mem _ hc)) hlt (by omega)
    · rw [if_neg hlt]
      rfl

/-- Any two ways of cutting a text are both refused, or both leave the string of the text. -/
def Uniform (limit : Nat) (p : List β) : Prop :=
  ∀ chunks chunks' : List (List β), chunks.flatten = p → chunks'.flatten = p →
    appendChunks limit [] chunks = none ∧ appendChunks limit [] chunks' = none ∨
    appendChunks limit [] chunks = some (cstr p) ∧ appendChunks limit [] chunks' = some (cstr p)

/-- If the scan goes through, the text is accepted in one chunk too. -/
theorem Uniform.whole {p : List β} (hu : Uniform limit p) {scan : Scan}
    (hscan : scanText limit ⟨0, 0⟩ p = some scan) :
    appendChunks limit [] [p] = some (cstr p) := by
  have hopen : Open ([] : List β) 0 := .inl ⟨rfl, rfl⟩
  have hnil : scanText limit ⟨([] : List β).length, 0⟩ p = some scan := hscan
  obtain ⟨chunks, hflat, s', hrun⟩ := exists_chunks_of_scan hopen (Nat.zero_le _) hnil
  rcases hu chunks [p] hflat (by simp) with ⟨hnone, _⟩ | ⟨_, hsome⟩
  · rw [hrun] at hnone
    cases hnone
  · exact hsome

/-- A byte that is not NUL behind a NUL: cut in front of it, the text leaves more than its
string. -/
theorem Uniform.quiet {p : List β} (hu : Uniform limit p)
    (hwhole : appendChunks limit [] [p] = some (cstr p)) : Quiet p := by
  intro a b z x hp hz hx
  apply Decidable.byContradiction
  intro hne
  obtain ⟨u, v, rfl⟩ := List.append_of_mem hx
  have hcut : appendChunks limit [] [a ++ z :: u, x :: v] = some (cstr p) := by
    rcases hu [a ++ z :: u, x :: v] [p] (by simp [hp]) (by simp) with ⟨_, hnone⟩ | ⟨hsome, _⟩
    · rw [hwhole] at hnone
      cases hnone
    · exact hsome
  rw [appendChunks_cons, Option.bind_eq_some_iff] at hcut
  obtain ⟨s₁, hfirst, hcut⟩ := hcut
  rw [appendChunks_cons, Option.bind_eq_some_iff] at hcut
  obtain ⟨s₂, hsecond, hcut⟩ := hcut
  obtain ⟨_, rfl⟩ := appendChunk_some hfirst
  obtain ⟨_, rfl⟩ := appendChunk_some hsecond
  have hlen := congrArg List.length (Option.some.inj hcut)
  rw [hp, cstr_append_nul hz, cstr_append_nul hz, cstr_cons hne, List.length_append,
    List.length_cons, List.nil_append] at hlen
  omega

theorem uniform_of_quiet {p : List β} (hfit : p.length ≤ limit) (hq : Quiet p) :
    Uniform limit p := by
  have hall (chunks : List (List β)) (hflat : chunks.flatten = p) :
      appendChunks limit [] chunks = some (cstr p) := by
    rw [← hflat] at hq hfit
    have hlen : ([] : List β).length + chunks.flatten.length ≤ limit := by
      rw [List.length_nil, Nat.zero_add]
      exact hfit
    rw [appendChunks_quiet hq hlen, hflat, List.nil_append]
  intro chunks chunks' hflat hflat'
  exact .inr ⟨hall chunks hflat, hall chunks' hflat'⟩

theorem uniform_of_scan {p : List β} (hscan : scanText limit ⟨0, 0⟩ p = none) :
    Uniform limit p := by
  have hall (chunks : List (List β)) (hflat : chunks.flatten = p) :
      appendChunks limit [] chunks = none := by
    cases hrun : appendChunks limit [] chunks with
    | none => rfl
    | some s' =>
      have hzero : (Scan.mk 0 0).length ≤ ([] : List β).length := Nat.le_refl _
      obtain ⟨scan, hsome⟩ := scanText_of_appendChunks hzero hrun
      rw [hflat, hscan] at hsome
      cases hsome
  intro chunks chunks' hflat hflat'
  exact .inl ⟨hall chunks hflat, hall chunks' hflat'⟩

theorem uniform_iff {p : List β} :
    Uniform limit p ↔ p.length ≤ limit ∧ Quiet p ∨ scanText limit ⟨0, 0⟩ p = none := by
  constructor
  · intro hu
    cases hscan : scanText limit ⟨0, 0⟩ p with
    | none => exact .inr rfl
    | some scan =>
      have hwhole := hu.whole hscan
      have hquiet := hu.quiet hwhole
      rw [appendChunks_cons, Option.bind_eq_some_iff] at hwhole
      obtain ⟨_, hchunk, _⟩ := hwhole
      exact .inl ⟨(appendChunk_some hchunk).1, hquiet⟩
  · rintro (⟨hfit, hq⟩ | hscan)
    · exact uniform_of_quiet hfit hq
    · exact uniform_of_scan hscan

/-- Without NUL the way of cutting does not matter. -/
theorem uniform_of_noNul {p : List β} (h : ∀ b ∈ p, Octet.val b ≠ 0) : Uniform limit p := by
  by_cases hfit : p.length ≤ limit
  · exact uniform_of_quiet hfit (quiet_of_noNul h)
  · exact uniform_of_scan (scan_noNul h (Nat.zero_le _) (by omega))

end

end CString
