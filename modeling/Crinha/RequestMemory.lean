import Crinha.HttpParser
import Crinha.Bytes.Stores

/-!
# The memory of a request

* `request_memory`: both texts stay terminated, and no store leaves its array.
-/

namespace Crinha
open CString

/-! ## `struct HttpRequest` -/

def urlAt : Nat := 0
def bodyAt : Nat := httpRequestUrlBufferSize + 1
def completeAt : Nat := bodyAt + (httpRequestBodyBufferSize + 1)
def sizeofHttpRequest : Nat := completeAt + 1

def HttpRequest.memory (request : HttpRequest UInt8) : Bytes :=
  request.url.mem ++ request.body.mem ++ [if request.complete then 1 else 0]

/-- Reads on until there is a NUL, also behind the array. -/
def strlen (mem : Bytes) (addr : Nat) : Nat := (cstr (mem.drop addr)).length

def strzcpyStores (dest : Nat) (ori : Bytes) (size : Nat) : List (CellStore UInt8) :=
  consecutive dest (padded ori size) ++ [⟨dest + size, 0⟩]

/-- The stores of a callback and what it returns, for the array at `base`. -/
def appendStores (mem : Bytes) (base limit : Nat) (span : Bytes) :
    List (CellStore UInt8) × Nat :=
  let current := strlen mem base
  if span.length + current > limit then ([], 1)
  else
    (strzcpyStores (base + current) span span.length ++
      [⟨base + (span.length + current), 0⟩], 0)

/-- What is called with a request. -/
inductive RequestCall where
  | onUrl (span : Bytes)
  | onBody (span : Bytes)
  | onMessageComplete
  | resetRequest

namespace RequestCall

def exec (mem : Bytes) : RequestCall → List (CellStore UInt8) × Nat
  | onUrl span => appendStores mem urlAt (httpRequestUrlBufferSize - 1) span
  | onBody span => appendStores mem bodyAt httpRequestBodyBufferSize span
  | onMessageComplete => ([⟨completeAt, 1⟩], 0)
  | resetRequest => ([⟨urlAt, 0⟩, ⟨bodyAt, 0⟩, ⟨completeAt, 0⟩], 0)

def after (mem : Bytes) (c : RequestCall) : Bytes := applyStores mem (c.exec mem).1

/-- The array of a call and its size. -/
def area : RequestCall → Nat × Nat
  | onUrl _ => (urlAt, httpRequestUrlBufferSize + 1)
  | onBody _ => (bodyAt, httpRequestBodyBufferSize + 1)
  | onMessageComplete => (completeAt, 1)
  | resetRequest => (urlAt, sizeofHttpRequest)

/-- What a call does to a request, and `none` if it is refused. -/
def apply (request : HttpRequest UInt8) : RequestCall → Option (HttpRequest UInt8)
  | onUrl span => handleOnUrl request span
  | onBody span => handleOnBody request span
  | onMessageComplete => some (handleOnMessageComplete request)
  | resetRequest => some ⟨request.url.clear, request.body.clear, false⟩

end RequestCall

/-- A request that is refused stays as it is. -/
def RequestCall.step (request : HttpRequest UInt8) (c : RequestCall) : HttpRequest UInt8 :=
  (c.apply request).getD request

/-- `http_parser_init`, with what `malloc` gives, and then calls. -/
def runCalls (mem : Bytes) (calls : List RequestCall) : Bytes :=
  calls.foldl RequestCall.after (RequestCall.resetRequest.after mem)

/-! ## Texts in arrays -/

theorem cstr_append_of_lt {a : Bytes} (rest : Bytes) (h : (cstr a).length < a.length) :
    cstr (a ++ rest) = cstr a := by
  show (a ++ rest).takeWhile _ = cstr a
  rw [List.takeWhile_append]
  exact if_neg (Nat.ne_of_lt h)

theorem getElem?_length_cstr {a : Bytes} (h : (cstr a).length < a.length) :
    a[(cstr a).length]? = some 0 := by
  induction a with
  | nil => exact absurd h (Nat.lt_irrefl 0)
  | cons b a ih =>
    by_cases hb : b = 0
    · subst hb
      rfl
    · have hc : cstr (b :: a) = b :: cstr a := cstr_cons hb a
      rw [hc, List.length_cons] at h ⊢
      rw [List.length_cons] at h
      exact ih (by omega)

section
variable {cap limit : Nat} {buffer buffer' : Buffer UInt8 cap} {span : Bytes}

theorem length_str_appendSpan {h : limit ≤ cap}
    (ha : appendSpan limit h buffer span = some buffer') : buffer'.str.length ≤ limit := by
  have hstr := str_appendSpan ha
  unfold appendSpan at ha
  split at ha
  · have hspan := length_cstr_le span
    rw [hstr, List.length_append]
    omega
  · cases ha

/-- The stores of a callback stay in their array and leave there what `appendSpan` does. -/
theorem appendStores_spec (buffer : Buffer UInt8 cap) (a c : Bytes) (h : limit ≤ cap)
    (hstr : buffer.str.length ≤ cap) (span : Bytes) :
    (appendSpan limit h buffer span = none ∧
      appendStores (a ++ buffer.mem ++ c) a.length limit span = ([], 1)) ∨
    ∃ buffer' stores, appendSpan limit h buffer span = some buffer' ∧
      appendStores (a ++ buffer.mem ++ c) a.length limit span = (stores, 0) ∧
      Within a.length (cap + 1) stores ∧
      applyStores (a ++ buffer.mem ++ c) stores = a ++ buffer'.mem ++ c := by
  have hsize := buffer.size
  have hcurrent : strlen (a ++ buffer.mem ++ c) a.length = buffer.str.length := by
    have hlt : (cstr buffer.mem).length < buffer.mem.length := by
      rw [hsize]
      exact Nat.lt_succ_of_le hstr
    rw [strlen, List.append_assoc, List.drop_left, cstr_append_of_lt c hlt, Buffer.str]
  rw [appendStores, hcurrent]
  by_cases hlen : span.length + buffer.str.length ≤ limit
  · right
    rw [appendSpan, dif_pos hlen]
    simp only [if_neg (Nat.not_lt.mpr hlen)]
    refine ⟨_, _, rfl, rfl, ?_, ?_⟩
    · have hcopy : Within a.length (cap + 1)
          (consecutive (a.length + buffer.str.length) (padded span span.length)) :=
        within_consecutive (Nat.le_add_right _ _) (by rw [length_padded]; omega)
      exact (hcopy.append (within_single (by omega) (by omega))).append
        (within_single (by omega) (by omega))
    · have hcopy : applyStores (a ++ buffer.mem ++ c)
          (consecutive (a.length + buffer.str.length) (padded span span.length)) =
          a ++ strncpy buffer.mem buffer.str.length span span.length ++ c :=
        applyStores_between (by rw [length_padded]; omega)
      have hncpy : (strncpy buffer.mem buffer.str.length span span.length).length = cap + 1 := by
        rw [strncpy, length_overwrite (by rw [length_padded]; omega), hsize]
      have hterm := applyStores_single (a := a) (c := c) (i := buffer.str.length + span.length)
        (b := strncpy buffer.mem buffer.str.length span span.length) (0 : UInt8) (by omega)
      have hzcpy : (strzcpy buffer.mem buffer.str.length span span.length).length = cap + 1 := by
        rw [strzcpy, length_overwrite (by rw [hncpy, List.length_singleton]; omega), hncpy]
      have hextra := applyStores_single (a := a) (c := c) (i := span.length + buffer.str.length)
        (b := strzcpy buffer.mem buffer.str.length span span.length) (0 : UInt8) (by omega)
      rw [strzcpyStores, applyStores_append, applyStores_append, hcopy, Nat.add_assoc, hterm]
      exact hextra
  · left
    rw [appendSpan, dif_neg hlen, if_pos (Nat.not_le.mp hlen)]
    exact ⟨rfl, rfl⟩

end

/-! ## Calls -/

/-- Both texts end inside their arrays, the URL one byte before the last. -/
structure Terminado (request : HttpRequest UInt8) : Prop where
  url : request.url.str.length < httpRequestUrlBufferSize
  body : request.body.str.length ≤ httpRequestBodyBufferSize

theorem terminado_clear (url : Buffer UInt8 httpRequestUrlBufferSize)
    (body : Buffer UInt8 httpRequestBodyBufferSize) :
    Terminado ⟨url.clear, body.clear, false⟩ := by
  constructor
  · rw [str_clear]
    decide
  · rw [str_clear]
    exact Nat.zero_le _

section
variable {request : HttpRequest UInt8}

theorem reset_memory (url : Buffer UInt8 httpRequestUrlBufferSize)
    (body : Buffer UInt8 httpRequestBodyBufferSize) (x : UInt8) :
    RequestCall.resetRequest.after (url.mem ++ body.mem ++ [x]) =
      HttpRequest.memory ⟨url.clear, body.clear, false⟩ := by
  have hurl := url.size
  have hbody := body.size
  have hfirst : applyStores (url.mem ++ body.mem ++ [x]) [⟨urlAt, 0⟩] =
      url.clear.mem ++ (body.mem ++ [x]) := by
    have hlt : 0 < url.mem.length := by omega
    rw [List.append_assoc]
    exact applyStores_single (a := []) 0 hlt
  have hsecond : applyStores (url.clear.mem ++ body.mem ++ [x]) [⟨bodyAt, 0⟩] =
      url.clear.mem ++ body.clear.mem ++ [x] := by
    have hat : bodyAt = url.clear.mem.length + 0 := url.clear.size.symm
    have hlt : 0 < body.mem.length := by omega
    rw [hat]
    exact applyStores_single 0 hlt
  have hthird : applyStores (url.clear.mem ++ body.clear.mem ++ [x]) [⟨completeAt, 0⟩] =
      url.clear.mem ++ body.clear.mem ++ [0] := by
    have hat : completeAt = (url.clear.mem ++ body.clear.mem).length := by
      rw [List.length_append, url.clear.size, body.clear.size]
      rfl
    rw [hat]
    exact applyStores_last _ 0 x
  show applyStores (applyStores (applyStores _ [⟨urlAt, 0⟩]) [⟨bodyAt, 0⟩]) [⟨completeAt, 0⟩] = _
  rw [hfirst, ← List.append_assoc, hsecond, hthird]
  rfl

/-- A call does to the bytes of a request what it does to the request. -/
inductive InMemory (request : HttpRequest UInt8) (c : RequestCall) : Prop where
  | refused (apply : c.apply request = none) (exec : c.exec request.memory = ([], 1))
  | accepted (request' : HttpRequest UInt8) (apply : c.apply request = some request')
      (ret : (c.exec request.memory).2 = 0) (after : c.after request.memory = request'.memory)
      (terminado : Terminado request')
      (within : Within c.area.1 c.area.2 (c.exec request.memory).1)

/-- A call that appends to the array between `a` and `z`. -/
theorem append_memory {cap limit : Nat} {c : RequestCall} {a z span : Bytes}
    {buffer : Buffer UInt8 cap} {update : Buffer UInt8 cap → HttpRequest UInt8} {h : limit ≤ cap}
    (hstr : buffer.str.length ≤ cap) (hmem : request.memory = a ++ buffer.mem ++ z)
    (hupdate : ∀ buffer, (update buffer).memory = a ++ buffer.mem ++ z)
    (happly : c.apply request = (appendSpan limit h buffer span).map update)
    (hexec : c.exec request.memory = appendStores request.memory a.length limit span)
    (harea : c.area = (a.length, cap + 1))
    (ht : ∀ buffer, buffer.str.length ≤ limit → Terminado (update buffer)) :
    InMemory request c := by
  have hspec := appendStores_spec buffer a z h hstr span
  rw [← hmem, ← hexec] at hspec
  rcases hspec with ⟨hnone, hrefused⟩ | ⟨buffer', stores, hsome, hstores, hwithin, hafter⟩
  · rw [hnone, Option.map_none] at happly
    exact .refused happly hrefused
  · rw [hsome, Option.map_some] at happly
    refine .accepted (update buffer') happly ?_ ?_ (ht buffer' (length_str_appendSpan hsome)) ?_
    · rw [hstores]
    · rw [RequestCall.after, hstores, hafter, hupdate]
    · rw [hstores, harea]
      exact hwithin

/-- A call on the bytes of a request whose texts are terminated does what it does to the
request, and stores to its array only. -/
theorem exec_memory (ht : Terminado request) (c : RequestCall) : InMemory request c := by
  have hurl := ht.url
  have hbody := ht.body
  cases c with
  | onUrl span =>
    have hmem (url : Buffer UInt8 httpRequestUrlBufferSize) :
        HttpRequest.memory { request with url := url } =
          [] ++ url.mem ++ (request.body.mem ++ [if request.complete then 1 else 0]) := by
      rw [List.nil_append, ← List.append_assoc]
      rfl
    apply append_memory (Nat.le_of_lt hurl) (hmem request.url) hmem rfl rfl rfl
    intro url hlen
    exact ⟨Nat.lt_of_le_of_lt hlen (by decide), hbody⟩
  | onBody span =>
    have hat : bodyAt = request.url.mem.length := request.url.size.symm
    apply append_memory hbody rfl (fun _ => rfl) rfl (by rw [← hat]; rfl) (by rw [← hat]; rfl)
    intro body hlen
    exact ⟨hurl, hlen⟩
  | onMessageComplete =>
    refine .accepted (handleOnMessageComplete request) rfl rfl ?_ ⟨hurl, hbody⟩
      (within_single (by decide) (by decide))
    have hat : completeAt = (request.url.mem ++ request.body.mem).length := by
      rw [List.length_append, request.url.size, request.body.size]
      rfl
    show applyStores request.memory [⟨completeAt, 1⟩] = _
    rw [hat]
    exact applyStores_last _ 1 _
  | resetRequest =>
    refine .accepted ⟨request.url.clear, request.body.clear, false⟩ rfl rfl (reset_memory _ _ _)
      (terminado_clear _ _) ?_
    have hwithin : Within urlAt sizeofHttpRequest ([⟨urlAt, 0⟩] ++ [⟨bodyAt, 0⟩] ++
        [(⟨completeAt, 0⟩ : CellStore UInt8)]) :=
      ((within_single (by decide) (by decide)).append
        (within_single (by decide) (by decide))).append (within_single (by decide) (by decide))
    exact hwithin

theorem step_memory (ht : Terminado request) (c : RequestCall) :
    c.after request.memory = (c.step request).memory ∧ Terminado (c.step request) := by
  cases exec_memory ht c with
  | refused happly hexec =>
    rw [RequestCall.after, hexec, RequestCall.step, happly]
    exact ⟨rfl, ht⟩
  | accepted request' happly _ hafter ht' _ =>
    rw [RequestCall.step, happly]
    exact ⟨hafter, ht'⟩

theorem run_memory (ht : Terminado request) (calls : List RequestCall) :
    calls.foldl RequestCall.after request.memory = (calls.foldl RequestCall.step request).memory ∧
      Terminado (calls.foldl RequestCall.step request) := by
  induction calls generalizing request with
  | nil => exact ⟨rfl, ht⟩
  | cons c calls ih =>
    obtain ⟨hafter, ht'⟩ := step_memory ht c
    rw [List.foldl_cons, List.foldl_cons, hafter]
    exact ih ht'

/-- The bytes of a `struct HttpRequest` are two arrays and one byte. -/
theorem exists_arrays {mem : Bytes} (hmem : mem.length = sizeofHttpRequest) :
    ∃ (url : Buffer UInt8 httpRequestUrlBufferSize) (body : Buffer UInt8 httpRequestBodyBufferSize)
      (x : UInt8), mem = url.mem ++ body.mem ++ [x] := by
  have hsize : mem.length = 1283 := hmem
  have hurl : (mem.take bodyAt).length = httpRequestUrlBufferSize + 1 := by
    rw [List.length_take, hsize]
    rfl
  have hbody : ((mem.drop bodyAt).take (httpRequestBodyBufferSize + 1)).length =
      httpRequestBodyBufferSize + 1 := by
    rw [List.length_take, List.length_drop, hsize]
    rfl
  obtain ⟨x, hx⟩ : ∃ x, (mem.drop bodyAt).drop (httpRequestBodyBufferSize + 1) = [x] := by
    apply List.length_eq_one_iff.mp
    rw [List.length_drop, List.length_drop, hsize]
    rfl
  refine ⟨⟨_, hurl⟩, ⟨_, hbody⟩, x, ?_⟩
  rw [← hx, List.append_assoc, List.take_append_drop, List.take_append_drop]

/-- Whatever `malloc` gives, the calls find the bytes of a request with terminated texts. -/
theorem runCalls_memory {mem : Bytes} (hmem : mem.length = sizeofHttpRequest)
    (calls : List RequestCall) :
    ∃ request, runCalls mem calls = request.memory ∧ Terminado request := by
  obtain ⟨url, body, x, rfl⟩ := exists_arrays hmem
  obtain ⟨hfold, ht⟩ := run_memory (terminado_clear url body) calls
  refine ⟨_, ?_, ht⟩
  rw [runCalls, reset_memory]
  exact hfold

/-! ## Every run of calls -/

/-- Before the call `c` both texts are terminated; the call stores to its own array, changes
nothing else, and changes nothing at all if it is refused. -/
structure Segura (mem : Bytes) (c : RequestCall) : Prop where
  url : ∃ i ≤ 255, mem[urlAt + i]? = some 0
  body : ∃ i ≤ 1024, mem[bodyAt + i]? = some 0
  within : Within c.area.1 c.area.2 (c.exec mem).1
  refused : (c.exec mem).2 ≠ 0 → c.after mem = mem
  frame : ∀ i, i < c.area.1 ∨ c.area.1 + c.area.2 ≤ i → (c.after mem)[i]? = mem[i]?

theorem terminated_memory (ht : Terminado request) :
    request.memory[urlAt + request.url.str.length]? = some 0 ∧
      request.memory[bodyAt + request.body.str.length]? = some 0 := by
  have hurl : request.url.str.length < request.url.mem.length := by
    rw [request.url.size]
    exact Nat.lt_succ_of_lt ht.url
  have hbody : request.body.str.length < request.body.mem.length := by
    rw [request.body.size]
    exact Nat.lt_succ_of_le ht.body
  have hat : bodyAt = request.url.mem.length := request.url.size.symm
  rw [HttpRequest.memory, List.append_assoc]
  constructor
  · rw [urlAt, Nat.zero_add, List.getElem?_append_left hurl]
    exact getElem?_length_cstr hurl
  · rw [hat, List.getElem?_append_right (Nat.le_add_right _ _), Nat.add_sub_cancel_left,
      List.getElem?_append_left hbody]
    exact getElem?_length_cstr hbody

/-- **The request buffers stay well formed** in every run of calls. -/
theorem request_memory {mem : Bytes} (hmem : mem.length = sizeofHttpRequest)
    (calls : List RequestCall) (c : RequestCall) : Segura (runCalls mem calls) c := by
  obtain ⟨request, hrun, ht⟩ := runCalls_memory hmem calls
  obtain ⟨hurl, hbody⟩ := terminated_memory ht
  rw [hrun]
  have hwithin : Within c.area.1 c.area.2 (c.exec request.memory).1 := by
    cases exec_memory ht c with
    | refused _ hexec =>
      rw [hexec]
      exact fun store h => absurd h List.not_mem_nil
    | accepted _ _ _ _ _ hwithin => exact hwithin
  refine ⟨⟨_, Nat.le_of_lt_succ ht.url, hurl⟩, ⟨_, ht.body, hbody⟩, hwithin, ?_, ?_⟩
  · intro hret
    cases exec_memory ht c with
    | refused _ hexec =>
      rw [RequestCall.after, hexec]
      rfl
    | accepted _ _ hzero _ _ _ => exact absurd hzero hret
  · intro i hi
    exact getElem?_applyStores _ hwithin hi

end

/-- A body that arrives with a NUL in it, one that is too long, and a URL. -/
theorem request_memory_mixed :
    Segura (runCalls (List.replicate sizeofHttpRequest 0xAA)
      [.onBody [97, 0, 98], .onBody (List.replicate 2000 99), .onUrl [47], .resetRequest])
      (.onBody [120]) :=
  request_memory List.length_replicate _ _

end Crinha
