import Crinha.Memory.Heap

/-!
# Programs with a heap, and programs without

* `Refines P m p Q`: where `P` holds, `m` makes the reads and writes of `p`, crashes only
  where `p` does, and leaves a part that `Q` relates to the results.
-/

namespace Memory
open Pipeline

variable {V X Q R C A A' B B' : Type}

/-- The same reads and writes in the same order and crashes in the same places, with
related results, as long as each read gets a legal answer. -/
def Mirrors (legal : Q → R → Prop) (results : A → A' → Prop) : Prog Q R C A → Prog Q R C A' → Prop
  | .done a, .done a' => results a a'
  | .halt, .halt => True
  | .query q k, .query q' k' => q = q' ∧ ∀ r, legal q r → Mirrors legal results (k r) (k' r)
  | .send c k, .send c' k' => c = c' ∧ ∀ b, Mirrors legal results (k b) (k' b)
  | _, _ => False

variable {legal : Q → R → Prop}

theorem Mirrors.symm {results : A → A' → Prop} : ∀ {p : Prog Q R C A} {o : Prog Q R C A'},
    Mirrors legal results p o → Mirrors legal (fun a' a => results a a') o p
  | .done _, .done _, h => h
  | .halt, .halt, _ => trivial
  | .query _ k, .query _ k', ⟨hq, h⟩ =>
      ⟨hq.symm, fun r hr => Mirrors.symm (p := k r) (o := k' r) (h r (hq ▸ hr))⟩
  | .send _ k, .send _ k', ⟨hc, h⟩ =>
      ⟨hc.symm, fun b => Mirrors.symm (p := k b) (o := k' b) (h b)⟩

theorem Mirrors.bind {mid : A → A' → Prop} {results : B → B' → Prop} {f : A → Prog Q R C B}
    {f' : A' → Prog Q R C B'} (hf : ∀ a a', mid a a' → Mirrors legal results (f a) (f' a')) :
    ∀ {p : Prog Q R C A} {o : Prog Q R C A'}, Mirrors legal mid p o →
      Mirrors legal results (p >>= f) (o >>= f')
  | .done a, .done a', h => hf a a' h
  | .halt, .halt, _ => trivial
  | .query _ k, .query _ k', ⟨hq, h⟩ =>
      ⟨hq, fun r hr => Mirrors.bind hf (p := k r) (o := k' r) (h r hr)⟩
  | .send _ k, .send _ k', ⟨hc, h⟩ => ⟨hc, fun b => Mirrors.bind hf (p := k b) (o := k' b) (h b)⟩

theorem Mirrors.mono {results results' : A → A' → Prop} (hr : ∀ a a', results a a' → results' a a') :
    ∀ {p : Prog Q R C A} {o : Prog Q R C A'}, Mirrors legal results p o →
      Mirrors legal results' p o
  | .done a, .done a', h => hr a a' h
  | .halt, .halt, _ => trivial
  | .query _ k, .query _ k', ⟨hq, h⟩ =>
      ⟨hq, fun r hl => Mirrors.mono hr (p := k r) (o := k' r) (h r hl)⟩
  | .send _ k, .send _ k', ⟨hc, h⟩ => ⟨hc, fun b => Mirrors.mono hr (p := k b) (o := k' b) (h b)⟩

variable (legal) in
/-- `f` is the rest of the heap. -/
def Refines (P : Assertion V) (m : Mem V Q R C A) (p : Prog Q R C A') (Q' : A → A' → Assertion V) :
    Prop :=
  ∀ h f, P h → h.Disjoint f → Mirrors legal
    (fun x a' => ∃ h', x.2 = h' ∪ f ∧ h'.Disjoint f ∧ Q' x.1 a' h') (m (h ∪ f)) p

variable (legal) in
/-- A piece of a program that neither reads nor writes, and never crashes. -/
abbrev Triple (P : Assertion V) (m : Mem V Q R C A) (Q' : A → Assertion V) : Prop :=
  Refines legal P m (pure () : Prog Q R C Unit) fun a _ => Q' a

namespace Refines
open Assertion

variable {P P' F : Assertion V} {m : Mem V Q R C A} {p : Prog Q R C A'}
  {Q' : A → A' → Assertion V}

theorem pure {a : A} {a' : A'} (h : ∀ m, P m → Q' a a' m) :
    Refines legal P (pure a : Mem V Q R C A) (pure a') Q' :=
  fun m _ hp hd => ⟨m, rfl, hd, h m hp⟩

theorem bind {M : A → A' → Assertion V} {k : A → Mem V Q R C B} {l : A' → Prog Q R C B'}
    {Q' : B → B' → Assertion V} (hm : Refines legal P m p M)
    (hk : ∀ a a', Refines legal (M a a') (k a) (l a') Q') :
    Refines legal P (m >>= k) (p >>= l) Q' := by
  intro h f hp hd
  refine Mirrors.bind ?_ (hm h f hp hd)
  rintro ⟨a, _⟩ a' ⟨h', rfl, hd', hM⟩
  exact hk a a' h' f hM hd'

theorem conseq {Q'' : A → A' → Assertion V} (hp : ∀ h, P h → P' h)
    (hq : ∀ a a' h, Q'' a a' h → Q' a a' h) (h : Refines legal P' m p Q'') :
    Refines legal P m p Q' := by
  intro m f hP hd
  refine Mirrors.mono ?_ (h m f (hp m hP) hd)
  rintro ⟨a, _⟩ a' ⟨h', rfl, hd', hQ⟩
  exact ⟨h', rfl, hd', hq a a' h' hQ⟩

/-- What a program is given and does not use, it leaves alone. -/
theorem frame (h : Refines legal P m p Q') :
    Refines legal (P * F) m p fun a a' => Q' a a' * F := by
  rintro _ f ⟨h₁, h₂, hd, rfl, hP, hF⟩ hdf
  obtain ⟨hd₁, hd₂⟩ := (Finmap.disjoint_union_left _ _ _).mp hdf
  rw [Finmap.union_assoc]
  refine Mirrors.mono ?_ (h h₁ (h₂ ∪ f) hP ((Finmap.disjoint_union_right _ _ _).mpr ⟨hd, hd₁⟩))
  rintro ⟨a, _⟩ a' ⟨h', rfl, hd', hQ⟩
  obtain ⟨he, hf⟩ := (Finmap.disjoint_union_right _ _ _).mp hd'
  exact ⟨h' ∪ h₂, Finmap.union_assoc.symm, (Finmap.disjoint_union_left _ _ _).mpr ⟨hf, hd₂⟩,
    h', h₂, he, rfl, hQ, hF⟩

/-- What needs no heap and leaves none runs on any heap, and gives it back. -/
theorem mirrors {φ : A → A' → Prop} (h : Refines legal 1 m p fun a a' => fact (φ a a'))
    (f : Heap V) : Mirrors legal (fun x a' => φ x.1 a' ∧ x.2 = f) (m f) p := by
  have hf := h ∅ f rfl (Finmap.disjoint_empty f)
  rw [Finmap.empty_union] at hf
  refine hf.mono ?_
  rintro x a' ⟨h', hx, -, hφ, rfl⟩
  exact ⟨hφ, hx.trans Finmap.empty_union⟩

/-- What a piece without reads and writes computes, next to any other part `f`. -/
theorem run {Q' : A → Assertion V} (h : Triple legal P m Q') {h₁ f : Heap V} (hP : P h₁)
    (hd : h₁.Disjoint f) : ∃ a h₂, m (h₁ ∪ f) = .done (a, h₂ ∪ f) ∧ h₂.Disjoint f ∧ Q' a h₂ := by
  have hm := h h₁ f hP hd
  generalize m (h₁ ∪ f) = prog at hm ⊢
  cases prog with
  | done x =>
    obtain ⟨h₂, hx, hd₂, hQ⟩ := hm
    exact ⟨x.1, h₂, congrArg Prog.done (Prod.ext rfl hx), hd₂, hQ⟩
  | halt | query | send => exact hm.elim

theorem of_eq (e : P = P') (h : Refines legal P' m p Q') : Refines legal P m p Q' := e ▸ h

/-- The parts seen as `P'`. -/
theorem seenAs (P' : Assertion V) (e : P = P') (h : Refines legal P' m p Q') :
    Refines legal P m p Q' := of_eq e h

/-- Some of the parts seen as `P'`. -/
theorem fold {P'' : Assertion V} (F : Assertion V) (e : P = P'' * F) (hp : ∀ h, P'' h → P' h)
    (h : Refines legal (P' * F) m p Q') : Refines legal P m p Q' :=
  of_eq e (conseq (fun _ => sep_mono hp) (fun _ _ _ h => h) h)

theorem pure_eq {a : A} {a' : A'} (e : P = Q' a a') :
    Refines legal P (Pure.pure a : Mem V Q R C A) (Pure.pure a') Q' :=
  pure fun _ h => e ▸ h

theorem pure_fact {a : A} {a' : A'} {φ : A → A' → Prop} {M : A → A' → Assertion V}
    (h : φ a a') (e : P = M a a') :
    Refines legal P (Pure.pure a : Mem V Q R C A) (Pure.pure a') fun a a' =>
      fact (φ a a') * M a a' :=
  pure_eq (by rw [fact_true h, one_mul, e])

theorem ret {a : A} {k : A → Mem V Q R C B} {p : Prog Q R C B'} {Q' : B → B' → Assertion V}
    (h : Refines legal P (k a) p Q') : Refines legal P (Pure.pure a >>= k) p Q' := h

theorem assoc {m : Mem V Q R C X} {k : X → Mem V Q R C B} {k' : B → Mem V Q R C A}
    (h : Refines legal P (m >>= fun a => k a >>= k') p Q') :
    Refines legal P (m >>= k >>= k') p Q' := by
  rwa [bind_assoc]

/-- What is left to do when the program without a heap has its result. -/
theorem result (h : Refines legal P m (p >>= Pure.pure) Q') : Refines legal P m p Q' := by
  rwa [bind_pure] at h

theorem last (h : Refines legal P (m >>= Pure.pure) p Q') : Refines legal P m p Q' := by
  rwa [bind_pure] at h

/-- A call, with `F` set aside. -/
theorem call {M : A → A' → Assertion V} {k : A → Mem V Q R C B} {l : A' → Prog Q R C B'}
    {Q' : B → B' → Assertion V} (hm : Refines legal P m p M)
    (hk : ∀ a a', Refines legal (M a a' * F) (k a) (l a') Q') :
    Refines legal (P * F) (m >>= k) (p >>= l) Q' :=
  bind hm.frame hk

/-- A call that neither reads nor writes. -/
theorem step {M : A → Assertion V} {k : A → Mem V Q R C B} {p : Prog Q R C B'}
    {Q' : B → B' → Assertion V} (hm : Triple legal P m M)
    (hk : ∀ a, Refines legal (M a * F) (k a) p Q') : Refines legal (P * F) (m >>= k) p Q' :=
  call (p := .done ()) (l := fun _ => p) hm fun a _ => hk a

theorem andThen {M : A → Assertion V} {k : A → Mem V Q R C B} {p : Prog Q R C B'}
    {Q' : B → B' → Assertion V} (hm : Triple legal P m M)
    (hk : ∀ a, Refines legal (M a) (k a) p Q') : Refines legal P (m >>= k) p Q' :=
  bind (p := .done ()) (l := fun _ => p) hm fun a _ => hk a

theorem of_fact {φ : Prop} (h : φ → Refines legal P m p Q') :
    Refines legal (fact φ * P) m p Q' := by
  intro m f hm hd
  obtain ⟨hφ, hP⟩ := fact_mul.mp hm
  exact h hφ m f hP hd

theorem of_ex {P : X → Assertion V} (h : ∀ x, Refines legal (P x) m p Q') :
    Refines legal (ex P) m p Q' := by
  rintro m f ⟨x, hP⟩ hd
  exact h x m f hP hd

theorem of_ex_mul {P : X → Assertion V} (h : ∀ x, Refines legal (P x * F) m p Q') :
    Refines legal (ex P * F) m p Q' :=
  of_eq ex_mul (of_ex h)

/-! ## The operations -/

variable {k : A → Mem V Q R C B} {p : Prog Q R C B'} {Q' : B → B' → Assertion V}

theorem malloc {al : Allocator V} {n : Nat} {k : Ptr → Mem V Q R C B}
    (h : ∀ q, q ≠ 0 → Refines legal (block q (List.replicate n none) * F) (k q) p Q') :
    Refines legal F (malloc al n >>= k) p Q' := by
  intro m f hF hd
  have hn := al.not_mem (m ∪ f)
  rw [Finmap.mem_union, not_or] at hn
  show Mirrors legal _ (k (al.fresh (m ∪ f)) _) p
  rw [insert_eq_union, ← Finmap.union_assoc]
  exact h _ (al.ne_null _) _ f
    ⟨_, m, singleton_disjoint.mpr hn.1, rfl, ⟨al.ne_null _, rfl⟩, hF⟩
    ((Finmap.disjoint_union_left _ _ _).mpr ⟨singleton_disjoint.mpr hn.2, hd⟩)

/-- One block, its frame and the rest of the heap. -/
theorem of_block {q : Ptr} {b : List (Option V)} {m : Mem V Q R C B}
    (h : ∀ hF f, q ≠ 0 → F hF → q ∉ hF ∪ f → hF.Disjoint f →
      Mirrors legal (fun x a' => ∃ h', x.2 = h' ∪ f ∧ h'.Disjoint f ∧ Q' x.1 a' h')
        (m (Finmap.singleton q b ∪ (hF ∪ f))) p) :
    Refines legal (block q b * F) m p Q' := by
  rintro _ f ⟨_, hF, hd, rfl, ⟨hq, rfl⟩, hP⟩ hdf
  obtain ⟨hd₁, hd₂⟩ := (Finmap.disjoint_union_left _ _ _).mp hdf
  rw [Finmap.union_assoc]
  refine h hF f hq hP ?_ hd₂
  rw [Finmap.mem_union, not_or]
  exact ⟨singleton_disjoint.mp hd, singleton_disjoint.mp hd₁⟩

/-- What a program does next with the block in place. -/
theorem in_block {q : Ptr} {b : List (Option V)} {m : Mem V Q R C B}
    (h : Refines legal (block q b * F) m p Q') {hF f : Heap V} (hq : q ≠ 0) (hP : F hF)
    (hn : q ∉ hF ∪ f) (hd : hF.Disjoint f) :
    Mirrors legal (fun x a' => ∃ h', x.2 = h' ∪ f ∧ h'.Disjoint f ∧ Q' x.1 a' h')
      (m (Finmap.singleton q b ∪ (hF ∪ f))) p := by
  rw [Finmap.mem_union, not_or] at hn
  rw [← Finmap.union_assoc]
  exact h _ f ⟨_, hF, singleton_disjoint.mpr hn.1, rfl, ⟨hq, rfl⟩, hP⟩
    ((Finmap.disjoint_union_left _ _ _).mpr ⟨singleton_disjoint.mpr hn.2, hd⟩)

theorem free {q : Ptr} {b : List (Option V)} {k : Unit → Mem V Q R C B}
    (h : Refines legal F (k ()) p Q') : Refines legal (block q b * F) (free q >>= k) p Q' := by
  refine of_block fun hF f hq hP hn hd => ?_
  have hm : q ∈ Finmap.singleton q b ∪ (hF ∪ f) := by simp
  show Mirrors legal _ (Memory.free q _ >>= fun x => k x.1 x.2) p
  rw [Memory.free, if_neg hq, if_pos hm, block_erase hn]
  exact h hF f hP hd

theorem loadAs {of : V → Option A} {q : Ptr} {b : List (Option V)} {i : Nat} {v : V} {a : A}
    (hi : b[i]? = some (some v)) (hv : of v = some a)
    (h : Refines legal (block q b * F) (k a) p Q') :
    Refines legal (block q b * F) (loadAs of q i >>= k) p Q' := by
  refine of_block fun hF f hq hP hn hd => ?_
  have hl : (Memory.load q i : Mem V Q R C V) (Finmap.singleton q b ∪ (hF ∪ f)) =
      .done (v, Finmap.singleton q b ∪ (hF ∪ f)) := by
    rw [Memory.load, block_cells hq, Option.bind_some, hi]
  show Mirrors legal _ (Memory.loadAs of q i _ >>= fun x => k x.1 x.2) p
  rw [loadAs_done hl hv]
  exact in_block h hq hP hn hd

theorem store {q : Ptr} {b : List (Option V)} {i : Nat} {v : V} {k : Unit → Mem V Q R C B}
    (hi : i < b.length) (h : Refines legal (block q (b.set i (some v)) * F) (k ()) p Q') :
    Refines legal (block q b * F) (store q i v >>= k) p Q' := by
  refine of_block fun hF f hq hP hn hd => ?_
  show Mirrors legal _ (Memory.store q i v _ >>= fun x => k x.1 x.2) p
  rw [Memory.store, block_cells hq]
  simp only [if_pos hi, block_insert]
  exact in_block h hq hP hn hd

theorem ask {q : Q} {k : R → Mem V Q R C B} {k' : R → Prog Q R C B'}
    (h : ∀ r, legal q r → Refines legal P (k r) (k' r) Q') :
    Refines legal P (Memory.ask q >>= k) (Prog.ask q >>= k') Q' :=
  fun m f hP hd => ⟨rfl, fun r hr => h r hr m f hP hd⟩

theorem submit {c : C} {k : Bool → Mem V Q R C B} {k' : Bool → Prog Q R C B'}
    (h : ∀ b, Refines legal P (k b) (k' b) Q') :
    Refines legal P (Memory.submit c >>= k) (Prog.submit c >>= k') Q' :=
  fun m f hP hd => ⟨rfl, fun b => h b m f hP hd⟩

theorem crash : Refines legal P (Memory.crash : Mem V Q R C B) (.halt : Prog Q R C B') Q' :=
  fun _ _ _ _ => trivial

/-! ## A heap in parts

The parts that a program works on in turn are kept in a list; a rule names the place
of the part it is about. -/

section
variable {L : List (Assertion V)} {q : Ptr} {b : List (Option V)} {i : Nat}

theorem prod_eq {P : Assertion V} {n : Nat} (h : L[n]? = some P) :
    L.prod = P * (L.eraseIdx n).prod := by
  obtain ⟨hn, rfl⟩ := List.getElem?_eq_some_iff.mp h
  exact (List.CommMonoid.mul_prod_eraseIdx hn).symm

theorem prod_set {P : Assertion V} {n : Nat} (h : n < L.length) :
    (L.set n P).prod = P * (L.eraseIdx n).prod := by
  rw [prod_eq (List.getElem?_set_self h), List.eraseIdx_set_eq]

theorem lt_length {P : Assertion V} {n : Nat} (h : L[n]? = some P) : n < L.length :=
  (List.getElem?_eq_some_iff.mp h).1

theorem loadAt (n : Nat) {of : V → Option A} {v : V} {a : A} (hn : L[n]? = some (block q b))
    (hi : b[i]? = some (some v)) (hv : of v = some a)
    (h : Refines legal L.prod (k a) p Q') :
    Refines legal L.prod (Memory.loadAs of q i >>= k) p Q' := by
  rw [prod_eq hn] at h ⊢
  exact loadAs hi hv h

theorem storeAt (n : Nat) {v : V} {k : Unit → Mem V Q R C B} (hn : L[n]? = some (block q b))
    (hi : i < b.length) (h : Refines legal (L.set n (block q (b.set i (some v)))).prod (k ()) p Q') :
    Refines legal L.prod (Memory.store q i v >>= k) p Q' := by
  rw [prod_set (lt_length hn)] at h
  rw [prod_eq hn]
  exact store hi h

/-- The first cell not yet written. -/
theorem storeNextAt (n : Nat) {xs : List (Option V)} {j : Nat} {v : V} {k : Unit → Mem V Q R C B}
    (hn : L[n]? = some (block q (xs ++ List.replicate (j + 1) none))) (hi : xs.length = i)
    (h : Refines legal (L.set n (block q ((xs ++ [some v]) ++ List.replicate j none))).prod
      (k ()) p Q') :
    Refines legal L.prod (Memory.store q i v >>= k) p Q' := by
  refine storeAt n hn (by simp; omega) ?_
  rwa [List.set_append_right i _ (by omega), hi, Nat.sub_self, List.replicate_succ,
    List.set_cons_zero, List.append_cons]

theorem freeAt (n : Nat) {k : Unit → Mem V Q R C B} (hn : L[n]? = some (block q b))
    (h : Refines legal (L.eraseIdx n).prod (k ()) p Q') :
    Refines legal L.prod (Memory.free q >>= k) p Q' := by
  rw [prod_eq hn]
  exact free h

theorem mallocAt {al : Allocator V} {n : Nat} {k : Ptr → Mem V Q R C B}
    (h : ∀ q, q ≠ 0 → Refines legal (block q (List.replicate n none) :: L).prod (k q) p Q') :
    Refines legal L.prod (Memory.malloc al n >>= k) p Q' :=
  malloc h

theorem stepAt (n : Nat) {M : A → Assertion V} {P : Assertion V} (hn : L[n]? = some P)
    (hm : Triple legal P m M) (h : ∀ a, Refines legal (M a :: L.eraseIdx n).prod (k a) p Q') :
    Refines legal L.prod (m >>= k) p Q' := by
  rw [prod_eq hn]
  exact step hm h

/-- A call that needs nothing of the heap. -/
theorem newAt {M : A → Assertion V} (hm : Triple legal 1 m M)
    (h : ∀ a, Refines legal (M a :: L).prod (k a) p Q') : Refines legal L.prod (m >>= k) p Q' :=
  of_eq (one_mul _).symm (step hm h)

theorem callNewAt {M : A → A' → Assertion V} {p : Prog Q R C A'} {k' : A' → Prog Q R C B'}
    (hm : Refines legal 1 m p M) (h : ∀ a a', Refines legal (M a a' :: L).prod (k a) (k' a') Q') :
    Refines legal L.prod (m >>= k) (p >>= k') Q' :=
  of_eq (one_mul _).symm (call hm h)

theorem callAt (n : Nat) {M : A → A' → Assertion V} {P : Assertion V} {p : Prog Q R C A'}
    {k' : A' → Prog Q R C B'} (hn : L[n]? = some P) (hm : Refines legal P m p M)
    (h : ∀ a a', Refines legal (M a a' :: L.eraseIdx n).prod (k a) (k' a') Q') :
    Refines legal L.prod (m >>= k) (p >>= k') Q' := by
  rw [prod_eq hn]
  exact call hm h

theorem exAt (n : Nat) {X : Type} {P : X → Assertion V} {m : Mem V Q R C B}
    (hn : L[n]? = some (ex P)) (h : ∀ x, Refines legal (L.set n (P x)).prod m p Q') :
    Refines legal L.prod m p Q' := by
  rw [prod_eq hn]
  exact of_ex_mul fun x => by simpa only [prod_set (lt_length hn)] using h x

theorem factAt (n : Nat) {φ : Prop} {m : Mem V Q R C B} (hn : L[n]? = some (fact φ))
    (h : φ → Refines legal (L.eraseIdx n).prod m p Q') : Refines legal L.prod m p Q' := by
  rw [prod_eq hn]
  exact of_fact h

/-- What a part says of the values in hand. -/
theorem knowAt (n : Nat) {φ : Prop} {P : Assertion V} {m : Mem V Q R C B} (hn : L[n]? = some P)
    (hφ : ∀ h, P h → φ) (h : φ → Refines legal L.prod m p Q') : Refines legal L.prod m p Q' := by
  intro h' f hP hd
  have hprod := hP
  rw [prod_eq hn] at hprod
  obtain ⟨h₁, _, _, _, hP₁, _⟩ := hprod
  exact h (hφ h₁ hP₁) h' f hP hd

theorem splitAt (n : Nat) {P P' : Assertion V} {m : Mem V Q R C B} (hn : L[n]? = some (P * P'))
    (h : Refines legal (P' :: L.set n P).prod m p Q') : Refines legal L.prod m p Q' := by
  rw [List.prod_cons, prod_set (lt_length hn)] at h
  rw [prod_eq hn, mul_comm P P', mul_assoc]
  exact h

end

/-! ## Loops -/

theorem loop_from {inv : Nat → Assertion V} {body : Nat → Mem V Q R C Unit} :
    ∀ {i n : Nat}, (∀ j, i ≤ j → j < i + n → Triple legal (inv j) (body j) fun _ => inv (j + 1)) →
      Triple legal (inv i) (loop body i n) fun _ => inv (i + n)
  | i, 0, _ => pure fun _ h => h
  | i, n + 1, h => by
    have hrest : Triple legal (inv (i + 1)) (Memory.loop body (i + 1) n) fun _ => inv (i + 1 + n) :=
      loop_from fun j hlo hhi => h j (by omega) (by omega)
    rw [Nat.add_right_comm i 1 n] at hrest
    exact bind (l := fun _ => Pure.pure ()) (h i (Nat.le_refl i) (by omega)) fun _ _ => hrest

/-- An invariant that each pass through the body takes one further holds at the end. -/
theorem loop (inv : Nat → Assertion V) (body : Nat → Mem V Q R C Unit) {n : Nat}
    (h : ∀ j < n, Triple legal (inv j) (body j) fun _ => inv (j + 1)) :
    Triple legal (inv 0) (Memory.loop body 0 n) fun _ => inv n := by
  have hl : Triple legal (inv 0) (Memory.loop body 0 n) fun _ => inv (0 + n) :=
    loop_from fun j _ hj => h j (by omega)
  rwa [Nat.zero_add] at hl

/-- Cells written over the cells from `i` on. -/
theorem storeAll {q : Ptr} : ∀ {vs : List V} {b : List (Option V)} {i : Nat},
    i + vs.length ≤ b.length →
      Triple legal (block q b) (storeAll q i vs : Mem V Q R C Unit)
        fun _ => block q (b.take i ++ vs.map some ++ b.drop (i + vs.length))
  | [], b, i, _ => pure fun m h => by simpa using h
  | v :: vs, b, i, h => by
    rw [List.length_cons] at h
    have hrest : Triple legal (block q (b.set i (some v)))
        (Memory.storeAll q (i + 1) vs : Mem V Q R C Unit) _ :=
      storeAll (by rw [List.length_set]; omega)
    have he : (b.set i (some v)).take (i + 1) ++ vs.map some ++
        (b.set i (some v)).drop (i + 1 + vs.length) =
        b.take i ++ (v :: vs).map some ++ b.drop (i + (v :: vs).length) := by
      rw [List.take_add_one, List.take_set_of_le (Nat.le_refl i), List.getElem?_set_self (by omega),
        List.drop_set_of_lt (by omega), List.length_cons, Nat.add_right_comm i 1, ← Nat.add_assoc]
      simp
    rw [he] at hrest
    refine of_eq (mul_one _).symm (store (by omega) ?_)
    exact of_eq (mul_one _) hrest

end Refines

end Memory
