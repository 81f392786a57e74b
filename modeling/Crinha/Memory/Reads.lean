import Crinha.Memory.Pointers

/-!
# Reading the heap

`Reads P m a`: wherever `P` holds of a part of the heap, `m` returns `a` and changes
nothing. A read of one part is a read of any parts with it.
-/

namespace Memory
open Pipeline Assertion

variable {V Q R C A A' B B' Y : Type}

def Reads (P : Assertion V) (m : Mem V Q R C A) (a : A) : Prop :=
  ∀ h f, P h → h.Disjoint f → m (h ∪ f) = .done (a, h ∪ f)

namespace Reads

variable {P P' F : Assertion V} {m : Mem V Q R C A} {a : A} {k : A → Mem V Q R C B} {b : B}

theorem pure : Reads P (pure a : Mem V Q R C A) a := fun _ _ _ _ => rfl

theorem bind (hm : Reads P m a) (hk : Reads P (k a) b) : Reads P (m >>= k) b := by
  intro h f hP hd
  show m (h ∪ f) >>= (fun x => k x.1 x.2) = _
  rw [hm h f hP hd]
  exact hk h f hP hd

theorem frame (hm : Reads P m a) : Reads (P * F) m a := by
  rintro _ f ⟨h₁, h₂, hd, rfl, hP, _⟩ hdf
  obtain ⟨hd₁, _⟩ := (Finmap.disjoint_union_left _ _ _).mp hdf
  rw [Finmap.union_assoc]
  exact hm h₁ (h₂ ∪ f) hP ((Finmap.disjoint_union_right _ _ _).mpr ⟨hd, hd₁⟩)

theorem frame_left (hm : Reads P m a) : Reads (F * P) m a := by
  rw [mul_comm]
  exact hm.frame

theorem of_ex {X : Type} {P : X → Assertion V} (h : ∀ x, Reads (P x) m a) : Reads (ex P) m a :=
  fun h' f ⟨x, hx⟩ hd => h x h' f hx hd

theorem loadAs {of : V → Option A} {q : Ptr} {b : List (Option V)} {i : Nat} {v : V}
    (hi : b[i]? = some (some v)) (hv : of v = some a) :
    Reads (block q b) (loadAs of q i : Mem V Q R C A) a := by
  rintro _ f ⟨hq, rfl⟩ _
  exact loadAs_done (by rw [Memory.load, block_cells hq, Option.bind_some, hi]) hv

/-- What is read through the `i`-th pointer of an array. -/
theorem pointers {c : Ptr → V} {of : V → Option Ptr} {P : Ptr → Y → Assertion V} {q : Ptr}
    {ys : List Y} {y : Y} {i : Nat} {k : Ptr → Mem V Q R C B} (hc : ∀ p, of (c p) = some p)
    (hy : ys[i]? = some y) (hk : ∀ p, Reads (P p y) (k p) b) :
    Reads (pointers c P q ys) (Memory.loadAs of q i >>= k) b := by
  refine of_ex fun ps h f hh hd => ?_
  obtain ⟨h₁, h₂, hd', rfl, hb, he⟩ := id hh
  obtain ⟨p, hp, hh₂⟩ := each_get hy he
  have hcell : (ptrs c ps)[i]? = some (some (c p)) := by simp [ptrs, hp]
  exact bind (P := block q (ptrs c ps) * (P p y * _)) (loadAs hcell (hc p)).frame
    (hk p).frame.frame_left _ f ⟨h₁, h₂, hd', rfl, hb, hh₂⟩ hd

end Reads

/-- A read next to other parts of the heap. -/
theorem Refines.readAt {legal : Q → R → Prop} {L : List (Assertion V)} (n : Nat) {P : Assertion V}
    {m : Mem V Q R C A} {a : A} {k : A → Mem V Q R C B} {p : Prog Q R C B'}
    {Q' : B → B' → Assertion V} (hn : L[n]? = some P) (hm : Reads P m a)
    (h : Refines legal L.prod (k a) p Q') : Refines legal L.prod (m >>= k) p Q' := by
  rw [prod_eq hn] at h ⊢
  intro h' f hP hd
  show Mirrors legal _ (m (h' ∪ f) >>= fun x => k x.1 x.2) p
  rw [hm.frame h' f hP hd]
  exact h h' f hP hd

end Memory
