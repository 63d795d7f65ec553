import Attest.Proofs.Sorting
import Mathlib.Order.Lattice

/-!
Stable sorting, said without an algorithm.

A list is sorted stably if no element is smaller than one before it and the elements that are tied
with any one of them are a list that has not changed.  Where `less` is a weak order among the
elements there is one such list, and `sort` gives it.  The order may be a weak one only among the
elements at hand, so it is asked for no more than a property that they share.
-/

namespace Attest
namespace Sorting

variable {α : Type} {less : α → α → Bool} {P : α → Prop} {xs ys zs : List α}

/-- Whether neither of two elements is smaller. -/
def tied (less : α → α → Bool) (a b : α) : Bool := !less a b && !less b a

theorem tied_iff {a b : α} : tied less a b = true ↔ less a b = false ∧ less b a = false := by
  simp [tied]

/-- The second list is the first one sorted, with tied elements as they stood. -/
structure StablySorted (less : α → α → Bool) (xs ys : List α) : Prop where
  perm : ys.Perm xs
  rising : Rising less ys
  stable : ∀ a ∈ xs, ys.filter (tied less a) = xs.filter (tied less a)

/-- Being smaller is a weak order among the elements with a property. -/
structure WeakOrder (P : α → Prop) (less : α → α → Bool) : Prop where
  asymm : ∀ a b, P a → P b → less a b = true → less b a = false
  trans : ∀ a b c, P a → P b → P c → less a b = false → less b c = false → less a c = false

namespace WeakOrder

theorem irrefl (h : WeakOrder P less) {a : α} (ha : P a) : less a a = false := by
  by_contra haa
  rw [Bool.not_eq_false] at haa
  exact absurd haa (by simp [h.asymm a a ha ha haa])

theorem flip (h : WeakOrder P less) : WeakOrder P fun a b => less b a where
  asymm a b ha hb hba := h.asymm b a hb ha hba
  trans a b c ha hb hc hba hcb := h.trans c b a hc hb ha hcb hba

theorem of_key {β : Type} [LinearOrder β] (f : α → β)
    (h : ∀ a b, P a → P b → (less a b = true ↔ f a < f b)) : WeakOrder P less where
  asymm a b ha hb hab := by
    rw [h a b ha hb] at hab
    rw [← Bool.not_eq_true, h b a hb ha]
    exact hab.asymm
  trans a b c ha hb hc hab hbc := by
    rw [← Bool.not_eq_true, h _ _ ha hb, not_lt] at hab
    rw [← Bool.not_eq_true, h _ _ hb hc, not_lt] at hbc
    rw [← Bool.not_eq_true, h _ _ ha hc, not_lt]
    exact hbc.trans hab

/-- The order by one order, and then by another. -/
theorem lex {less' : α → α → Bool} (h : WeakOrder P less) (h' : WeakOrder P less') :
    WeakOrder P fun a b => less a b || (!less b a && less' a b) where
  asymm a b ha hb hab := by
    have hasymm := h.asymm a b ha hb
    have hasymm' := h'.asymm a b ha hb
    cases hlt : less a b with
    | true => simp [hasymm hlt]
    | false =>
      rw [hlt, Bool.false_or, Bool.and_eq_true, Bool.not_eq_true'] at hab
      simp [hab.1, hasymm' hab.2]
  trans a b c ha hb hc hab hbc := by
    simp only [Bool.or_eq_false_iff, Bool.and_eq_false_iff, Bool.not_eq_false'] at hab hbc ⊢
    have hac := h.trans a b c ha hb hc hab.1 hbc.1
    refine ⟨hac, ?_⟩
    -- If the first order parts `a` and `c`, it has parted one of them from `b`.
    by_cases hca : less c a = true
    · exact .inl hca
    · rw [Bool.not_eq_true] at hca
      have hba := h.trans b c a hb hc ha hbc.1 hca
      have hcb := h.trans c a b hc ha hb hca hab.1
      rw [hba] at hab
      rw [hcb] at hbc
      simp only [Bool.false_eq_true, false_or] at hab hbc
      exact .inr (h'.trans a b c ha hb hc hab.2 hbc.2)

end WeakOrder

def orderOf (less : α → α → Bool) (a b : α) : Ordering :=
  if less a b then .lt else if less b a then .gt else .eq

theorem orderOf_beq_lt (less : α → α → Bool) (a b : α) : (orderOf less a b == .lt) = less a b := by
  unfold orderOf
  cases less a b <;> cases less b a <;> rfl

theorem swap_orderOf {a b : α} (h : less a b = true → less b a = false) :
    (orderOf less a b).swap = orderOf (fun a b => less b a) a b := by
  unfold orderOf
  by_cases hab : less a b = true
  · simp [hab, h hab]
  · by_cases hba : less b a = true
    · simp [hab, hba]
    · simp [hab, hba]

theorem orderOf_then (less less' : α → α → Bool) (a b : α) :
    (orderOf less a b).then (orderOf less' a b) =
      orderOf (fun a b => less a b || (!less b a && less' a b)) a b := by
  unfold orderOf
  by_cases hab : less a b = true
  · simp [hab]
  · by_cases hba : less b a = true
    · simp [hab, hba]
    · simp [hab, hba]

theorem rising_sort_of_weakOrder (h : WeakOrder P less) (hP : ∀ a ∈ xs, P a) :
    Rising less (sort less xs) := by
  have hmap : sort less xs =
      (sort (fun a b : { a // a ∈ xs } => less a.1 b.1) xs.attach).map Subtype.val := by
    rw [← sort_map, List.attach_map_subtype_val]
  rw [hmap]
  refine List.pairwise_map.mpr (rising_sort ?_ ?_ xs.attach)
  · intro a b
    exact h.asymm a.1 b.1 (hP a.1 a.2) (hP b.1 b.2)
  · intro a b c
    exact h.trans a.1 b.1 c.1 (hP a.1 a.2) (hP b.1 b.2) (hP c.1 c.2)

section Filter

variable {p : α → Bool}

theorem filter_insertFalling {x : α}
    (h : ∀ y ∈ ys, less x y = true → p x = true → p y = false) :
    (insertFalling less x ys).filter p = (x :: ys).filter p := by
  induction ys with
  | nil => rfl
  | cons y ys ih =>
    have ih := ih fun z hz => h z (List.mem_cons_of_mem y hz)
    unfold insertFalling
    by_cases hxy : less x y = true
    · rw [if_pos hxy, List.filter_cons, ih]
      by_cases hx : p x = true
      · have hy := h y List.mem_cons_self hxy hx
        simp [hx, hy]
      · simp [List.filter_cons, hx]
    · rw [if_neg hxy]

/-- Sorting leaves a choice of elements as it was if it never parts two of them. -/
theorem filter_sort (h : ∀ x ∈ xs, ∀ y ∈ xs, less x y = true → p x = true → p y = false) :
    (sort less xs).filter p = xs.filter p := by
  have hfold : ∀ (ys acc : List α), (∀ y ∈ ys, y ∈ xs) → (∀ y ∈ acc, y ∈ xs) →
      (ys.foldl (fun acc x => insertFalling less x acc) acc).filter p =
        (ys.reverse ++ acc).filter p := by
    intro ys
    induction ys with
    | nil => exact fun acc _ _ => rfl
    | cons y ys ih =>
      intro acc hys hacc
      have hy := hys y List.mem_cons_self
      have hinsert : (insertFalling less y acc).filter p = (y :: acc).filter p :=
        filter_insertFalling fun z hz => h y hy z (hacc z hz)
      rw [List.foldl_cons, ih]
      · rw [List.filter_append, hinsert, ← List.filter_append, List.reverse_cons,
          List.append_assoc, List.singleton_append]
      · exact fun z hz => hys z (List.mem_cons_of_mem y hz)
      · intro z hz
        rcases List.mem_cons.mp ((insertFalling_perm less y acc).mem_iff.mp hz) with rfl | hz
        · exact hy
        · exact hacc z hz
  unfold sort
  rw [List.filter_reverse, hfold xs [] (fun _ hy => hy) (fun _ hy => by cases hy), List.append_nil,
    List.filter_reverse, List.reverse_reverse]

end Filter

theorem stablySorted_sort (h : WeakOrder P less) (hP : ∀ a ∈ xs, P a) :
    StablySorted less xs (sort less xs) where
  perm := sort_perm less xs
  rising := rising_sort_of_weakOrder h hP
  stable a ha := by
    refine filter_sort fun x hx y hy hxy htied => ?_
    rw [tied_iff] at htied
    rw [← Bool.not_eq_true, tied_iff]
    intro ⟨hay, _⟩
    have := h.trans x a y (hP x hx) (hP a ha) (hP y hy) htied.2 hay
    rw [hxy] at this
    cases this

/-- Nothing in a sorted list is smaller than its head. -/
theorem less_head_eq_false (h : WeakOrder P less) {y z : α} (hz : P z)
    (hr : Rising less (z :: zs)) (hy : y ∈ z :: zs) : less y z = false := by
  rcases List.mem_cons.mp hy with rfl | hy
  · exact h.irrefl hz
  · exact (List.pairwise_cons.mp hr).1 y hy

theorem eq_of_filter_tied (h : WeakOrder P less) (hP : ∀ a ∈ ys, P a) (hperm : ys.Perm zs)
    (hys : Rising less ys) (hzs : Rising less zs)
    (hf : ∀ a ∈ ys, ys.filter (tied less a) = zs.filter (tied less a)) : ys = zs := by
  induction ys generalizing zs with
  | nil => exact hperm.nil_eq
  | cons y ys ih =>
    cases zs with
    | nil => exact absurd hperm.symm.nil_eq (by simp)
    | cons z zs =>
      have hy := hP y List.mem_cons_self
      have hz := hP z (hperm.mem_iff.mpr List.mem_cons_self)
      have hyz := less_head_eq_false h hz hzs (hperm.mem_iff.mp List.mem_cons_self)
      have hzy := less_head_eq_false h hy hys (hperm.mem_iff.mpr List.mem_cons_self)
      have hhead := hf y List.mem_cons_self
      rw [List.filter_cons_of_pos (tied_iff.mpr ⟨h.irrefl hy, h.irrefl hy⟩),
        List.filter_cons_of_pos (tied_iff.mpr ⟨hyz, hzy⟩)] at hhead
      obtain rfl : y = z := (List.cons.inj hhead).1
      have htail := ih (fun a ha => hP a (List.mem_cons_of_mem y ha)) hperm.cons_inv
        (List.pairwise_cons.mp hys).2 (List.pairwise_cons.mp hzs).2 fun a ha => ?_
      · rw [htail]
      · have hall := hf a (List.mem_cons_of_mem y ha)
        rw [List.filter_cons, List.filter_cons] at hall
        split at hall
        · exact (List.cons.inj hall).2
        · exact hall

/-- There is one way to sort a list stably. -/
theorem stablySorted_iff (h : WeakOrder P less) (hP : ∀ a ∈ xs, P a) :
    StablySorted less xs ys ↔ ys = sort less xs := by
  have hsort := stablySorted_sort h hP
  constructor
  · intro hys
    refine eq_of_filter_tied h (fun a ha => hP a (hys.perm.mem_iff.mp ha))
      (hys.perm.trans hsort.perm.symm) hys.rising hsort.rising fun a ha => ?_
    have ha := hys.perm.mem_iff.mp ha
    rw [hys.stable a ha, hsort.stable a ha]
  · rintro rfl
    exact hsort

end Sorting
end Attest
