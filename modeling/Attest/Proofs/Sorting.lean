import Attest.Sorting
import Mathlib.Data.List.Forall2
import Mathlib.Data.List.Perm.Basic

/-!
Sorting by insertion.

The result holds the same elements, none of which is smaller than one before it, and two elements
that may stay as they stood do.  A list that is in order already stays as it is.
-/

namespace Attest
namespace Sorting

variable {α : Type} {less : α → α → Bool}

theorem insertFalling_perm (less : α → α → Bool) (x : α) (xs : List α) :
    (insertFalling less x xs).Perm (x :: xs) := by
  induction xs with
  | nil => exact .refl _
  | cons y ys ih =>
    unfold insertFalling
    split
    · exact (ih.cons y).trans (.swap x y ys)
    · exact .refl _

theorem sort_perm (less : α → α → Bool) (xs : List α) : (sort less xs).Perm xs := by
  have hfold : ∀ (ys acc : List α),
      (ys.foldl (fun acc x => insertFalling less x acc) acc).Perm (ys ++ acc) := by
    intro ys
    induction ys with
    | nil => exact fun acc => .refl acc
    | cons y ys ih =>
      intro acc
      refine (ih (insertFalling less y acc)).trans ?_
      refine ((insertFalling_perm less y acc).append_left ys).trans ?_
      exact List.perm_middle
  have := hfold xs []
  rw [List.append_nil] at this
  exact (List.reverse_perm _).trans this

/-- No element is smaller than one before it. -/
def Rising (less : α → α → Bool) (xs : List α) : Prop :=
  xs.Pairwise fun a b => less b a = false

theorem sort_of_rising {xs : List α} (h : Rising less xs) : sort less xs = xs := by
  -- the elements that are in already stand in falling order, and the next goes to their front
  have hfold : ∀ (ys acc : List α), Rising less (acc.reverse ++ ys) →
      ys.foldl (fun acc x => insertFalling less x acc) acc = ys.reverse ++ acc := by
    intro ys
    induction ys with
    | nil => exact fun acc _ => rfl
    | cons y ys ih =>
      intro acc hacc
      have hfront : insertFalling less y acc = y :: acc := by
        cases acc with
        | nil => rfl
        | cons z acc =>
          have hzy : less y z = false :=
            (List.pairwise_append.mp hacc).2.2 z (by simp) y List.mem_cons_self
          rw [insertFalling, hzy, if_neg (by decide)]
      rw [List.foldl_cons, hfront, ih (y :: acc) (by simpa using hacc), List.reverse_cons,
        List.append_assoc, List.singleton_append]
  unfold sort
  rw [hfold xs [] h, List.append_nil, List.reverse_reverse]

section Related

variable {β : Type} {less' : β → β → Bool} {R : α → β → Prop}
  (hless : ∀ a a' b b', R a b → R a' b' → less a a' = less' b b')

include hless

theorem insertFalling_forall₂ {x : α} {y : β} {xs : List α} {ys : List β} (hxy : R x y)
    (h : List.Forall₂ R xs ys) :
    List.Forall₂ R (insertFalling less x xs) (insertFalling less' y ys) := by
  induction h with
  | nil => exact .cons hxy .nil
  | cons hab hrest ih =>
    rw [insertFalling, insertFalling, hless _ _ _ _ hxy hab]
    split
    · exact .cons hab ih
    · exact .cons hxy (.cons hab hrest)

/-- Sorting looks at nothing but how the elements compare. -/
theorem sort_forall₂ {xs : List α} {ys : List β} (h : List.Forall₂ R xs ys) :
    List.Forall₂ R (sort less xs) (sort less' ys) := by
  refine List.forall₂_reverse_iff.mpr (List.rel_foldl ?_ .nil h)
  intro acc acc' hacc a b hab
  exact insertFalling_forall₂ hless hab hacc

end Related

theorem sort_map {β : Type} (f : β → α) (xs : List β) :
    sort less (xs.map f) = (sort (fun a b => less (f a) (f b)) xs).map f := by
  have hmap : List.Forall₂ (fun a b => a = f b) (xs.map f) xs :=
    List.forall₂_map_left_iff.mpr (List.forall₂_same.mpr fun _ _ => rfl)
  have hless : ∀ a a' b b', a = f b → a' = f b' → less a a' = less (f b) (f b') := by
    rintro _ _ b b' rfl rfl
    rfl
  rw [← List.forall₂_eq_eq_eq]
  exact List.forall₂_map_right_iff.mpr (sort_forall₂ hless hmap)

theorem sort_congr {less' : α → α → Bool} {xs : List α}
    (h : ∀ a ∈ xs, ∀ b ∈ xs, less a b = less' a b) : sort less xs = sort less' xs := by
  have hsame : List.Forall₂ (fun a b => a = b ∧ a ∈ xs) xs xs :=
    List.forall₂_same.mpr fun a ha => ⟨rfl, ha⟩
  have hless : ∀ a a' b b', a = b ∧ a ∈ xs → a' = b' ∧ a' ∈ xs → less a a' = less' b b' := by
    rintro a a' _ _ ⟨rfl, ha⟩ ⟨rfl, ha'⟩
    exact h a ha a' ha'
  rw [← List.forall₂_eq_eq_eq]
  exact (sort_forall₂ hless hsame).imp fun _ _ hab => hab.1

theorem sort_pair (less : α → α → Bool) (a b : α) :
    sort less [a, b] = if less b a then [b, a] else [a, b] := by
  show (insertFalling less b [a]).reverse = _
  rw [insertFalling]
  split <;> rfl

theorem sublist_foldl_insertFalling (less : α → α → Bool) (xs acc : List α) :
    acc.Sublist (xs.foldl (fun acc x => insertFalling less x acc) acc) := by
  have hinsert : ∀ (x : α) (ys : List α), ys.Sublist (insertFalling less x ys) := by
    intro x ys
    induction ys with
    | nil => exact List.nil_sublist _
    | cons y ys ih =>
      unfold insertFalling
      split
      · exact ih.cons_cons y
      · exact List.sublist_cons_self x _
  induction xs generalizing acc with
  | nil => exact List.Sublist.refl acc
  | cons x xs ih => exact (hinsert x acc).trans (ih _)

/-- An element stops before any that it is not smaller than. -/
theorem pair_sublist_insertFalling {a b : α} {xs : List α} (h : less b a = false) (ha : a ∈ xs) :
    [b, a].Sublist (insertFalling less b xs) := by
  induction xs with
  | nil => cases ha
  | cons y ys ih =>
    unfold insertFalling
    split
    · next hby =>
      rcases List.mem_cons.mp ha with rfl | ha
      · rw [h] at hby
        cases hby
      · exact (ih ha).cons y
    · exact (List.singleton_sublist.mpr ha).cons_cons b

/-- Sorting is stable: it keeps two elements in place of which the second is not smaller. -/
theorem pair_sublist_sort {a b : α} {xs : List α} (h : less b a = false)
    (hs : [a, b].Sublist xs) : [a, b].Sublist (sort less xs) := by
  obtain ⟨front, back, rfl, ha, hb⟩ := List.cons_sublist_iff.mp hs
  obtain ⟨between, rest, rfl⟩ := List.append_of_mem (List.singleton_sublist.mp hb)
  -- when `b` comes, `a` is in already, and nothing that comes later parts them
  have hmem : a ∈ (front ++ between).foldl (fun acc x => insertFalling less x acc) [] := by
    rw [← List.mem_reverse]
    exact (sort_perm less _).mem_iff.mpr (List.mem_append_left between ha)
  have hpair := (pair_sublist_insertFalling h hmem).trans (sublist_foldl_insertFalling less rest _)
  unfold sort
  rw [← List.append_assoc, List.foldl_append, List.foldl_cons]
  exact List.reverse_sublist.mpr hpair

section WeakOrder

variable (hasymm : ∀ a b, less a b = true → less b a = false)
  (htrans : ∀ a b c, less a b = false → less b c = false → less a c = false)

include hasymm htrans

theorem pairwise_insertFalling {x : α} {xs : List α}
    (h : xs.Pairwise fun a b => less a b = false) :
    (insertFalling less x xs).Pairwise fun a b => less a b = false := by
  induction xs with
  | nil => exact List.pairwise_singleton _ _
  | cons y ys ih =>
    rw [List.pairwise_cons] at h
    unfold insertFalling
    split
    · next hxy =>
      refine List.pairwise_cons.mpr ⟨fun z hz => ?_, ih h.2⟩
      rcases List.mem_cons.mp ((insertFalling_perm less x ys).mem_iff.mp hz) with rfl | hz
      · exact hasymm _ _ hxy
      · exact h.1 z hz
    · next hxy =>
      have hxy : less x y = false := by simpa using hxy
      refine List.pairwise_cons.mpr ⟨fun z hz => ?_, List.pairwise_cons.mpr h⟩
      rcases List.mem_cons.mp hz with rfl | hz
      · exact hxy
      · exact htrans _ _ _ hxy (h.1 z hz)

theorem rising_sort (xs : List α) : Rising less (sort less xs) := by
  have hfold : ∀ (ys acc : List α), (acc.Pairwise fun a b => less a b = false) →
      (ys.foldl (fun acc x => insertFalling less x acc) acc).Pairwise
        fun a b => less a b = false := by
    intro ys
    induction ys with
    | nil => exact fun acc h => h
    | cons y ys ih => exact fun acc h => ih _ (pairwise_insertFalling hasymm htrans h)
  exact List.pairwise_reverse.mpr (hfold xs [] .nil)

/-- Two lists of the same elements sort to the same list if no two of them compare equal. -/
theorem sort_eq_of_perm {xs ys : List α} (h : xs.Perm ys)
    (hne : ∀ a ∈ ys, ∀ b ∈ ys, less a b = false → less b a = false → a = b) :
    sort less xs = sort less ys := by
  have hperm : (sort less xs).Perm (sort less ys) :=
    (sort_perm less xs).trans (h.trans (sort_perm less ys).symm)
  refine hperm.eq_of_pairwise (fun a b ha hb hba hab => ?_) (rising_sort hasymm htrans xs)
    (rising_sort hasymm htrans ys)
  have ha : a ∈ ys := h.mem_iff.mp ((sort_perm less xs).mem_iff.mp ha)
  have hb : b ∈ ys := (sort_perm less ys).mem_iff.mp hb
  exact hne a ha b hb hab hba

end WeakOrder

end Sorting
end Attest
