import Attest.Text.Distance
import Mathlib.Data.List.Induction
import Mathlib.Order.Bounds.Basic

/-!
Edit distance, and the candidate that is closest by it.

The distance of two texts is the least number of edits that lead from one to the other, where an
edit inserts, deletes or replaces one character anywhere.  It is also what the usual recursion over
both texts gives.  The recursion takes characters off the front and the rows of the computation add
them at the end, and the number of edits joins the two, since it does not change when both texts are
reversed.  Of the two rows only the finished one is described: whatever the spare one holds, it is
overwritten before it is read.
-/

namespace Attest
namespace Text

/-- One character is inserted, deleted or replaced. -/
inductive Edit : List Char → List Char → Prop where
  | insert (before after : List Char) (c : Char) : Edit (before ++ after) (before ++ c :: after)
  | delete (before after : List Char) (c : Char) : Edit (before ++ c :: after) (before ++ after)
  | replace (before after : List Char) (c d : Char) :
      Edit (before ++ c :: after) (before ++ d :: after)

inductive Edits : Nat → List Char → List Char → Prop where
  | refl (cs : List Char) : Edits 0 cs cs
  | cons {n : Nat} {cs ds es : List Char} (h : Edit cs ds) (hs : Edits n ds es) :
      Edits (n + 1) cs es

/-- The edit distance by recursion: the first characters are deleted, inserted or put in each
other's place. -/
def editDistance : List Char → List Char → Nat
  | [], ds => ds.length
  | c :: cs, [] => (c :: cs).length
  | c :: cs, d :: ds =>
    min (min (editDistance cs (d :: ds) + 1) (editDistance (c :: cs) ds + 1))
      (editDistance cs ds + if c == d then 0 else 1)
termination_by cs ds => cs.length + ds.length

namespace Edit

variable {cs ds : List Char}

theorem symm (h : Edit cs ds) : Edit ds cs := by
  cases h with
  | insert before after c => exact .delete before after c
  | delete before after c => exact .insert before after c
  | replace before after c d => exact .replace before after d c

theorem cons (h : Edit cs ds) (c : Char) : Edit (c :: cs) (c :: ds) := by
  cases h with
  | insert before after d => exact .insert (c :: before) after d
  | delete before after d => exact .delete (c :: before) after d
  | replace before after d e => exact .replace (c :: before) after d e

theorem reverse (h : Edit cs ds) : Edit cs.reverse ds.reverse := by
  cases h with
  | insert before after c => simpa using Edit.insert after.reverse before.reverse c
  | delete before after c => simpa using Edit.delete after.reverse before.reverse c
  | replace before after c d => simpa using Edit.replace after.reverse before.reverse c d

end Edit

namespace Edits

variable {n m : Nat} {cs ds es : List Char}

theorem trans (h : Edits n cs ds) (h' : Edits m ds es) : Edits (n + m) cs es := by
  induction h with
  | refl => rwa [Nat.zero_add]
  | @cons n _ _ _ hedit _ ih =>
    rw [Nat.add_right_comm]
    exact .cons hedit (ih h')

theorem symm (h : Edits n cs ds) : Edits n ds cs := by
  induction h with
  | refl => exact .refl _
  | cons hedit _ ih => exact ih.trans (.cons hedit.symm (.refl _))

theorem cons_same (h : Edits n cs ds) (c : Char) : Edits n (c :: cs) (c :: ds) := by
  induction h with
  | refl => exact .refl _
  | cons hedit _ ih => exact .cons (hedit.cons c) ih

theorem reverse (h : Edits n cs ds) : Edits n cs.reverse ds.reverse := by
  induction h with
  | refl => exact .refl _
  | cons hedit _ ih => exact .cons hedit.reverse ih

theorem min (h : Edits n cs ds) (h' : Edits m cs ds) : Edits (min n m) cs ds := by
  rw [Nat.min_def]
  split
  · exact h
  · exact h'

theorem of_nil (ds : List Char) : Edits ds.length [] ds := by
  induction ds with
  | nil => exact .refl _
  | cons d ds ih => exact .cons (.insert [] [] d) (ih.cons_same d)

end Edits

section Recursion

variable (c d : Char) (cs ds es : List Char)

@[simp] theorem editDistance_nil_left : editDistance [] ds = ds.length := by rw [editDistance]

@[simp] theorem editDistance_nil_right : editDistance cs [] = cs.length := by
  cases cs with
  | nil => rw [editDistance]
  | cons c cs => rw [editDistance]

theorem editDistance_cons_cons : editDistance (c :: cs) (d :: ds) =
    min (min (editDistance cs (d :: ds) + 1) (editDistance (c :: cs) ds + 1))
      (editDistance cs ds + if c == d then 0 else 1) := by
  rw [editDistance]

/-- The recursion finds a way that is as long as it says. -/
theorem edits_editDistance : Edits (editDistance cs ds) cs ds := by
  fun_induction editDistance cs ds with
  | case1 ds => exact .of_nil ds
  | case2 c cs => exact (Edits.of_nil (c :: cs)).symm
  | case3 c cs d ds ihdelete ihinsert ihboth =>
    have hdelete := Edits.cons (.delete [] cs c) ihdelete
    have hinsert := Edits.cons (.insert [] (c :: cs) d) (ihinsert.cons_same d)
    have hboth : Edits (editDistance cs ds + if c == d then 0 else 1) (c :: cs) (d :: ds) := by
      by_cases hcd : c = d
      · subst hcd
        simpa using ihboth.cons_same c
      · rw [if_neg (by simpa using hcd)]
        exact .cons (.replace [] cs c d) (ihboth.cons_same d)
    exact (hdelete.min hinsert).min hboth

theorem editDistance_self : editDistance cs cs = 0 := by
  induction cs with
  | nil => rw [editDistance_nil_left]; rfl
  | cons c cs ih => simp [editDistance_cons_cons, ih]

theorem editDistance_cons_left_le : editDistance (c :: cs) ds ≤ editDistance cs ds + 1 := by
  cases ds with
  | nil => simp
  | cons d ds => rw [editDistance_cons_cons]; omega

theorem editDistance_cons_right_le : editDistance cs (d :: ds) ≤ editDistance cs ds + 1 := by
  cases cs with
  | nil => simp
  | cons c cs => rw [editDistance_cons_cons]; omega

theorem editDistance_le_cons_left : editDistance cs ds ≤ editDistance (c :: cs) ds + 1 := by
  induction ds with
  | nil => simp; omega
  | cons d ds ih =>
    -- Where `c` is not deleted, the shorter text gets `d` by an insertion instead.
    have hright := editDistance_cons_right_le d cs ds
    rw [editDistance_cons_cons]
    split <;> omega

theorem editDistance_replace_le :
    editDistance (c :: cs) es ≤ editDistance (d :: cs) es + 1 := by
  induction es with
  | nil => simp
  | cons e es ih =>
    rw [editDistance_cons_cons, editDistance_cons_cons]
    split <;> split <;> omega

end Recursion

/-- What is off by one at most for two texts is so with a character before both. -/
theorem editDistance_cons_le {cs ds : List Char}
    (h : ∀ es, editDistance cs es ≤ editDistance ds es + 1) (c : Char) (es : List Char) :
    editDistance (c :: cs) es ≤ editDistance (c :: ds) es + 1 := by
  induction es with
  | nil => simpa using h []
  | cons e es ih =>
    have hdelete := h (e :: es)
    have hboth := h es
    rw [editDistance_cons_cons, editDistance_cons_cons]
    omega

theorem editDistance_append_le {cs ds : List Char}
    (h : ∀ es, editDistance cs es ≤ editDistance ds es + 1) (before es : List Char) :
    editDistance (before ++ cs) es ≤ editDistance (before ++ ds) es + 1 := by
  induction before generalizing es with
  | nil => exact h es
  | cons c before ih => exact editDistance_cons_le ih c es

/-- An edit comes nearer by one at most. -/
theorem Edit.editDistance_le {cs ds : List Char} (h : Edit cs ds) (es : List Char) :
    editDistance cs es ≤ editDistance ds es + 1 := by
  cases h with
  | insert before after c =>
    exact editDistance_append_le (editDistance_le_cons_left c after) before es
  | delete before after c =>
    exact editDistance_append_le (editDistance_cons_left_le c after) before es
  | replace before after c d =>
    exact editDistance_append_le (editDistance_replace_le c d after) before es

theorem Edits.editDistance_le {n : Nat} {cs ds : List Char} (h : Edits n cs ds) :
    editDistance cs ds ≤ n := by
  induction h with
  | refl cs => rw [editDistance_self]
  | cons hedit _ ih => exact (hedit.editDistance_le _).trans (Nat.succ_le_succ ih)

theorem isLeast_editDistance (cs ds : List Char) :
    IsLeast {n | Edits n cs ds} (editDistance cs ds) :=
  ⟨edits_editDistance cs ds, fun _ h => h.editDistance_le⟩

theorem editDistance_reverse (cs ds : List Char) :
    editDistance cs.reverse ds.reverse = editDistance cs ds := by
  apply Nat.le_antisymm
  · exact (edits_editDistance cs ds).reverse.editDistance_le
  · simpa using (edits_editDistance cs.reverse ds.reverse).reverse.editDistance_le

/-- The recursion from the end, which the rows follow. -/
theorem editDistance_concat_concat (cs ds : List Char) (c d : Char) :
    editDistance (cs ++ [c]) (ds ++ [d]) =
      min (min (editDistance cs (ds ++ [d]) + 1) (editDistance (cs ++ [c]) ds + 1))
        (editDistance cs ds + if c == d then 0 else 1) := by
  rw [← editDistance_reverse (cs ++ [c]) (ds ++ [d]), ← editDistance_reverse cs (ds ++ [d]),
    ← editDistance_reverse (cs ++ [c]) ds, ← editDistance_reverse cs ds]
  simpa using editDistance_cons_cons c d cs.reverse ds.reverse

namespace DistanceRows

variable {n : Nat} {as : List Char} {bs : Vector Char n} {above row : Vector Nat (n + 1)}

/-- The first `k` entries of a row are the distances from a text to the beginnings of another. -/
def Measures (as : List Char) (bs : Vector Char n) (k : Nat) (row : Vector Nat (n + 1)) : Prop :=
  ∀ j (h : j < n + 1), j < k → row[j] = editDistance as (bs.toList.take j)

theorem measures_write {a : Char} {j : Nat} (habove : Measures as bs (n + 1) above)
    (hrow : Measures (as ++ [a]) bs (j + 1) row) (hj : j < n) :
    Measures (as ++ [a]) bs (j + 2) (write a bs above row j hj) := by
  intro k hk hlt
  unfold write
  rw [Vector.getElem_set]
  by_cases hwritten : j + 1 = k
  · subst hwritten
    have hlength : j < bs.toList.length := by simpa using hj
    -- All three neighbours are right: two in the row above, and the one written just before.
    rw [if_pos rfl, habove (j + 1) hk hk, habove j (by omega) (by omega),
      hrow j (by omega) (by omega), List.take_succ_eq_append_getElem hlength,
      editDistance_concat_concat, Vector.getElem_toList]
  · rw [if_neg hwritten]
    exact hrow k hk (by omega)

/-- The row is written from the left: behind each step one more entry is right, whatever those
further on may hold. -/
theorem measures_fold {a : Char} (habove : Measures as bs (n + 1) above)
    (hrow : Measures (as ++ [a]) bs 1 row) (k : Nat) (hk : k ≤ n) :
    Measures (as ++ [a]) bs (k + 1)
      (k.fold (fun j h row => write a bs above row j (h.trans_le hk)) row) := by
  induction k with
  | zero => exact hrow
  | succ k ih =>
    rw [Nat.fold_succ]
    exact measures_write habove (ih (by omega)) (by omega)

theorem measures_next {rows : DistanceRows n} (h : Measures as bs (n + 1) rows.finished)
    (a : Char) : Measures (as ++ [a]) bs (n + 1) (rows.next bs a as.length).finished := by
  refine measures_fold h ?_ n (Nat.le_refl n)
  intro j hj hlt
  obtain rfl : j = 0 := by omega
  simp

theorem measures_behind (as : List Char) (bs : Vector Char n) :
    Measures as bs (n + 1) (behind bs as).finished := by
  induction as using List.reverseRecOn with
  | nil =>
    intro j hj hlt
    have hle : j ≤ bs.toList.length := by simpa using Nat.le_of_lt_succ hj
    simpa [behind, first] using (Nat.min_eq_left hle).symm
  | append_singleton as a ih =>
    have hstep : behind bs (as ++ [a]) = (behind bs as).next bs a as.length := by
      simp [behind, List.zipIdx_append]
    rw [hstep]
    exact measures_next ih a

end DistanceRows

theorem distance_eq_editDistance (s t : String) :
    distance s t = editDistance s.toList t.toList := by
  unfold distance
  rw [Vector.back_eq_getElem, DistanceRows.measures_behind _ _ _ _ (by omega)]
  simp

section Nearest

variable {ps rest : List (Nat × String)} {p q : Nat × String}

theorem nearest_cons_of_none (h : nearest rest = none) : nearest (p :: rest) = some p := by
  rw [nearest, h]

theorem nearest_cons_of_some (h : nearest rest = some q) :
    nearest (p :: rest) = if q.1 < p.1 then some q else some p := by
  rw [nearest, h]

theorem nearest_eq_none_iff : nearest ps = none ↔ ps = [] := by
  cases ps with
  | nil => simp [nearest]
  | cons p rest =>
    cases h : nearest rest with
    | none => simp [nearest_cons_of_none h]
    | some q => by_cases hlt : q.1 < p.1 <;> simp [nearest_cons_of_some h, hlt]

/-- The nearest pair is nearer than those before it, and those behind are not nearer. -/
theorem split_of_nearest (h : nearest ps = some p) : ∃ before after, ps = before ++ p :: after ∧
    (∀ q ∈ before, p.1 < q.1) ∧ ∀ q ∈ after, p.1 ≤ q.1 := by
  induction ps generalizing p with
  | nil => cases h
  | cons r rest ih =>
    cases hrest : nearest rest with
    | none =>
      rw [nearest_cons_of_none hrest] at h
      cases h
      rw [nearest_eq_none_iff.mp hrest]
      exact ⟨[], [], rfl, by simp, by simp⟩
    | some q =>
      rw [nearest_cons_of_some hrest] at h
      obtain ⟨before, after, rfl, hbefore, hafter⟩ := ih hrest
      by_cases hlt : q.1 < r.1
      · rw [if_pos hlt] at h
        cases h
        exact ⟨r :: before, after, rfl, List.forall_mem_cons.mpr ⟨hlt, hbefore⟩, hafter⟩
      · rw [if_neg hlt] at h
        cases h
        refine ⟨[], before ++ q :: after, rfl, by simp, ?_⟩
        rw [List.forall_mem_append, List.forall_mem_cons]
        refine ⟨fun x hx => ?_, by omega, fun x hx => ?_⟩
        · have := hbefore x hx
          omega
        · have := hafter x hx
          omega

theorem nearest_of_split {before after : List (Nat × String)} (hbefore : ∀ q ∈ before, p.1 < q.1)
    (hafter : ∀ q ∈ after, p.1 ≤ q.1) : nearest (before ++ p :: after) = some p := by
  induction before with
  | nil =>
    cases hrest : nearest after with
    | none => exact nearest_cons_of_none hrest
    | some q =>
      obtain ⟨before, behind, rfl, -⟩ := split_of_nearest hrest
      have hle := hafter q (by simp)
      rw [List.nil_append, nearest_cons_of_some hrest, if_neg (by omega)]
  | cons r before ih =>
    obtain ⟨hr, hbefore⟩ := List.forall_mem_cons.mp hbefore
    rw [List.cons_append, nearest_cons_of_some (ih hbefore), if_pos hr]

/-- It does not matter whether what lies too far is left out before or afterwards. -/
theorem nearest_filter (k : Nat) (ps : List (Nat × String)) :
    nearest (ps.filter (·.1 ≤ k)) = (nearest ps).filter (·.1 ≤ k) := by
  induction ps with
  | nil => rfl
  | cons r rest ih =>
    by_cases hr : r.1 ≤ k
    · rw [List.filter_cons_of_pos (by simpa using hr)]
      cases hrest : nearest rest with
      | none =>
        rw [hrest] at ih
        rw [nearest_cons_of_none ih, nearest_cons_of_none hrest]
        simp [Option.filter_some, hr]
      | some q =>
        rw [hrest, Option.filter_some] at ih
        rw [nearest_cons_of_some hrest]
        by_cases hq : q.1 ≤ k
        · rw [if_pos (by simpa using hq)] at ih
          rw [nearest_cons_of_some ih]
          by_cases hlt : q.1 < r.1 <;> simp [Option.filter_some, hq, hlt, hr]
        · rw [if_neg (by simpa using hq)] at ih
          rw [nearest_cons_of_none ih, if_neg (by omega)]
          simp [Option.filter_some, hr]
    · rw [List.filter_cons_of_neg (by simpa using hr), ih]
      cases hrest : nearest rest with
      | none =>
        rw [nearest_cons_of_none hrest]
        simp [Option.filter_some, hr]
      | some q =>
        rw [nearest_cons_of_some hrest]
        by_cases hlt : q.1 < r.1
        · rw [if_pos hlt]
        · have hq : ¬ q.1 ≤ k := by omega
          simp [Option.filter_some, hlt, hr, hq]

end Nearest

/-- A candidate that is closer than those before it, and than which none behind is closer. -/
def FirstClosest (target : String) (candidates : List String) (c : String) : Prop :=
  ∃ before after, candidates = before ++ c :: after ∧
    (∀ d ∈ before, distance target c < distance target d) ∧
    ∀ d ∈ after, distance target c ≤ distance target d

section Closest

variable {target : String} {candidates : List String}

theorem nearest_map_eq_some_iff {k : Nat} {c : String} :
    nearest (candidates.map fun c => (distance target c, c)) = some (k, c) ↔
      k = distance target c ∧ FirstClosest target candidates c := by
  constructor
  · intro h
    obtain ⟨before, after, hsplit, hbefore, hafter⟩ := split_of_nearest h
    obtain ⟨cs, rest, rfl, rfl, hrest⟩ := List.map_eq_append_iff.mp hsplit
    obtain ⟨c, ds, rfl, hc, rfl⟩ := List.map_eq_cons_iff.mp hrest
    cases hc
    rw [List.forall_mem_map] at hbefore hafter
    exact ⟨rfl, cs, ds, rfl, hbefore, hafter⟩
  · rintro ⟨rfl, cs, ds, rfl, hbefore, hafter⟩
    rw [List.map_append, List.map_cons]
    exact nearest_of_split (List.forall_mem_map.mpr hbefore) (List.forall_mem_map.mpr hafter)

theorem closest?_eq_some_iff {c : String} : closest? target candidates = some c ↔
    distance target c ≤ distanceLimit target ∧ FirstClosest target candidates c := by
  unfold closest?
  simp only [nearest_filter, Option.map_eq_some_iff, Option.filter_eq_some_iff, Prod.exists,
    nearest_map_eq_some_iff, decide_eq_true_eq]
  constructor
  · rintro ⟨k, c, ⟨⟨rfl, hfirst⟩, hle⟩, rfl⟩
    exact ⟨hle, hfirst⟩
  · rintro ⟨hle, hfirst⟩
    exact ⟨_, c, ⟨⟨rfl, hfirst⟩, hle⟩, rfl⟩

theorem isSome_closest?_iff : (closest? target candidates).isSome = true ↔
    ∃ c ∈ candidates, distance target c ≤ distanceLimit target := by
  unfold closest?
  rw [Option.isSome_map, ← Option.ne_none_iff_isSome, Ne, nearest_eq_none_iff,
    List.filter_eq_nil_iff]
  simp

end Closest

/-- The distance that the rows give is the recursive one and the least number of edits.  There is a
closest candidate just if one lies within the limit, and it is the first that no other comes closer
than. -/
theorem closest_by_distance :
    (∀ s t, distance s t = editDistance s.toList t.toList ∧
      IsLeast {n | Edits n s.toList t.toList} (distance s t)) ∧
    ∀ target candidates,
      ((closest? target candidates).isSome = true ↔
        ∃ c ∈ candidates, distance target c ≤ max 2 (target.length / 3)) ∧
      ∀ c, closest? target candidates = some c ↔
        distance target c ≤ max 2 (target.length / 3) ∧ FirstClosest target candidates c := by
  refine ⟨fun s t => ⟨distance_eq_editDistance s t, ?_⟩, fun target candidates => ?_⟩
  · rw [distance_eq_editDistance]
    exact isLeast_editDistance _ _
  · rw [Nat.max_comm]
    exact ⟨isSome_closest?_iff, fun c => closest?_eq_some_iff⟩

end Text
end Attest
