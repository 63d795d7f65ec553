import Attest.ByName
import Mathlib.Data.List.Nodup
import Mathlib.Data.List.Perm.Basic
import Mathlib.Data.String.Basic

/-!
Values by name.

Setting keeps the order of the names.  Where no name comes twice, the result holds what was set,
and a list that is in order already stays as it is.
-/

namespace Attest
namespace ByName

variable {α : Type}

theorem lookup_eq_some_iff {m : List (String × α)} (h : (m.map Prod.fst).Nodup) {name : String}
    {a : α} : m.lookup name = some a ↔ (name, a) ∈ m := by
  induction m with
  | nil => simp
  | cons e m ih =>
    obtain ⟨k, b⟩ := e
    rw [List.map_cons, List.nodup_cons] at h
    rw [List.lookup_cons, List.mem_cons, Prod.mk.injEq]
    by_cases hk : name = k
    · subst hk
      have hnot : (name, a) ∉ m := fun hmem => h.1 (List.mem_map.mpr ⟨_, hmem, rfl⟩)
      simp [hnot, eq_comm]
    · simp [hk, beq_eq_false_iff_ne.mpr hk, ih h.2]

theorem lookup_perm {m m' : List (String × α)} (h : m.Perm m') (hn : (m.map Prod.fst).Nodup)
    (name : String) : m.lookup name = m'.lookup name := by
  have hn' : (m'.map Prod.fst).Nodup := (h.map Prod.fst).nodup_iff.mp hn
  apply Option.ext
  intro a
  rw [lookup_eq_some_iff hn, lookup_eq_some_iff hn', h.mem_iff]

/-- The names rise, and so none comes twice. -/
def Sorted (m : ByName α) : Prop := m.Pairwise fun a b => a.1 < b.1

theorem Sorted.nodup {m : ByName α} (h : m.Sorted) : (m.map Prod.fst).Nodup :=
  List.pairwise_map.mpr (h.imp fun hlt => ne_of_lt hlt)

/-- Lists in order with the same entries are the same. -/
theorem Sorted.eq_of_perm {m m' : ByName α} (h : m.Sorted) (h' : m'.Sorted) (hp : m.Perm m') :
    m = m' :=
  hp.eq_of_pairwise (fun _ _ _ _ hab hba => absurd hab (not_lt_of_gt hba)) h h'

theorem mem_names_set {name k : String} {a : α} {m : ByName α} :
    k ∈ (set name a m).map Prod.fst ↔ k = name ∨ k ∈ m.map Prod.fst := by
  induction m with
  | nil => simp [set]
  | cons e m ih =>
    obtain ⟨l, b⟩ := e
    unfold set
    split_ifs with heq hlt
    · rw [eq_of_beq heq]
      simp
    · simp
    · rw [List.map_cons, List.mem_cons, ih, List.map_cons, List.mem_cons]
      tauto

theorem get?_set (name : String) (a : α) (m : ByName α) (k : String) :
    (set name a m).get? k = if k = name then some a else m.get? k := by
  unfold get?
  by_cases hk : k = name
  · subst hk
    rw [if_pos rfl]
    induction m with
    | nil => simp [set]
    | cons e m ih =>
      unfold set
      split_ifs with heq hlt
      · rw [List.lookup_cons, heq]
      · simp
      · rw [List.lookup_cons, Bool.eq_false_of_not_eq_true heq]
        exact ih
  · rw [if_neg hk]
    induction m with
    | nil => rw [set, List.lookup_cons, beq_false_of_ne hk]
    | cons e m ih =>
      unfold set
      split_ifs with heq hlt
      · rw [List.lookup_cons, List.lookup_cons, ← eq_of_beq heq, beq_false_of_ne hk]
      · rw [List.lookup_cons, beq_false_of_ne hk]
      · rw [List.lookup_cons, List.lookup_cons, ih]

/-- Of the values that are set for a name, the last one stays. -/
theorem get?_setAll (m : ByName α) (entries : List (String × α)) (name : String) :
    (m.setAll entries).get? name = (entries.reverse.lookup name).or (m.get? name) := by
  induction entries generalizing m with
  | nil => rfl
  | cons e entries ih =>
    obtain ⟨k, a⟩ := e
    show ((set k a m).setAll entries).get? name = _
    rw [ih, get?_set, List.reverse_cons, List.lookup_append, Option.or_assoc]
    congr 1
    by_cases h : name = k
    · simp [h]
    · simp [h, List.lookup_cons, beq_false_of_ne h]

theorem get?_ofList (entries : List (String × α)) (name : String) :
    (ofList entries).get? name = entries.reverse.lookup name := by
  rw [ofList, get?_setAll]
  exact Option.or_none

theorem get?_erase (m : ByName α) (name k : String) :
    (m.erase name).get? k = if k = name then none else m.get? k := by
  unfold get? erase
  induction m with
  | nil => simp
  | cons e m ih =>
    obtain ⟨l, b⟩ := e
    rw [List.filter_cons]
    by_cases hl : l = name
    · rw [if_neg (by simpa using hl), ih, List.lookup_cons]
      by_cases hk : k = name
      · rw [if_pos hk, if_pos hk]
      · rw [if_neg hk, if_neg hk, beq_false_of_ne (hl ▸ hk)]
    · rw [if_pos (by simpa using hl), List.lookup_cons, List.lookup_cons, ih]
      by_cases hk : k = l
      · subst hk
        simp [hl]
      · rw [beq_false_of_ne hk]

theorem mem_of_get? {m : ByName α} {name : String} {a : α} (h : m.get? name = some a) :
    (name, a) ∈ m := by
  unfold get? at h
  induction m with
  | nil => cases h
  | cons e m ih =>
    obtain ⟨k, b⟩ := e
    rw [List.lookup_cons] at h
    split at h
    · next heq =>
      cases h
      rw [eq_of_beq heq]
      exact List.mem_cons_self
    · exact List.mem_cons_of_mem _ (ih h)

theorem mem_set {name : String} {a : α} {m : ByName α} {e : String × α} (h : e ∈ set name a m) :
    e = (name, a) ∨ e ∈ m := by
  induction m with
  | nil => exact .inl (List.mem_singleton.mp h)
  | cons d m ih =>
    unfold set at h
    split_ifs at h with heq hlt
    · rw [eq_of_beq heq]
      rcases List.mem_cons.mp h with rfl | h
      · exact .inl rfl
      · exact .inr (List.mem_cons_of_mem _ h)
    · exact List.mem_cons.mp h
    · rcases List.mem_cons.mp h with rfl | h
      · exact .inr List.mem_cons_self
      · exact (ih h).imp_right (List.mem_cons_of_mem _)

theorem mem_setAll {m : ByName α} {entries : List (String × α)} {e : String × α}
    (h : e ∈ setAll m entries) : e ∈ m ∨ e ∈ entries := by
  induction entries generalizing m with
  | nil => exact .inl h
  | cons d entries ih =>
    rcases ih h with h | h
    · rcases mem_set h with rfl | h
      · exact .inr List.mem_cons_self
      · exact .inl h
    · exact .inr (List.mem_cons_of_mem d h)

theorem mem_ofList {entries : List (String × α)} {e : String × α} (h : e ∈ ofList entries) :
    e ∈ entries := (mem_setAll h).resolve_left List.not_mem_nil

theorem sorted_set {m : ByName α} (h : m.Sorted) (name : String) (a : α) :
    (set name a m).Sorted := by
  induction m with
  | nil => exact List.pairwise_singleton _ _
  | cons e m ih =>
    obtain ⟨k, b⟩ := e
    obtain ⟨hk, hm⟩ := List.pairwise_cons.mp h
    unfold set
    split_ifs with heq hlt
    · exact List.pairwise_cons.mpr ⟨hk, hm⟩
    · refine List.pairwise_cons.mpr ⟨fun e he => ?_, h⟩
      rcases List.mem_cons.mp he with rfl | he
      · exact hlt
      · exact lt_trans hlt (hk e he)
    · have hne : name ≠ k := fun h => heq (beq_iff_eq.mpr h)
      have hkn : k < name := lt_of_le_of_ne (not_lt.mp hlt) hne.symm
      refine List.pairwise_cons.mpr ⟨fun e he => ?_, ih hm⟩
      rcases mem_names_set.mp (List.mem_map_of_mem (f := Prod.fst) he) with hname | hmem
      · exact hname ▸ hkn
      · obtain ⟨e', he', hfst⟩ := List.mem_map.mp hmem
        exact hfst ▸ hk e' he'

theorem set_perm {name : String} {a : α} {m : ByName α} (h : name ∉ m.map Prod.fst) :
    (set name a m).Perm ((name, a) :: m) := by
  induction m with
  | nil => exact .refl _
  | cons e m ih =>
    obtain ⟨k, b⟩ := e
    rw [List.map_cons, List.mem_cons, not_or] at h
    unfold set
    rw [if_neg (by simpa using h.1)]
    split
    · exact .refl _
    · exact ((ih h.2).cons (k, b)).trans (.swap _ _ _)

theorem sorted_setAll {m : ByName α} (h : m.Sorted) (entries : List (String × α)) :
    (setAll m entries).Sorted := by
  induction entries generalizing m with
  | nil => exact h
  | cons e entries ih => exact ih (sorted_set h e.1 e.2)

theorem sorted_ofList (entries : List (String × α)) : (ofList entries).Sorted :=
  sorted_setAll .nil entries

theorem setAll_perm {m : ByName α} {entries : List (String × α)}
    (h : ((m ++ entries).map Prod.fst).Nodup) : (setAll m entries).Perm (m ++ entries) := by
  induction entries generalizing m with
  | nil => exact .of_eq (List.append_nil m).symm
  | cons e entries ih =>
    obtain ⟨name, a⟩ := e
    have hmiddle : (m ++ (name, a) :: entries).Perm ((name, a) :: (m ++ entries)) :=
      List.perm_middle
    have hnodup := (hmiddle.map Prod.fst).nodup_iff.mp h
    have hfresh : name ∉ m.map Prod.fst := by
      rw [List.map_cons, List.nodup_cons, List.map_append] at hnodup
      exact fun hmem => hnodup.1 (List.mem_append_left _ hmem)
    have hset : (set name a m ++ entries).Perm ((name, a) :: (m ++ entries)) :=
      (set_perm hfresh).append_right entries
    exact (ih ((hset.map Prod.fst).nodup_iff.mpr hnodup)).trans (hset.trans hmiddle.symm)

theorem ofList_perm {entries : List (String × α)} (h : (entries.map Prod.fst).Nodup) :
    (ofList entries).Perm entries := setAll_perm h

theorem ofList_of_sorted {m : ByName α} (h : m.Sorted) : ofList m = m :=
  (sorted_ofList m).eq_of_perm h (ofList_perm h.nodup)

end ByName
end Attest
