import Attest.Interval

/-!
What the operations on intervals mean.

Over a linear order an intersection holds what both intervals hold, and a comparison with a constant
gives the interval of what compares so.  The test for emptiness looks at the ends alone: where they
exclude each other nothing is between them.  The converse asks for more, since between two open ends
there may be nothing either, as between four and five; one end that belongs to the interval is
enough.  Ends that do not exclude each other still part the order in three: what lies below the
interval, what it holds, and what lies beyond it.
-/

namespace Attest

namespace Comparison

def converse : Comparison → Comparison
  | eq => eq
  | lt => gt
  | le => ge
  | gt => lt
  | ge => le

/-- What a comparison says of two values. -/
def Holds {α : Type} [LT α] [LE α] : Comparison → α → α → Prop
  | eq, x, y => x = y
  | lt, x, y => x < y
  | le, x, y => x ≤ y
  | gt, x, y => y < x
  | ge, x, y => y ≤ x

theorem holds_converse {α : Type} [LT α] [LE α] {c : Comparison} {x y : α} :
    c.converse.Holds x y ↔ c.Holds y x := by
  cases c with
  | eq => exact eq_comm
  | _ => exact Iff.rfl

end Comparison

namespace Interval

section Ends

variable {α : Type} [LT α] [DecidableLT α]

/-- Of two lower ends one is left, and it is closed if both are. -/
theorem exists_laterLower (a b : Bound α) : ∃ l, laterLower (some a) (some b) = some l ∧
    (a.isOpen = false → b.isOpen = false → l.isOpen = false) := by
  simp only [laterLower]
  split
  · exact ⟨a, rfl, fun ha _ => ha⟩
  · split
    · exact ⟨b, rfl, fun _ hb => hb⟩
    · exact ⟨_, rfl, fun ha hb => by rw [ha, hb]; rfl⟩

theorem exists_earlierUpper (a b : Bound α) : ∃ u, earlierUpper (some a) (some b) = some u := by
  simp only [earlierUpper]
  split
  · exact ⟨a, rfl⟩
  · split
    · exact ⟨b, rfl⟩
    · exact ⟨_, rfl⟩

/-- A comparison cuts a closed interval on one side only, so the other end still belongs to it. -/
theorem exists_ends (c : Comparison) (lo hi v : α) :
    ∃ l u, (closed lo hi).intersect (ofComparison c v) = ⟨some l, some u⟩ ∧
      (l.isOpen = false ∨ u.isOpen = false) := by
  cases c with
  | eq =>
    obtain ⟨l, hl, hclosed⟩ := exists_laterLower ⟨lo, false⟩ ⟨v, false⟩
    obtain ⟨u, hu⟩ := exists_earlierUpper ⟨hi, false⟩ ⟨v, false⟩
    exact ⟨l, u, by rw [← hl, ← hu]; rfl, .inl (hclosed rfl rfl)⟩
  | lt =>
    obtain ⟨u, hu⟩ := exists_earlierUpper ⟨hi, false⟩ ⟨v, true⟩
    exact ⟨⟨lo, false⟩, u, by rw [← hu]; rfl, .inl rfl⟩
  | le =>
    obtain ⟨u, hu⟩ := exists_earlierUpper ⟨hi, false⟩ ⟨v, false⟩
    exact ⟨⟨lo, false⟩, u, by rw [← hu]; rfl, .inl rfl⟩
  | gt =>
    obtain ⟨l, hl, -⟩ := exists_laterLower ⟨lo, false⟩ ⟨v, true⟩
    exact ⟨l, ⟨hi, false⟩, by rw [← hl]; rfl, .inr rfl⟩
  | ge =>
    obtain ⟨l, hl, -⟩ := exists_laterLower ⟨lo, false⟩ ⟨v, false⟩
    exact ⟨l, ⟨hi, false⟩, by rw [← hl]; rfl, .inr rfl⟩

end Ends

variable {α : Type} [LT α] [LE α] [DecidableLT α] [DecidableLE α]

/-- Whether a value lies beyond the upper end of the interval. -/
def isBeyond (i : Interval α) (x : α) : Bool :=
  match i.upper with
  | none => false
  | some u => if u.isOpen then u.value ≤ x else u.value < x

section Closed

variable {lo hi x : α}

theorem isEmpty_closed : (closed lo hi).isEmpty = decide (hi < lo) := rfl

theorem isBelow_closed : (closed lo hi).isBelow x = decide (x < lo) := rfl

/-- Where both ends can be compared with a value, the interval holds what is beyond neither. -/
theorem contains_closed (hlo : lo ≤ x ↔ ¬ x < lo) (hhi : x ≤ hi ↔ ¬ hi < x) :
    (closed lo hi).contains x = (!decide (x < lo) && !decide (hi < x)) := by
  show (decide (lo ≤ x) && decide (x ≤ hi)) = _
  rw [decide_eq_decide.mpr hlo, decide_eq_decide.mpr hhi, decide_not, decide_not]

theorem contains_closed_iff : (closed lo hi).contains x = true ↔ lo ≤ x ∧ x ≤ hi := by
  show (decide (lo ≤ x) && decide (x ≤ hi)) = true ↔ _
  rw [Bool.and_eq_true, decide_eq_true_iff, decide_eq_true_iff]

end Closed

theorem contains_exactly (m n : Nat) : (exactly n).contains m = !(m != n) := by
  rw [Bool.eq_iff_iff, exactly, contains_closed_iff, Bool.not_eq_true', bne_eq_false_iff_eq]
  omega

section Linear

variable [Std.IsLinearOrder α] [Std.LawfulOrderLT α] {i : Interval α}

theorem meetsLower_laterLower (a b : Option (Bound α)) (x : α) :
    meetsLower x (laterLower a b) = (meetsLower x a && meetsLower x b) := by
  cases a with
  | none => rfl
  | some a =>
    cases b with
    | none => exact (Bool.and_true _).symm
    | some b =>
      simp only [laterLower]
      split
      · grind [meetsLower]
      · split
        · grind [meetsLower]
        · grind [meetsLower]

theorem meetsUpper_earlierUpper (a b : Option (Bound α)) (x : α) :
    meetsUpper x (earlierUpper a b) = (meetsUpper x a && meetsUpper x b) := by
  cases a with
  | none => rfl
  | some a =>
    cases b with
    | none => exact (Bool.and_true _).symm
    | some b =>
      simp only [earlierUpper]
      split
      · grind [meetsUpper]
      · split
        · grind [meetsUpper]
        · grind [meetsUpper]

theorem contains_intersect (i j : Interval α) (x : α) :
    (i.intersect j).contains x = (i.contains x && j.contains x) := by
  unfold contains intersect
  rw [meetsLower_laterLower, meetsUpper_earlierUpper]
  grind

theorem contains_ofComparison (c : Comparison) (v x : α) :
    (ofComparison c v).contains x = true ↔ c.Holds x v := by
  cases c with
  | eq =>
    rw [ofComparison, exactly, contains_closed_iff, Comparison.Holds]
    grind
  | _ => simp [ofComparison, above, below, contains, meetsLower, meetsUpper, Comparison.Holds]

/-- Ends that exclude each other have nothing between them. -/
theorem contains_eq_false_of_isEmpty (h : i.isEmpty = true) (x : α) : i.contains x = false := by
  obtain ⟨lower, upper⟩ := i
  cases lower with
  | none => cases h
  | some l =>
    cases upper with
    | none => cases h
    | some u => grind [isEmpty, contains, meetsLower, meetsUpper]

/-- An end that belongs to the interval lies in it, unless the other end excludes it. -/
theorem exists_contains {l u : Bound α} (hclosed : l.isOpen = false ∨ u.isOpen = false)
    (h : isEmpty ⟨some l, some u⟩ = false) : ∃ x, contains ⟨some l, some u⟩ x = true := by
  rcases hclosed with hl | hu
  · exact ⟨l.value, by grind [isEmpty, contains, meetsLower, meetsUpper]⟩
  · exact ⟨u.value, by grind [isEmpty, contains, meetsLower, meetsUpper]⟩

theorem meetsLower_eq (i : Interval α) (x : α) : meetsLower x i.lower = !i.isBelow x := by
  unfold isBelow
  cases i.lower with
  | none => rfl
  | some l => grind [meetsLower]

theorem meetsUpper_eq (i : Interval α) (x : α) : meetsUpper x i.upper = !i.isBeyond x := by
  unfold isBeyond
  cases i.upper with
  | none => rfl
  | some u => grind [meetsUpper]

/-- An interval holds what lies neither below nor beyond it. -/
theorem contains_eq (i : Interval α) (x : α) :
    i.contains x = (!i.isBelow x && !i.isBeyond x) := by
  rw [contains, meetsLower_eq, meetsUpper_eq]

/-- Only past ends that exclude each other does a value lie on both sides. -/
theorem isEmpty_of_isBelow_of_isBeyond {x : α} (hbelow : i.isBelow x = true)
    (hbeyond : i.isBeyond x = true) : i.isEmpty = true := by
  obtain ⟨lower, upper⟩ := i
  cases lower with
  | none => cases hbelow
  | some l =>
    cases upper with
    | none => cases hbeyond
    | some u => grind [isBelow, isBeyond, isEmpty]

/-- What the operations mean over a linear order: an intersection holds what both intervals hold, an
empty interval holds nothing, a comparison gives the interval of what compares so, and each value is
below an interval that is not empty, in it or beyond it, and only one of the three. -/
theorem contains_meaning (i j : Interval α) (c : Comparison) (v x : α) :
    ((i.intersect j).contains x = true ↔ i.contains x = true ∧ j.contains x = true) ∧
    (i.isEmpty = true → i.contains x = false) ∧
    ((ofComparison c v).contains x = true ↔ c.Holds x v) ∧
    (i.isEmpty = false →
      (i.contains x = true ∧ i.isBelow x = false ∧ i.isBeyond x = false) ∨
      (i.contains x = false ∧ i.isBelow x = true ∧ i.isBeyond x = false) ∨
      (i.contains x = false ∧ i.isBelow x = false ∧ i.isBeyond x = true)) := by
  refine ⟨by rw [contains_intersect, Bool.and_eq_true], fun h => contains_eq_false_of_isEmpty h x,
    contains_ofComparison c v x, fun hempty => ?_⟩
  rw [contains_eq]
  cases hbelow : i.isBelow x with
  | false =>
    cases hbeyond : i.isBeyond x with
    | false => exact .inl ⟨rfl, rfl, rfl⟩
    | true => exact .inr (.inr ⟨rfl, rfl, rfl⟩)
  | true =>
    cases hbeyond : i.isBeyond x with
    | false => exact .inr (.inl ⟨rfl, rfl, rfl⟩)
    | true =>
      rw [isEmpty_of_isBelow_of_isBeyond hbelow hbeyond] at hempty
      cases hempty

/-- The open interval from four to five, in which there is no natural number. -/
def gap : Interval Nat := ⟨some ⟨4, true⟩, some ⟨5, true⟩⟩

theorem contains_meaning_gap :
    (gap.isEmpty = false ∧
      gap.contains 5 = false ∧ gap.isBelow 5 = false ∧ gap.isBeyond 5 = true) ∧
    (gap.intersect (exactly 4)).isEmpty = true ∧
      (gap.intersect (exactly 4)).contains 4 = false := by
  have hempty : gap.isEmpty = false := by decide
  have hcrossed : (gap.intersect (exactly 4)).isEmpty = true := by decide
  obtain ⟨-, -, -, hsides⟩ := contains_meaning gap (exactly 4) .ge 5 5
  obtain ⟨-, hnone, -⟩ := contains_meaning (gap.intersect (exactly 4)) gap .ge 5 4
  exact ⟨⟨hempty, ((hsides hempty).resolve_left (by decide)).resolve_left (by decide)⟩,
    hcrossed, hnone hcrossed⟩

end Linear

/-- What a closed interval and a comparison have in common is empty exactly if nothing between the
ends compares so. -/
theorem isEmpty_intersect_ofComparison [Std.IsLinearOrder α] [Std.LawfulOrderLT α]
    (c : Comparison) (lo hi v : α) :
    ((closed lo hi).intersect (ofComparison c v)).isEmpty = true ↔
      ¬ ∃ x, (lo ≤ x ∧ x ≤ hi) ∧ c.Holds x v := by
  have hcontains (x : α) : ((closed lo hi).intersect (ofComparison c v)).contains x = true ↔
      (lo ≤ x ∧ x ≤ hi) ∧ c.Holds x v := by
    rw [contains_intersect, Bool.and_eq_true, contains_closed_iff, contains_ofComparison]
  simp only [← hcontains]
  obtain ⟨l, u, hends, hclosed⟩ := exists_ends c lo hi v
  rw [hends]
  constructor
  · rintro hempty ⟨x, hx⟩
    rw [contains_eq_false_of_isEmpty hempty x] at hx
    cases hx
  · intro hnone
    refine eq_true_of_ne_false fun hempty => ?_
    exact hnone (exists_contains hclosed hempty)

end Interval
end Attest
