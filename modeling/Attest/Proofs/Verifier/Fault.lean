import Attest.Proofs.Verifier

/-!
Verification by intervals of a type whose conditions are at fault.

Nothing can be compared with bounds that exclude each other or that are no numbers, and where it
comes to such a comparison the intervals leave the question open.  But in a vector it is the items
that are compared, one by one, and the size comes before them: a vector of another size is refused
for that, and one that holds nothing to compare is let through.
-/

namespace Attest

namespace Ty

/-- Nothing but vectors, each of its size, so that there is nothing to compare with a bound. -/
def isHollow : Ty → Value → Bool
  | vector element size, .vector vs => vs.length == size.toNat && vs.all element.isHollow
  | _, _ => false

/-- A vector of another size comes before anything that is no vector. -/
def isMissized : Ty → Value → Bool
  | vector element size, .vector vs =>
    vs.length != size.toNat ||
      (vs.find? fun v => !element.isHollow v).any element.isMissized
  | _, _ => false

theorem isMissized_of_isHollow {ty : Ty} {v : Value} (h : ty.isHollow v = true) :
    ty.isMissized v = false := by
  unfold isHollow at h
  split at h
  · next element size vs =>
    rw [Bool.and_eq_true, List.all_eq_true] at h
    have hfind : (vs.find? fun v => !element.isHollow v) = none := by
      rw [List.find?_eq_none]
      intro v hv
      simp [h.2 v hv]
    unfold isMissized
    rw [hfind, Option.any_none, Bool.or_false, bne_eq_false_iff_eq]
    exact eq_of_beq h.1
  · cases h

end Ty

namespace Verification

/-- An answer that no comparison with a bound has a part in. -/
inductive Blind (ty : Ty) (v : Value) : Verification → Prop where
  | satisfied (method : Method) (evidence : String) (h : ty.isHollow v = true) :
      Blind ty v (.satisfied method evidence)
  | violated (why : Violation) (h : ty.isHollow v = false) (h' : ty.isMissized v = true) :
      Blind ty v (.violated why)
  | undecided (why : Doubt) (h : ty.isHollow v = false) (h' : ty.isMissized v = false) :
      Blind ty v (.undecided why)

theorem exists_ofNat_of_empty {lo hi : UInt64} (h : hi < lo) (v : UInt64) :
    ∃ why, ofNat lo hi v = .undecided why := by
  unfold ofNat
  dsimp only
  rw [Interval.isEmpty_closed, decide_eq_true h]
  exact ⟨_, rfl⟩

theorem exists_ofFloat_of_fault? {lo hi : Double} (h : (Ty.boundedFloat lo hi).fault? ≠ none)
    (v : Double) : ∃ why, ofFloat lo hi v = .undecided why := by
  unfold ofFloat
  dsimp only
  by_cases hv : v.isNaN = true
  · exact ⟨_, if_pos hv⟩
  · rw [if_neg hv]
    by_cases hfinite : (!lo.isFinite || !hi.isFinite) = true
    · exact ⟨_, if_pos hfinite⟩
    · have hempty : hi < lo := by
        by_contra hle
        exact h (by rw [Ty.fault?, if_neg hfinite]; exact if_neg hle)
      rw [if_neg hfinite, Interval.isEmpty_closed, decide_eq_true hempty]
      exact ⟨_, rfl⟩

/-- The first item that is not hollow is the one that ends the search. -/
theorem blind_items {f : Value → Verification} {element : Ty} {vs : List Value}
    (h : ∀ v ∈ vs, Blind element v (f v)) (method : Method) (index : Nat) :
    (∃ m, items f method index vs = .ok m ∧ vs.all element.isHollow = true) ∨
      ∃ v, (vs.find? fun v => !element.isHollow v) = some v ∧
        ((∃ why, items f method index vs = .error (.violated why) ∧ element.isMissized v = true) ∨
          ∃ why, items f method index vs = .error (.undecided why) ∧
            element.isMissized v = false) := by
  induction vs generalizing method index with
  | nil => exact .inl ⟨method, rfl, rfl⟩
  | cons v vs ih =>
    obtain ⟨hv, hvs⟩ := List.forall_mem_cons.mp h
    unfold items
    generalize f v = a at hv
    cases hv with
    | satisfied m e hollow =>
      rw [List.all_cons, List.find?_cons_of_neg (by simp [hollow]), hollow, Bool.true_and]
      exact ih hvs _ (index + 1)
    | violated why hollow missized =>
      rw [List.find?_cons_of_pos (by simp [hollow])]
      exact .inr ⟨v, rfl, .inl ⟨_, rfl, missized⟩⟩
    | undecided why hollow missized =>
      rw [List.find?_cons_of_pos (by simp [hollow])]
      exact .inr ⟨v, rfl, .inr ⟨_, rfl, missized⟩⟩

theorem blind_vector {element : Ty} {size : UInt64} {vs : List Value}
    (h : ∀ v ∈ vs, Blind element v (byInterval element v)) :
    Blind (.vector element size) (.vector vs) (byInterval (.vector element size) (.vector vs)) := by
  unfold byInterval
  rw [Interval.contains_exactly, Bool.not_not]
  by_cases hlength : vs.length = size.toNat
  · rw [if_neg (by simp [hlength])]
    have hsize : (vs.length == size.toNat) = true := beq_iff_eq.mpr hlength
    rcases blind_items h .structural 0 with ⟨m, hm, hall⟩ | ⟨v, hfind, hv⟩
    · rw [hm]
      exact .satisfied _ _ (by rw [Ty.isHollow, hsize, hall]; rfl)
    · have hollow : (Ty.vector element size).isHollow (.vector vs) = false := by
        have hmem := List.mem_of_find?_eq_some hfind
        have hv := List.find?_some hfind
        rw [Ty.isHollow, hsize, Bool.true_and, List.all_eq_false]
        exact ⟨v, hmem, by simpa using hv⟩
      have missized : (Ty.vector element size).isMissized (.vector vs) = element.isMissized v := by
        rw [Ty.isMissized, hfind, bne, hsize]
        rfl
      rcases hv with ⟨why, hitems, hmissized⟩ | ⟨why, hitems, hmissized⟩
      · rw [hitems]
        exact .violated why hollow (missized.trans hmissized)
      · rw [hitems]
        exact .undecided why hollow (missized.trans hmissized)
  · rw [if_pos (bne_iff_ne.mpr hlength)]
    exact .violated _ (by simp [Ty.isHollow, hlength]) (by simp [Ty.isMissized, hlength])

theorem blind_byInterval {ty : Ty} (h : ty.fault? ≠ none) (v : Value) :
    Blind ty v (byInterval ty v) := by
  induction ty generalizing v with
  | boundedNat lo hi =>
    cases v with
    | nat n =>
      have hempty : hi < lo := by
        by_contra hle
        exact h (if_neg hle)
      obtain ⟨why, hwhy⟩ := exists_ofNat_of_empty hempty n
      rw [byInterval, hwhy]
      exact .undecided why rfl rfl
    | _ => exact .undecided _ rfl rfl
  | boundedFloat lo hi =>
    cases v with
    | float x =>
      obtain ⟨why, hwhy⟩ := exists_ofFloat_of_fault? h x
      rw [byInterval, hwhy]
      exact .undecided why rfl rfl
    | _ => exact .undecided _ rfl rfl
  | vector element size ih =>
    cases v with
    | vector vs => exact blind_vector fun v _ => ih h v
    | _ =>
      simp only [byInterval, shapeMatches, Bool.and_false]
      exact .undecided _ rfl rfl
  | _ => exact absurd rfl h

/-- About a type at fault the intervals say yes exactly if there is nothing to compare, no exactly
if a size is wrong before anything is compared, and leave everything else open. -/
theorem byInterval_iff_of_fault {ty : Ty} (h : ty.fault? ≠ none) (v : Value) :
    ((∃ method evidence, byInterval ty v = .satisfied method evidence) ↔ ty.isHollow v = true) ∧
      ((∃ why, byInterval ty v = .violated why) ↔ ty.isMissized v = true) ∧
      ((∃ why, byInterval ty v = .undecided why) ↔
        ty.isHollow v = false ∧ ty.isMissized v = false) := by
  have hblind := blind_byInterval h v
  generalize byInterval ty v = answer at hblind
  cases hblind with
  | satisfied method evidence hollow => simp [hollow, Ty.isMissized_of_isHollow hollow]
  | violated why hollow missized => simp [hollow, missized]
  | undecided why hollow missized => simp [hollow, missized]

/-- Between ten and one there is nothing.  Of vectors of such numbers one without items passes, one
with too few is refused, and the first number of any other leaves the rest open, an item of the
wrong size behind it included. -/
theorem byInterval_exclusive : (Ty.boundedNat 10 1).fault? ≠ none ∧
    (∃ method evidence, byInterval (.vector (.boundedNat 10 1) 0) (.vector []) =
      .satisfied method evidence) ∧
    (∃ why, byInterval (.vector (.boundedNat 10 1) 2) (.vector []) = .violated why) ∧
    ∃ why, byInterval (.vector (.vector (.boundedNat 10 1) 1) 2)
      (.vector [.vector [.nat 3], .vector []]) = .undecided why := by
  have hfault : (Ty.boundedNat 10 1).fault? ≠ none := by decide
  refine ⟨hfault, ?_, ?_, ?_⟩
  · exact (byInterval_iff_of_fault (by exact hfault) _).1.mpr rfl
  · exact (byInterval_iff_of_fault (by exact hfault) _).2.1.mpr rfl
  · exact (byInterval_iff_of_fault (by exact hfault) _).2.2.mpr ⟨rfl, rfl⟩

end Verification
end Attest
