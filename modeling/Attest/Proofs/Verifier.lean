import Attest.Proofs.Interval
import Attest.Proofs.Ty.Same
import Attest.Proofs.Value.Order

/-!
What verification by intervals can be trusted with.

Intervals are a second account of every refinement, with its own order of tests and its own way
through a vector.  Where a type has sensible conditions, the two accounts agree: what the intervals
let through is of its type, and what they refuse is refused by definition for the same reason.
Where they leave a question open the definition is asked, so it makes no difference to a value,
nor to the failure of one, whether the intervals were asked first.
-/

namespace Attest

namespace Double

variable {x y : Double}

theorem lt_iff : x.lt y = true ↔ x.isNaN = false ∧ y.isNaN = false ∧ x.key < y.key := by
  unfold lt
  rw [beq_iff_eq, compare?_eq_some_iff, compare_lt_iff_lt]

/-- Of two numbers the first is at most the second, or above it. -/
theorem le_iff_not_lt (hx : x.isNaN = false) (hy : y.isNaN = false) : x ≤ y ↔ ¬ y < x := by
  show x.le y = true ↔ ¬ y.lt x = true
  unfold le
  rw [Bool.or_eq_true, lt_iff, same_iff, lt_iff]
  simp only [hx, hy, true_and]
  omega

end Double

namespace Verification

/-- Where a verifier gives an answer, the definition gives the same. -/
inductive Agrees : Verification → Decision → Prop where
  | satisfied (method : Method) (evidence evidence' : String) :
      Agrees (.satisfied method evidence) (.holds evidence')
  | violated (why : Violation) : Agrees (.violated why) (.fails why)
  | undecided (why : Doubt) (d : Decision) : Agrees (.undecided why) d

theorem agrees_ofNat {lo hi : UInt64} (h : ¬ hi < lo) (v : UInt64) :
    Agrees (ofNat lo hi v) (Ty.decideNat lo hi v) := by
  have hcontains : (Interval.closed lo hi).contains v = (!decide (v < lo) && !decide (hi < v)) :=
    Interval.contains_closed UInt64.not_lt.symm UInt64.not_lt.symm
  unfold ofNat Ty.decideNat
  dsimp only
  rw [Interval.isEmpty_closed, Interval.isBelow_closed, hcontains, decide_eq_false h]
  by_cases hlo : v < lo
  · simp only [hlo]
    exact .violated _
  · by_cases hhi : hi < v
    · simp only [hlo, hhi]
      exact .violated _
    · simp only [hlo, hhi]
      exact .satisfied _ _ _

theorem agrees_ofFloat {lo hi : Double} (hlo : lo.isFinite = true) (hhi : hi.isFinite = true)
    (h : ¬ hi < lo) (v : Double) : Agrees (ofFloat lo hi v) (Ty.decideFloat lo hi v) := by
  unfold ofFloat Ty.decideFloat
  dsimp only
  by_cases hv : v.isNaN = true
  · rw [if_pos hv]
    exact .undecided _ _
  · have hv : v.isNaN = false := Bool.eq_false_of_not_eq_true hv
    have hcontains : (Interval.closed lo hi).contains v = (!decide (v < lo) && !decide (hi < v)) :=
      Interval.contains_closed (Double.le_iff_not_lt (Double.isNaN_of_isFinite hlo) hv)
        (Double.le_iff_not_lt hv (Double.isNaN_of_isFinite hhi))
    rw [Interval.isEmpty_closed, Interval.isBelow_closed, hcontains, decide_eq_false h, hv, hlo,
      hhi]
    by_cases hbelow : v < lo
    · have hlt : v.lt lo = true := hbelow
      simp only [hbelow, hlt]
      exact .violated _
    · have hlt : v.lt lo = false := Bool.eq_false_of_not_eq_true hbelow
      by_cases habove : hi < v
      · have hgt : hi.lt v = true := habove
        simp only [hbelow, hlt, habove, hgt]
        exact .violated _
      · have hgt : hi.lt v = false := Bool.eq_false_of_not_eq_true habove
        simp only [hbelow, hlt, habove, hgt]
        exact .satisfied _ _ _

theorem agrees_ofText (s : String) : Agrees (ofText s) (Ty.nonEmptyString.decide (.text s)) := by
  have hcontains : (Interval.above 1 false).contains s.length = !s.isEmpty := by
    show (decide (1 ≤ s.length) && true) = !s.isEmpty
    rw [Bool.and_true, Bool.eq_iff_iff, Bool.not_eq_true', Bool.eq_false_iff, Ne,
      String.isEmpty_iff, ← String.length_eq_zero_iff, decide_eq_true_iff]
    omega
  show Agrees (ofText s) (if s.isEmpty then _ else _)
  unfold ofText
  dsimp only
  rw [hcontains]
  cases s.isEmpty with
  | true => exact .violated _
  | false => exact .satisfied _ _ _

theorem agrees_ofScores (s : Scores) : Agrees (ofScores s) (Ty.decideScores s) := by
  have hbeyond : (fun e : String × UInt64 => !(Interval.closed 0 Scores.best).contains e.2) =
      fun e => decide (Scores.best < e.2) := by
    funext e
    rw [Interval.contains_closed UInt64.not_lt.symm UInt64.not_lt.symm]
    simp
  unfold ofScores Ty.decideScores
  dsimp only
  rw [hbeyond]
  cases s.entries.find? fun e => decide (Scores.best < e.2) with
  | some e => exact .violated _
  | none => exact .satisfied _ _ _

/-- Where the answers about the items agree, those about the vector do: either all items pass in
both accounts, or the first that does not is left open or refused in both. -/
theorem agrees_items {f : Value → Verification} {g : Value → Decision} {vs : List Value}
    (h : ∀ v ∈ vs, Agrees (f v) (g v)) (method : Method) (index : Nat) :
    (∃ m es, items f method index vs = .ok m ∧ Decision.items g index vs = .ok es) ∨
      (∃ why, items f method index vs = .error (.undecided why)) ∨
        ∃ why, items f method index vs = .error (.violated why) ∧
          Decision.items g index vs = .error (.fails why) := by
  induction vs generalizing method index with
  | nil => exact .inl ⟨method, [], rfl, rfl⟩
  | cons v vs ih =>
    obtain ⟨hv, hvs⟩ := List.forall_mem_cons.mp h
    unfold items Decision.items
    generalize f v = a at hv
    generalize g v = d at hv
    cases hv with
    | satisfied m e e' =>
      dsimp only
      rcases ih hvs (if m == .staticInterval then .staticInterval else method) (index + 1) with
        ⟨m', es, hm, hes⟩ | ⟨why, hm⟩ | ⟨why, hm, hd⟩
      · exact .inl ⟨m', e' :: es, hm, by rw [hes]⟩
      · exact .inr (.inl ⟨why, hm⟩)
      · exact .inr (.inr ⟨why, hm, by rw [hd]⟩)
    | violated why => exact .inr (.inr ⟨.element index why, rfl, rfl⟩)
    | undecided why d => exact .inr (.inl ⟨.element index why, rfl⟩)

theorem agrees_vector {element : Ty} {size : UInt64} {vs : List Value}
    (hfault : element.fault? = none)
    (h : ∀ v ∈ vs, Agrees (byInterval element v) (element.decide v)) :
    Agrees (byInterval (.vector element size) (.vector vs))
      ((Ty.vector element size).decide (.vector vs)) := by
  have hfault : (Ty.vector element size).fault? = none := hfault
  unfold byInterval Ty.decide
  rw [hfault]
  dsimp only
  rw [Interval.contains_exactly, Bool.not_not]
  split
  · exact .violated _
  · rcases agrees_items h .structural 0 with ⟨m, es, hm, hes⟩ | ⟨why, hm⟩ | ⟨why, hm, hd⟩
    · rw [hm, hes]
      dsimp only
      split
      · exact .satisfied _ _ _
      · exact .satisfied _ _ _
    · rw [hm]
      exact .undecided _ _
    · rw [hm, hd]
      exact .violated _

/-- Verification by intervals agrees with the definition for every type without a fault. -/
theorem agrees_byInterval {ty : Ty} (h : ty.fault? = none) (value : Value) :
    Agrees (byInterval ty value) (ty.decide value) := by
  induction ty generalizing value with
  | boundedNat lo hi =>
    cases value with
    | nat v =>
      have hempty : ¬ hi < lo := by
        intro hlt
        simp [Ty.fault?, hlt] at h
      unfold Ty.decide
      rw [h]
      exact agrees_ofNat hempty v
    | _ => exact .undecided _ _
  | boundedFloat lo hi =>
    cases value with
    | float v =>
      obtain ⟨⟨hlo, hhi⟩, hempty⟩ :
          (lo.isFinite = true ∧ hi.isFinite = true) ∧ hi.lt lo = false := by
        simpa [Ty.fault?, ite_eq_iff] using h
      unfold Ty.decide
      rw [h]
      exact agrees_ofFloat hlo hhi (ne_true_of_eq_false hempty) v
    | _ => exact .undecided _ _
  | confidence =>
    cases value with
    | float v => exact agrees_ofFloat (by decide) (by decide) (by decide) v
    | _ => exact .undecided _ _
  | nonEmptyString =>
    cases value with
    | text s => exact agrees_ofText s
    | _ => exact .undecided _ _
  | promptScores =>
    cases value with
    | scores s => exact agrees_ofScores s
    | _ => exact .undecided _ _
  | vector element size ih =>
    cases value with
    | vector vs => exact agrees_vector h fun v _ => ih h v
    | _ =>
      simp only [byInterval, shapeMatches, Bool.and_false]
      exact .undecided _ _
  | _ =>
    cases value with
    | _ => first | exact .satisfied _ _ _ | exact .undecided _ _

end Verification

def VerificationFailure.ofRefinement : RefinementError → VerificationFailure
  | .violated _ why => .violated why
  | .undecidable _ why => .undecidable why

namespace TypedValue

variable {ty : Ty} {value : Value}

theorem make_of_fails {why : Violation} (h : ty.decide value = .fails why) :
    make ty value = .error (.violated ty why) := by
  unfold make
  split <;> simp_all

theorem make_of_undecidable {why : Doubt} (h : ty.decide value = .undecidable why) :
    make ty value = .error (.undecidable ty why) := by
  unfold make
  split <;> simp_all

theorem exists_make_of_holds {evidence : String} (h : ty.decide value = .holds evidence) :
    ∃ t, make ty value = .ok t :=
  ⟨⟨ty, value, by rw [h]; rfl⟩, make_eq_ok.mpr ⟨rfl, rfl⟩⟩

end TypedValue

namespace Verifier

variable {verifier : Verifier} {ty : Ty} {value : Value}

/-- A verifier that agrees with the definition lets a value through, or not, as giving it its type
does. -/
theorem typed_check (h : (verifier.verify ty value).Agrees (ty.decide value)) :
    VerifiedValue.typed <$> verifier.check ty value =
      (TypedValue.make ty value).mapError .ofRefinement := by
  unfold check
  generalize verifier.verify ty value = a at h
  cases hd : ty.decide value with
  | holds e =>
    obtain ⟨t, ht⟩ := TypedValue.exists_make_of_holds hd
    rw [hd] at h
    rw [ht]
    cases h <;> rfl
  | fails why =>
    rw [hd] at h
    rw [TypedValue.make_of_fails hd]
    cases h <;> rfl
  | undecidable why =>
    rw [hd] at h
    rw [TypedValue.make_of_undecidable hd]
    cases h
    rfl

/-- Whatever a verifier says, a value that it lets through was given its type. -/
theorem make_of_check {w : VerifiedValue} (h : verifier.check ty value = .ok w) :
    TypedValue.make ty value = .ok w.typed := by
  unfold check at h
  cases hm : TypedValue.make ty value with
  | ok typed =>
    rw [hm] at h
    dsimp only at h
    split at h
    · cases h
      rfl
    · cases h
    · split at h
      · cases h
        rfl
      · cases h
      · cases h
  | error e =>
    cases e <;> rw [hm] at h <;> dsimp only at h
    all_goals
      split at h
      · cases h
      · cases h
      · split at h <;> cases h

/-- A verifier that agrees with the definition about types without a fault lets through what is of
its type, and nothing else. -/
theorem exists_check_iff
    (h : ty.fault? = none → (verifier.verify ty value).Agrees (ty.decide value)) (t : TypedValue) :
    (∃ w, verifier.check ty value = .ok w ∧ w.typed = t) ↔ t.ty = ty ∧ t.value = value := by
  constructor
  · rintro ⟨w, hw, rfl⟩
    exact TypedValue.make_eq_ok.mp (make_of_check hw)
  · intro ht
    have hfault : ty.fault? = none := ht.1 ▸ Ty.fault?_of_isHolds t.fits
    have hcheck := typed_check (h hfault)
    rw [TypedValue.make_eq_ok.mpr ht] at hcheck
    exact Outcome.map_eq_ok.mp hcheck

theorem agrees_runtimeOnly (ty : Ty) (value : Value) :
    (runtimeOnly.verify ty value).Agrees (ty.decide value) := .undecided _ _

/-- With intervals and without them the same values pass, as the same typed values; and for a type
without a fault, those that do not pass fail in the same way. -/
theorem check_interval_alike (ty : Ty) (value : Value) :
    (∀ t, (∃ w, interval.check ty value = .ok w ∧ w.typed = t) ↔
      ∃ w, runtimeOnly.check ty value = .ok w ∧ w.typed = t) ∧
    (ty.fault? = none → ∀ failure, interval.check ty value = .error failure ↔
      runtimeOnly.check ty value = .error failure) := by
  constructor
  · intro t
    rw [exists_check_iff fun h => Verification.agrees_byInterval h value,
      exists_check_iff fun _ => agrees_runtimeOnly ty value]
  · intro h failure
    have hinterval : VerifiedValue.typed <$> interval.check ty value = _ :=
      typed_check (Verification.agrees_byInterval h value)
    have hruntime := typed_check (agrees_runtimeOnly ty value)
    rw [← Outcome.map_eq_error (f := VerifiedValue.typed), hinterval, ← hruntime,
      Outcome.map_eq_error]

/-- The intervals leave open what a number is that is none, and stop there; by definition the same
item of the vector stops both. -/
theorem check_interval_alike_nan :
    (Ty.vector .confidence 2).fault? = none ∧
      interval.check (.vector .confidence 2) (.vector [.float .one, .float .nan]) =
        .error (.undecidable (.element 1 .unordered)) ∧
      runtimeOnly.check (.vector .confidence 2) (.vector [.float .one, .float .nan]) =
        .error (.undecidable (.element 1 .unordered)) := by
  have hfault : (Ty.vector .confidence 2).fault? = none := rfl
  have hinterval : interval.check (.vector .confidence 2) (.vector [.float .one, .float .nan]) =
      .error (.undecidable (.element 1 .unordered)) := rfl
  exact ⟨hfault, hinterval, ((check_interval_alike _ _).2 hfault _).mp hinterval⟩

end Verifier
end Attest
