import Attest.Value.Order
import Attest.Proofs.Wire.Value

/-!
Values of one type that have no order.

A float that is no number is not comparable with anything, different scores are not comparable
with each other, and a vector is compared by the first items that differ.  Between values of one
base type nothing else goes wrong, even where arithmetic has turned a whole number into a float.
-/

namespace Attest

namespace Double

theorem isNaN_of_isFinite {x : Double} (h : x.isFinite = true) : x.isNaN = false := by
  simp only [isFinite, isNaN, decide_eq_true_eq, decide_eq_false_iff_not] at *
  omega

theorem isFinite_ofInt (i : Int64) : (ofInt i.toInt).isFinite = true := by
  have hbound : i.toInt.natAbs < 2 ^ 64 := by
    have := i.toInt_lt
    have := i.le_toInt
    omega
  unfold ofInt
  split
  · rw [isFinite_neg, isFinite_ofNat hbound]
  · exact isFinite_ofNat hbound

theorem compare?_eq_none_iff {x y : Double} :
    x.compare? y = none ↔ x.isNaN = true ∨ y.isNaN = true := by
  unfold compare?
  cases x.isNaN <;> cases y.isNaN <;> simp

end Double

namespace Value

def isNumber : Value → Bool
  | nat _ => true
  | int _ => true
  | float _ => true
  | _ => false

/-- Two values have no order. -/
inductive Clash : Value → Value → Prop where
  | left {x : Double} (hx : x.isNaN = true) (b : Value) : Clash (.float x) b
  | right (a : Value) {x : Double} (hx : x.isNaN = true) : Clash a (.float x)
  | scores {s t : Scores} (h : s ≠ t) : Clash (.scores s) (.scores t)
  | vector {as bs as' bs' : List Value} {a b : Value}
      (hsame : List.Forall₂ (fun v w => compare? v w = some .eq) as bs) (h : Clash a b) :
      Clash (.vector (as ++ a :: as')) (.vector (bs ++ b :: bs'))

theorem compareItems?_append {as bs : List Value}
    (h : List.Forall₂ (fun v w => compare? v w = some .eq) as bs) (cs ds : List Value) :
    compareItems? (as ++ cs) (bs ++ ds) = compareItems? cs ds := by
  induction h with
  | nil => rfl
  | cons hv _ ih => rw [List.cons_append, List.cons_append, compareItems?, hv, ih]

theorem Clash.compare?_eq_none {a b : Value} (h : Clash a b) : compare? a b = none := by
  induction h with
  | left hx b => cases b <;> simp [compare?, compareFloats?, toDouble?, Double.compare?, hx]
  | right a hx => cases a <;> simp [compare?, compareFloats?, toDouble?, Double.compare?, hx]
  | scores h => simp [compare?, h]
  | vector hsame _ ih => rw [compare?, compareItems?_append hsame, compareItems?, ih]

/-- Items without an order hold a first pair without one. -/
theorem compareItems?_eq_none {as bs : List Value} (h : compareItems? as bs = none) :
    ∃ cs ds a b as' bs', List.Forall₂ (fun v w => compare? v w = some .eq) cs ds ∧
      as = cs ++ a :: as' ∧ bs = ds ++ b :: bs' ∧ compare? a b = none := by
  induction as generalizing bs with
  | nil => cases bs <;> cases h
  | cons a as ih =>
    cases bs with
    | nil => cases h
    | cons b bs =>
      rw [compareItems?] at h
      split at h
      · next heq =>
        obtain ⟨cs, ds, a', b', as', bs', hsame, rfl, rfl, hnone⟩ := ih h
        exact ⟨a :: cs, b :: ds, a', b', as', bs', .cons heq hsame, rfl, rfl, hnone⟩
      · exact ⟨[], [], a, b, as, bs, .nil, rfl, rfl, h⟩

theorem toDouble?_of_isNumber {v : Value} (h : v.isNumber = true) :
    ∃ x, v.toDouble? = some x ∧ (x.isNaN = true → v = .float x) := by
  cases v with
  | nat n =>
    have hfinite := Double.isNaN_of_isFinite (Double.isFinite_ofNat n.toNat_lt)
    exact ⟨_, rfl, fun hnan => by rw [hfinite] at hnan; cases hnan⟩
  | int i =>
    have hfinite := Double.isNaN_of_isFinite (Double.isFinite_ofInt i)
    exact ⟨_, rfl, fun hnan => by rw [hfinite] at hnan; cases hnan⟩
  | float x => exact ⟨x, rfl, fun _ => rfl⟩
  | _ => cases h

/-- Numbers without an order are numbers compared as floats, of which one is none. -/
theorem clash_of_numbers {a b : Value} (ha : a.isNumber = true) (hb : b.isNumber = true)
    (h : compare? a b = none) : Clash a b := by
  have hfloats : compareFloats? a b = none := by
    cases a <;> cases ha <;> cases b <;> cases hb <;> simp_all [compare?]
  obtain ⟨x, hx, hxnan⟩ := toDouble?_of_isNumber ha
  obtain ⟨y, hy, hynan⟩ := toDouble?_of_isNumber hb
  rw [compareFloats?, hx, hy] at hfloats
  rcases Double.compare?_eq_none_iff.mp hfloats with hnan | hnan
  · rw [hxnan hnan]
    exact .left hnan b
  · rw [hynan hnan]
    exact .right a hnan

end Value

namespace Ty

/-- The values that an expression of a base type may have.  Arithmetic keeps the type of its
operands, but not the form of a number. -/
inductive Admits : Ty → Value → Prop where
  | number {ty : Ty} {v : Value} (hty : ty.isNumeric = true) (hv : v.isNumber = true) : Admits ty v
  | string (s : String) : Admits .string (.text s)
  | bool (b : Bool) : Admits .bool (.bool b)
  | uuid (u : Uuid) : Admits .uuid (.uuid u)
  | timestamp (ms : Int64) : Admits .timestamp (.timestamp ms)
  | promptScores (s : Scores) : Admits .promptScores (.scores s)
  | vector {element : Ty} (size : UInt64) {items : List Value}
      (h : ∀ v ∈ items, Admits element v) : Admits (.vector element size) (.vector items)

theorem admits_of_shaped {ty : Ty} {v : Value} (h : ty.Shaped v) : ty.base.Admits v := by
  induction h with
  | vector size _ ih => exact .vector size ih
  | string s => exact .string s
  | nonEmptyString s => exact .string s
  | bool b => exact .bool b
  | uuid u => exact .uuid u
  | timestamp ms => exact .timestamp ms
  | promptScores s => exact .promptScores s
  | _ => exact .number rfl rfl

theorem Admits.isNumber {ty : Ty} {v : Value} (h : ty.Admits v) (hty : ty.isNumeric = true) :
    v.isNumber = true := by
  cases h with
  | number _ hv => exact hv
  | _ => cases hty

/-- Two values of one base type have no order exactly if they clash. -/
theorem compare?_eq_none_iff {ty : Ty} {a b : Value} (ha : ty.Admits a) (hb : ty.Admits b) :
    Value.compare? a b = none ↔ Value.Clash a b := by
  refine ⟨fun h => ?_, Value.Clash.compare?_eq_none⟩
  induction ha generalizing b with
  -- the forms of two numbers need not agree, so they are not told apart here
  | number hty hv => exact Value.clash_of_numbers hv (hb.isNumber hty) h
  | vector size _ ih =>
    cases hb with
    | number hty => cases hty
    | vector _ hitems =>
      rw [Value.compare?] at h
      obtain ⟨cs, ds, a, b, as', bs', hsame, rfl, rfl, hnone⟩ := Value.compareItems?_eq_none h
      exact .vector hsame (ih a (by simp) (hitems b (by simp)) hnone)
  | promptScores s =>
    cases hb with
    | number hty => cases hty
    | promptScores t =>
      refine .scores fun heq => ?_
      simp [Value.compare?, heq] at h
  | _ =>
    cases hb with
    | number hty => cases hty
    | _ => simp [Value.compare?] at h

end Ty
end Attest
