import Attest.Refinement

/-!
Values that are of their type.  The proof is part of the value, so nothing that holds one needs to
check it again.
-/

namespace Attest

/-- A value with a type that it is of. -/
structure TypedValue where
  ty : Ty
  value : Value
  fits : (ty.decide value).isHolds = true

inductive RefinementError where
  | violated (ty : Ty) (why : Violation)
  | undecidable (ty : Ty) (why : Doubt)
deriving Repr

namespace RefinementError

def message : RefinementError → String
  | violated ty why => why.detail ++ " (type " ++ ty.render ++ ")"
  | undecidable ty why => "cannot decide " ++ ty.render ++ ": " ++ why.reason

def category : RefinementError → String
  | violated _ _ => "refinement_violated"
  | undecidable _ _ => "refinement_undecidable"

def suggestion : RefinementError → Option String
  | violated _ why => why.suggestion
  | undecidable _ _ => none

end RefinementError

namespace TypedValue

def make (ty : Ty) (value : Value) : Except RefinementError TypedValue :=
  match h : ty.decide value with
  | .holds _ => .ok ⟨ty, value, by rw [h]; rfl⟩
  | .fails why => .error (.violated ty why)
  | .undecidable why => .error (.undecidable ty why)

def render (v : TypedValue) : String := v.value.render ++ " : " ++ v.ty.render

/-- Equality of types as written, and of values with floats compared as numbers. -/
def same (v w : TypedValue) : Bool := v.ty.same w.ty && v.value.same w.value

@[ext]
theorem ext {v w : TypedValue} (ht : v.ty = w.ty) (hv : v.value = w.value) : v = w := by
  cases v; cases w; cases ht; cases hv; rfl

end TypedValue
end Attest
