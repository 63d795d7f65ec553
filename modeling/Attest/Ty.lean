import Attest.Category
import Attest.Double.Text

/-!
Types of columns and values.

Some types refine another by a condition on its values: bounds, or being non-empty.  The type
without its conditions is its base, and operators are typed by bases alone.
-/

namespace Attest

inductive Ty where
  | nat
  | int
  | string
  | bool
  | float
  | uuid
  | timestamp
  | boundedNat (min max : UInt64)
  | boundedFloat (min max : Double)
  | nonEmptyString
  | confidence
  | vector (element : Ty) (size : UInt64)
  | promptScores
deriving DecidableEq, Repr, Inhabited

inductive TyFault where
  | emptyNat (min max : UInt64)
  | emptyFloat (min max : Double)
  | unbounded (min max : Double)
deriving DecidableEq, Repr

namespace Ty

def category : Ty → Category
  | nat => .nat
  | int => .int
  | string => .string
  | bool => .bool
  | float => .float
  | uuid => .uuid
  | timestamp => .timestamp
  | boundedNat _ _ => .boundedNat
  | boundedFloat _ _ => .boundedFloat
  | nonEmptyString => .nonEmptyString
  | confidence => .confidence
  | vector _ _ => .vector
  | promptScores => .promptScores

def render : Ty → String
  | boundedNat lo hi => s!"BoundedNat({lo}, {hi})"
  | boundedFloat lo hi => "BoundedFloat(" ++ lo.literal ++ ", " ++ hi.literal ++ ")"
  | vector t n => "Vector(" ++ t.render ++ s!", {n})"
  | t => t.category.name

instance : ToString Ty := ⟨render⟩

/-- The type without its conditions. -/
def base : Ty → Ty
  | boundedNat _ _ => nat
  | boundedFloat _ _ => float
  | confidence => float
  | nonEmptyString => string
  | vector t n => vector t.base n
  | t => t

/-- Whether a value needs more than the right shape. -/
def isRefined : Ty → Bool
  | boundedNat _ _ => true
  | boundedFloat _ _ => true
  | nonEmptyString => true
  | confidence => true
  | promptScores => true
  | vector t _ => t.isRefined
  | _ => false

def isNumeric (t : Ty) : Bool :=
  match t.base with
  | nat => true
  | int => true
  | float => true
  | _ => false

def isOrderable (t : Ty) : Bool :=
  match t.base with
  | nat => true
  | int => true
  | float => true
  | string => true
  | timestamp => true
  | _ => false

/-- Equality of types as written: bounds are compared as numbers. -/
def same : Ty → Ty → Bool
  | boundedFloat a b, boundedFloat c d => a.same c && b.same d
  | boundedNat a b, boundedNat c d => a == c && b == d
  | vector s m, vector t n => s.same t && m == n
  | s, t => s.category == t.category

def fault? : Ty → Option TyFault
  | boundedNat lo hi => if hi < lo then some (.emptyNat lo hi) else none
  | boundedFloat lo hi =>
    if !lo.isFinite || !hi.isFinite then some (.unbounded lo hi)
    else if hi.lt lo then some (.emptyFloat lo hi)
    else none
  | vector t _ => t.fault?
  | _ => none

end Ty

namespace TyFault

def message : TyFault → String
  | emptyNat lo hi =>
    "empty refinement " ++ (Ty.boundedNat lo hi).render ++ s!": min {lo} exceeds max {hi}"
  | emptyFloat lo hi =>
    "empty refinement " ++ (Ty.boundedFloat lo hi).render ++ ": min " ++ lo.literal
      ++ " exceeds max " ++ hi.literal
  | unbounded lo hi => "refinement " ++ (Ty.boundedFloat lo hi).render ++ " has non-finite bounds"

end TyFault
end Attest
