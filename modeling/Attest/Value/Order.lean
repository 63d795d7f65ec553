import Attest.Value

/-!
The order of values.  Whole numbers are compared exactly, numbers of different kinds as floats, and
values of kinds that have nothing in common not at all.
-/

namespace Attest
namespace Value

def compareFloats? (a b : Value) : Option Ordering := do
  let x ← a.toDouble?
  let y ← b.toDouble?
  x.compare? y

mutual

def compare? : Value → Value → Option Ordering
  | .nat a, .nat b => some (compare a b)
  | .int a, .int b => some (compare a b)
  | .nat a, .int b => some (compare (a.toNat : Int) b.toInt)
  | .int a, .nat b => some (compare a.toInt (b.toNat : Int))
  | .text a, .text b => some (compare a b)
  | .bool a, .bool b => some (compare a b)
  | .uuid a, .uuid b => some (a.compare b)
  | .timestamp a, .timestamp b => some (compare a b)
  | .vector a, .vector b => compareItems? a b
  | .scores a, .scores b => if a == b then some .eq else none
  | a, b => compareFloats? a b

/-- The order of two lists of values, by the first items that differ. -/
def compareItems? : List Value → List Value → Option Ordering
  | a :: as, b :: bs => match compare? a b with
    | some .eq => compareItems? as bs
    | o => o
  | [], [] => some .eq
  | [], _ :: _ => some .lt
  | _ :: _, [] => some .gt

end

end Value
end Attest
