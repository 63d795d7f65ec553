/-!
Stable sorting by insertion.

An element is put behind everything that it is not smaller than, so elements that compare equal
keep their order.
-/

namespace Attest
namespace Sorting

variable {α : Type}

/-- Put an element into a list in falling order. -/
def insertFalling (less : α → α → Bool) (x : α) : List α → List α
  | [] => [x]
  | y :: ys => if less x y then y :: insertFalling less x ys else x :: y :: ys

/-- The list in rising order. -/
def sort (less : α → α → Bool) (xs : List α) : List α :=
  (xs.foldl (fun acc x => insertFalling less x acc) []).reverse

end Sorting
end Attest
