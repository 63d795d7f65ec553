import Attest.Literal.Typing
import Attest.Node

/-!
Conditions from expressions whose types are not checked.

Columns stand as natural numbers, whatever they hold, and a literal has the type it would get with
no column beside it.
-/

namespace Attest

inductive UntypedFault where
  | infer (why : InferFault)
  | coerce
  | refinement (why : RefinementError)

/-- The condition that an expression says, unchecked. -/
def Predicate.ofExpr : Expr → Except UntypedFault Predicate
  | .column id => .ok (.column ⟨id.name, .nat⟩)
  | .literal l _ => do
    let ty ← l.infer.mapError .infer
    let v ← (l.coerce ty).mapError fun _ => .coerce
    return .literal (← (TypedValue.make ty v).mapError .refinement)
  | .unary op e _ => do return .unary op (← ofExpr e)
  | .binary op l r _ => do
    let l ← ofExpr l
    return .binary op l (← ofExpr r)
  | .isNull e n _ => do return .isNull (← ofExpr e) n

end Attest
