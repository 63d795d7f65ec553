import Attest.Checker
import Attest.Proofs.Outcome

/-!
When a statement is said to be about the wrong table.

The check compares the table of a statement with that of the schema before anything else.  None of
the faults that it finds behind that is this one, in columns, conditions, values or keys.
-/

namespace Attest

open Outcome (FailsOnly)

/-- A fault is found inside a table, and is not that it is the wrong one. -/
def TypeError.Inside (e : TypeError) : Prop := ∀ found schema, e.fault ≠ .wrongTable found schema

/-- A statement fails inside its table. -/
def CheckError.Inside : CheckError → Prop
  | .type e => e.Inside
  | .proof _ => True

namespace Checker

variable (s : Schema)

theorem inside_resolve (id : Ident) : FailsOnly TypeError.Inside (resolve s id) := by
  unfold resolve
  split
  · exact .ok _
  · exact .error fun _ _ h => by cases h

theorem inside_ownLiteral (l : Literal) (p : Position) :
    FailsOnly TypeError.Inside (ownLiteral l p) := by
  unfold ownLiteral
  split
  · exact .error fun _ _ h => by cases h
  · split
    · exact .ok _
    · exact .error fun _ _ h => by cases h

theorem inside_typeLiteral (l : Literal) (p : Position) (hint : Option Ty) :
    FailsOnly TypeError.Inside (typeLiteral l p hint) := by
  unfold typeLiteral
  split
  · exact .error fun _ _ h => by cases h
  · split
    · exact inside_ownLiteral l p
    · split
      · exact .ok _
      · exact .error fun _ _ h => by cases h
      · exact inside_ownLiteral l p

theorem inside_typeConstant (e : Expr) (hint : Option Ty) :
    FailsOnly TypeError.Inside (typeConstant e hint) := by
  unfold typeConstant
  split
  · exact inside_typeLiteral _ _ hint
  · exact .error fun _ _ h => by cases h

theorem inside_requireBool (e : TypedExpr) (p : Position) (op : String) :
    FailsOnly TypeError.Inside (requireBool e p op) := by
  unfold requireBool
  split
  · exact .ok ()
  · exact .error fun _ _ h => by cases h

theorem inside_operation (op : BinaryOp) (l r : TypedExpr) (p : Position) :
    FailsOnly TypeError.Inside (operation op l r p) := by
  have htype : FailsOnly TypeError.Inside (operationType op l.ty.base p) := by
    unfold operationType
    split_ifs
    all_goals first | exact .ok _ | exact .error fun _ _ h => by cases h
  unfold operation
  split
  · exact .error fun _ _ h => by cases h
  · exact htype.bind fun _ => .ok _

theorem inside_typeExpr (e : Expr) (hint : Option Ty) :
    FailsOnly TypeError.Inside (typeExpr s hint e) := by
  induction e generalizing hint with
  | column id => exact (inside_resolve s id).map
  | literal v p => exact inside_typeLiteral v p hint
  | isNull e negated p ih => exact (ih none).bind fun _ => .ok _
  | unary op e p ih =>
    rw [typeExpr]
    split_ifs
    · exact inside_typeConstant _ hint
    · exact (ih _).bind fun t => (inside_requireBool t p _).bind fun _ => .ok _
    · refine (ih none).bind fun t => ?_
      split
      · exact .ok _
      · exact .error fun _ _ h => by cases h
  | binary op l r p ihl ihr =>
    rw [typeExpr]
    split_ifs
    · exact inside_typeConstant _ hint
    · refine (ihl _).bind fun l' => (ihr _).bind fun r' => ?_
      refine (inside_requireBool l' p _).bind fun _ => ?_
      exact (inside_requireBool r' p _).bind fun _ => .ok _
    · exact (ihr none).bind fun r' => (ihl _).bind fun l' => inside_operation op l' r' p
    · exact (ihl none).bind fun l' => (ihr _).bind fun r' => inside_operation op l' r' p

theorem inside_typePredicate (e : Expr) : FailsOnly TypeError.Inside (typePredicate s e) := by
  refine (inside_typeExpr s e none).bind fun t => ?_
  split
  · exact .ok t
  · exact .error fun _ _ h => by cases h

theorem inside_orderKey (k : OrderKey) : FailsOnly TypeError.Inside (orderKey s k) := by
  refine (inside_resolve s k.column).bind fun c => ?_
  split
  · exact .ok _
  · exact .error fun _ _ h => by cases h

theorem inside_projection (p : Projection) : FailsOnly TypeError.Inside (projection s p) := by
  cases p with
  | all => exact .ok _
  | columns ids => exact .mapM (inside_resolve s) ids

theorem inside_targetOf (column : ColumnRef) (a : Assignment) :
    FailsOnly TypeError.Inside (targetOf column a) := by
  unfold targetOf
  split
  · exact .ok _
  · split
    · exact .ok _
    · exact .error fun _ _ h => by cases h

theorem inside_coercionFault (column : String) (target : Ty) (l : Literal) (e : CoercionError)
    (p : Position) : TypeError.Inside ⟨p, coercionFault column target l e⟩ := by
  intro found schema h
  dsimp only at h
  unfold coercionFault at h
  split at h
  · cases h
  · split at h <;> cases h

theorem inside_assignedValue (a : Assignment) : FailsOnly TypeError.Inside (assignedValue s a) := by
  refine (inside_resolve s a.column).bind fun column => ?_
  dsimp only
  split
  · refine (inside_targetOf column a).bind fun target => ?_
    split
    · exact .ok _
    · exact .error (inside_coercionFault _ _ _ _ _)
  · exact .error fun _ _ h => by cases h

theorem inside_lift {α : Type} {x : Except TypeError α} (h : FailsOnly TypeError.Inside x) :
    FailsOnly CheckError.Inside (lift x) := by
  cases x with
  | ok a => exact .ok a
  | error e => exact .error (h e rfl)

theorem inside_predicate (e : Option Expr) : FailsOnly CheckError.Inside (predicate s e) := by
  cases e with
  | none => exact .ok none
  | some e => exact inside_lift (inside_typePredicate s e).map

theorem inside_assignment (v : Verifier) (a : Assignment) :
    FailsOnly CheckError.Inside (assignment s v a) := by
  unfold assignment
  split
  · next e he => exact .error (inside_assignedValue s a e he)
  · split
    · exact .ok _
    · next failure _ =>
      cases failure with
      | violated why => exact .error fun _ _ h => by cases h
      | undecidable why => exact .error trivial

theorem inside_assignments (v : Verifier) (seen : List String) (as : List Assignment) :
    FailsOnly CheckError.Inside (assignments s v seen as) := by
  induction as generalizing seen with
  | nil => exact .ok []
  | cons a rest ih =>
    rw [assignments]
    split
    · exact .error fun _ _ h => by cases h
    · exact (inside_assignment s v a).bind fun t => (ih _).bind fun ts => .ok (t :: ts)

theorem inside_body (v : Verifier) (st : Statement) :
    FailsOnly CheckError.Inside (body s v st) := by
  cases st with
  | insert table as clause => exact (inside_assignments s v [] as).bind fun _ => .ok _
  | update table as p clause =>
    exact (inside_assignments s v [] as).bind fun _ => (inside_predicate s p).bind fun _ => .ok _
  | delete table p clause => exact (inside_lift (inside_typePredicate s p)).bind fun _ => .ok _
  | select table proj p keys limit =>
    refine (inside_lift (inside_projection s proj)).bind fun _ => ?_
    refine (inside_predicate s p).bind fun _ => ?_
    exact (inside_lift (.mapM (inside_orderKey s) keys)).bind fun _ => .ok _
  | normalize table target clause => exact .ok _

/-- A statement is about the wrong table only if its table has another name than the schema. -/
theorem ne_of_wrongTable {s : Schema} {v : Verifier} {st : Statement} {p : Position}
    {found schema : String}
    (h : check s v st = .error (.type ⟨p, .wrongTable found schema⟩)) : st.table.name ≠ s.name := by
  intro hname
  have hbody : body s v st = .error (.type ⟨p, .wrongTable found schema⟩) := by
    rw [← h, check, if_neg (by simpa using hname)]
  exact inside_body s v st _ hbody found schema rfl

end Checker
end Attest
