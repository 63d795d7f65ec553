import Attest.Schema
import Attest.Statement
import Attest.Verifier

/-!
Statements whose columns are resolved and whose values have types.
-/

namespace Attest

/-- How the type of an assignment was found. -/
inductive Dialect where
  | explicit
  | inferred
deriving DecidableEq, Repr

namespace Dialect

def all : List Dialect := [explicit, inferred]

def name : Dialect → String
  | explicit => "explicit"
  | inferred => "inferred"

instance : ToString Dialect := ⟨name⟩

end Dialect

structure ColumnRef where
  name : String
  ty : Ty
deriving DecidableEq, Repr

namespace ColumnRef

def render (c : ColumnRef) : String := c.name ++ ":" ++ c.ty.render

end ColumnRef

inductive TypedExpr where
  | column (c : ColumnRef)
  | literal (value : Value) (ty : Ty)
  | unary (op : UnaryOp) (operand : TypedExpr) (ty : Ty)
  | binary (op : BinaryOp) (left right : TypedExpr) (ty : Ty)
  | isNull (operand : TypedExpr) (negated : Bool)
deriving Repr

namespace TypedExpr

def ty : TypedExpr → Ty
  | column c => c.ty
  | literal _ t => t
  | unary _ _ t => t
  | binary _ _ _ t => t
  | isNull _ _ => .bool

def columns : TypedExpr → List ColumnRef
  | column c => [c]
  | literal _ _ => []
  | unary _ e _ => e.columns
  | binary _ l r _ => l.columns ++ r.columns
  | isNull e _ => e.columns

def render : TypedExpr → String
  | column c => c.name
  | literal v _ => v.render
  | unary op e _ => Expr.prefixed op e.render
  | binary op l r _ => "(" ++ l.render ++ " " ++ op.name ++ " " ++ r.render ++ ")"
  | isNull e negated => Expr.nullTest e.render negated

end TypedExpr

/-- An assignment whose value is of the type of its column. -/
structure TypedAssignment where
  column : String
  value : TypedValue
  dialect : Dialect
  method : Method
  evidence : String
  position : Position

structure TypedOrderKey where
  column : ColumnRef
  direction : SortDirection
deriving DecidableEq, Repr

/-- A statement that passed the checks.  For a deletion the projection holds all columns, since
rows go as a whole. -/
structure TypedStatement where
  kind : StatementKind
  table : String
  assignments : List TypedAssignment := []
  projection : List ColumnRef := []
  predicate : Option TypedExpr := none
  orderBy : List TypedOrderKey := []
  limit : Option UInt64 := none
  normalForm : Option NormalForm := none
  provenance : ProvenanceClause := {}
  warnings : List String := []

namespace TypedStatement

/-- Explicit if every assignment is. -/
def dialect (s : TypedStatement) : Dialect :=
  if s.assignments.any (·.dialect == .inferred) then .inferred else .explicit

end TypedStatement
end Attest
