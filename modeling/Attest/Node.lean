import Attest.Certificate
import Attest.Provenance
import Attest.TypedStatement

/-!
Nodes: what a statement is compiled to.

Every value in a node is of its type and comes with the certificate of it, every change carries its
provenance, and the node says which categories of types it needs access to.
-/

namespace Attest

/-- A condition on rows. -/
inductive Predicate where
  | column (c : ColumnRef)
  | literal (v : TypedValue)
  | unary (op : UnaryOp) (operand : Predicate)
  | binary (op : BinaryOp) (left right : Predicate)
  | isNull (operand : Predicate) (negated : Bool)

namespace Predicate

def columns : Predicate → List ColumnRef
  | column c => [c]
  | literal _ => []
  | unary _ p => p.columns
  | binary _ l r => l.columns ++ r.columns
  | isNull p _ => p.columns

/-- The condition with every operator in parentheses. -/
def render : Predicate → String
  | column c => c.name
  | literal v => v.value.render
  | unary op p => Expr.prefixed op p.render
  | binary op l r => "(" ++ l.render ++ " " ++ op.name ++ " " ++ r.render ++ ")"
  | isNull p negated => Expr.nullTest p.render negated

/-- Equality as written, with floats compared as numbers. -/
def same : Predicate → Predicate → Bool
  | column c, column d => c.name == d.name && c.ty.same d.ty
  | literal v, literal w => v.same w
  | unary o p, unary o' q => o == o' && p.same q
  | binary o l r, binary o' l' r' => o == o' && l.same l' && r.same r'
  | isNull p n, isNull q m => p.same q && n == m
  | _, _ => false

end Predicate

/-- A value for a column. -/
structure Cell where
  column : String
  value : TypedValue
  certificate : Certificate
  dialect : Dialect

structure SortKey where
  column : String
  direction : SortDirection
deriving DecidableEq, Repr

/-- What access a node needs: the categories of all columns it writes or reads. -/
structure Access where
  role : Option String
  dialect : Dialect
  categories : List Category
deriving DecidableEq, Repr

structure Node where
  kind : StatementKind
  table : String
  cells : List Cell
  projection : List ColumnRef
  predicate : Option Predicate
  orderBy : List SortKey
  limit : Option UInt64
  normalForm : Option NormalForm
  provenance : Option Provenance
  access : Access

namespace Cell

def same (c d : Cell) : Bool :=
  c.column == d.column && c.value.same d.value && c.certificate == d.certificate
    && c.dialect == d.dialect

end Cell

namespace Node

def bindRole (n : Node) (role : String) : Node :=
  { n with access := { n.access with role := some role } }

/-- Whether every certificate says that it was verified. -/
def isVerified (n : Node) : Bool := n.cells.all (·.certificate.verified)

def sameList {α : Type} (f : α → α → Bool) : List α → List α → Bool
  | [], [] => true
  | a :: as, b :: bs => f a b && sameList f as bs
  | _, _ => false

def samePredicate : Option Predicate → Option Predicate → Bool
  | none, none => true
  | some p, some q => p.same q
  | _, _ => false

def same (m n : Node) : Bool :=
  m.kind == n.kind && m.table == n.table && sameList Cell.same m.cells n.cells
    && sameList (fun (c d : ColumnRef) => c.name == d.name && c.ty.same d.ty)
      m.projection n.projection
    && samePredicate m.predicate n.predicate && m.orderBy == n.orderBy && m.limit == n.limit
    && m.normalForm == n.normalForm && m.provenance == n.provenance && m.access == n.access

end Node
end Attest
