import Attest.Literal
import Attest.Position

/-!
Expressions of the source language.
-/

namespace Attest

structure Ident where
  name : String
  position : Position
deriving DecidableEq, Repr, Inhabited

inductive UnaryOp where
  | not
  | neg
  | plus
deriving DecidableEq, Repr

namespace UnaryOp

def all : List UnaryOp := [not, neg, plus]

def name : UnaryOp → String
  | not => "NOT"
  | neg => "-"
  | plus => "+"

instance : ToString UnaryOp := ⟨name⟩

end UnaryOp

inductive BinaryOp where
  | or | and
  | eq | ne | lt | gt | le | ge
  | concat
  | add | sub | mul | div | mod | pow
deriving DecidableEq, Repr

namespace BinaryOp

def all : List BinaryOp :=
  [or, and, eq, ne, lt, gt, le, ge, concat, add, sub, mul, div, mod, pow]

def name : BinaryOp → String
  | or => "OR"
  | and => "AND"
  | eq => "="
  | ne => "!="
  | lt => "<"
  | gt => ">"
  | le => "<="
  | ge => ">="
  | concat => "||"
  | add => "+"
  | sub => "-"
  | mul => "*"
  | div => "/"
  | mod => "%"
  | pow => "^"

instance : ToString BinaryOp := ⟨name⟩

def isLogical : BinaryOp → Bool
  | and => true
  | or => true
  | _ => false

/-- Comparisons that need an order. -/
def isOrdering : BinaryOp → Bool
  | lt => true
  | gt => true
  | le => true
  | ge => true
  | _ => false

def isComparison : BinaryOp → Bool
  | eq => true
  | ne => true
  | op => op.isOrdering

def isArithmetic : BinaryOp → Bool
  | add => true
  | sub => true
  | mul => true
  | div => true
  | mod => true
  | pow => true
  | _ => false

/-- How tightly an operator binds. -/
def level : BinaryOp → Nat
  | or => 1
  | and => 2
  | eq => 4
  | ne => 4
  | lt => 5
  | gt => 5
  | le => 5
  | ge => 5
  | concat => 6
  | add => 7
  | sub => 7
  | mul => 8
  | div => 8
  | mod => 8
  | pow => 9

/-- How tightly the right operand must bind: powers group to the right, all else to the left. -/
def rightLevel : BinaryOp → Nat
  | pow => 9
  | op => op.level + 1

end BinaryOp

def UnaryOp.level : UnaryOp → Nat
  | not => 3
  | neg => 10
  | plus => 10

/-- An expression.  The position is that of the operator, or of the leaf. -/
inductive Expr where
  | column (id : Ident)
  | literal (value : Literal) (position : Position)
  | unary (op : UnaryOp) (operand : Expr) (position : Position)
  | binary (op : BinaryOp) (left right : Expr) (position : Position)
  | isNull (operand : Expr) (negated : Bool) (position : Position)
deriving Repr, Inhabited

namespace Expr

def position : Expr → Position
  | column id => id.position
  | literal _ p => p
  | unary _ _ p => p
  | binary _ _ _ p => p
  | isNull _ _ p => p

def columns : Expr → List Ident
  | column id => [id]
  | literal _ _ => []
  | unary _ e _ => e.columns
  | binary _ l r _ => l.columns ++ r.columns
  | isNull e _ _ => e.columns

def nullTest (operand : String) (negated : Bool) : String :=
  "(" ++ operand ++ " IS " ++ (if negated then "NOT " else "") ++ "NULL)"

def prefixed (op : UnaryOp) (operand : String) : String :=
  match op with
  | .not => "(NOT " ++ operand ++ ")"
  | op => "(" ++ op.name ++ operand ++ ")"

/-- The expression with every operator in parentheses. -/
def render : Expr → String
  | column id => id.name
  | literal v _ => v.render
  | unary op e _ => prefixed op e.render
  | binary op l r _ => "(" ++ l.render ++ " " ++ op.name ++ " " ++ r.render ++ ")"
  | isNull e negated _ => nullTest e.render negated

instance : ToString Expr := ⟨render⟩

end Expr
end Attest
