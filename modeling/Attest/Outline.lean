import Attest.Node

/-!
Outlines of trees: operators before their operands, in parentheses, with what each node carries
behind it.  Written expressions show positions, checked ones types.
-/

namespace Attest

def Position.mark (p : Position) : String := s!"@{p.line}:{p.column}:{p.offset}"

namespace Outline

def unary (op : UnaryOp) (e : String) : String := "(" ++ op.name ++ " " ++ e ++ ")"

def binary (op : BinaryOp) (l r : String) : String := "(" ++ op.name ++ " " ++ l ++ " " ++ r ++ ")"

def isNull (negated : Bool) (e : String) : String :=
  (if negated then "(ISNOTNULL " else "(ISNULL ") ++ e ++ ")"

end Outline

/-- An expression with the position of every node. -/
def Expr.outline : Expr → String
  | column id => id.name ++ id.position.mark
  | literal v p => "#" ++ v.render ++ p.mark
  | unary op e p => Outline.unary op e.outline ++ p.mark
  | binary op l r p => Outline.binary op l.outline r.outline ++ p.mark
  | isNull e n p => Outline.isNull n e.outline ++ p.mark

def TypedExpr.outline : TypedExpr → String
  | column c => c.render
  | literal v t => "#" ++ v.render ++ ":" ++ t.render
  | unary op e t => Outline.unary op e.outline ++ ":" ++ t.render
  | binary op l r t => Outline.binary op l.outline r.outline ++ ":" ++ t.render
  | isNull e n => Outline.isNull n e.outline ++ ":Bool"

def Predicate.outline : Predicate → String
  | column c => c.render
  | literal v => "#" ++ v.value.render ++ ":" ++ v.ty.render
  | unary op p => Outline.unary op p.outline
  | binary op l r => Outline.binary op l.outline r.outline
  | isNull p n => Outline.isNull n p.outline

end Attest
