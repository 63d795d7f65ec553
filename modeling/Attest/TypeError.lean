import Attest.Expr.Fold
import Attest.Literal.Typing
import Attest.Verifier

/-!
What can be wrong with a statement for a schema.
-/

namespace Attest

inductive TypeFault where
  | wrongTable (found schema : String)
  | unknownColumn (name table : String) (near : Option String)
  | assignedTwice (column : String)
  | notConstant (column : String) (target : Ty) (value : Expr) (why : FoldFault)
  | misdeclared (column : String) (target declared : Ty)
  | badContent (column : String) (target : Ty) (found : Literal) (why : LiteralFault)
  | nullAssigned (column : String) (target : Ty)
  | notAssignable (column : String) (target : Ty) (found : Literal)
  | violated (column : String) (target : Ty) (value : Value) (why : Violation)
  | unorderedColumn (column : String) (ty : Ty)
  | notBool (ty : Ty)
  | badConstant (e : Expr) (why : FoldFault)
  | badOperand (target : Ty) (found : Literal) (why : LiteralFault)
  | nullCompared
  | untyped (found : Literal) (why : InferFault)
  | unfit (found : Literal) (ty : Ty)
  | notSigned (op : UnaryOp) (base : Ty)
  | notLogical (op : String) (actual : Ty)
  | mixed (op : BinaryOp) (left right : Ty)
  | unordered (op : BinaryOp) (base : Ty)
  | notText (base : Ty)
  | notNumbers (op : BinaryOp) (base : Ty)
deriving Repr

namespace TypeFault

def column? : TypeFault → Option String
  | unknownColumn n _ _ => some n
  | assignedTwice c => some c
  | notConstant c _ _ _ => some c
  | misdeclared c _ _ => some c
  | badContent c _ _ _ => some c
  | nullAssigned c _ => some c
  | notAssignable c _ _ => some c
  | violated c _ _ _ => some c
  | unorderedColumn c _ => some c
  | _ => none

/-- The type that a message gives a literal: its own, or else its text. -/
def literalType (l : Literal) : String :=
  match l.infer with
  | .ok t => t.render
  | .error _ => l.render

def expected : TypeFault → String
  | wrongTable _ s => s
  | unknownColumn _ t _ => "a column of '" ++ t ++ "'"
  | assignedTwice _ => "one assignment per column"
  | notConstant _ t _ _ => t.render
  | misdeclared _ t _ => t.render
  | badContent _ t _ _ => t.render
  | nullAssigned _ t => t.render
  | notAssignable _ t _ => t.render
  | violated _ t _ _ => t.render
  | unorderedColumn _ _ => "an orderable type"
  | notBool _ => "Bool"
  | badConstant _ _ => "a constant"
  | badOperand t _ _ => t.render
  | nullCompared => "a value"
  | untyped _ _ => "a typed literal"
  | unfit _ t => t.render
  | notSigned _ _ => "a numeric type"
  | notLogical _ _ => Ty.bool.render
  | mixed _ l _ => l.render
  | unordered _ _ => "an orderable type"
  | notText _ => Ty.string.render
  | notNumbers _ _ => "a numeric type"

def actual : TypeFault → String
  | wrongTable f _ => f
  | unknownColumn n _ _ => n
  | assignedTwice c => c
  | notConstant _ _ v _ => v.render
  | misdeclared _ _ a => a.render
  | badContent _ _ l _ => l.render
  | nullAssigned _ _ => "NULL"
  | notAssignable _ _ l => literalType l
  | violated _ _ v _ => v.render
  | unorderedColumn _ t => t.render
  | notBool t => t.render
  | badConstant e _ => e.render
  | badOperand _ l _ => l.render
  | nullCompared => "NULL"
  | untyped l _ => l.render
  | unfit l _ => l.render
  | notSigned _ b => b.render
  | notLogical _ t => t.render
  | mixed _ _ r => r.render
  | unordered _ b => b.render
  | notText b => b.render
  | notNumbers _ b => b.render

def mismatch (expected actual : Ty) : String :=
  "expected " ++ expected.render ++ ", found " ++ actual.render

def message : TypeFault → String
  | wrongTable f s =>
    "statement targets table '" ++ f ++ "' but the schema describes '" ++ s ++ "'"
  | unknownColumn n t _ => "unknown column '" ++ n ++ "' in table '" ++ t ++ "'"
  | assignedTwice _ => "column assigned more than once"
  | notConstant _ _ _ why => why.message
  | misdeclared _ t a => mismatch t a
  | badContent _ _ _ why => why.message
  | nullAssigned _ t => "NULL is not a value of " ++ t.render
  | notAssignable _ t l =>
    "cannot assign " ++ literalType l ++ " literal " ++ l.render ++ " to " ++ t.render
  | violated _ _ _ why => why.detail
  | unorderedColumn _ t => "cannot order by " ++ t.render ++ " column"
  | notBool t => "WHERE predicate must be Bool, found " ++ t.render
  | badConstant _ why => why.message
  | badOperand _ _ why => why.message
  | nullCompared => "NULL cannot be compared"
  | untyped _ why => why.message
  | unfit l t => "literal " ++ l.render ++ " does not fit " ++ t.render
  | notSigned op b => "'" ++ op.name ++ "' needs a number, found " ++ b.render
  | notLogical _ t => mismatch .bool t
  | mixed _ l r => mismatch l r
  | unordered op b => "'" ++ op.name ++ "' cannot compare " ++ b.render ++ " values"
  | notText b => mismatch .string b
  | notNumbers op b => "'" ++ op.name ++ "' needs numbers, found " ++ b.render

/-- The kind of literal that a type is written with. -/
def literalKind : Ty → String
  | .nat => "natural number"
  | .boundedNat _ _ => "natural number"
  | .int => "integer"
  | .float => "float"
  | .boundedFloat _ _ => "float"
  | .confidence => "float"
  | .string => "string"
  | .nonEmptyString => "string"
  | .uuid => "UUID string"
  | .timestamp => "RFC 3339 string or epoch-millisecond"
  | .bool => "boolean"
  | .vector _ _ => "vector"
  | .promptScores => "score record"

def suggestion : TypeFault → Option String
  | unknownColumn _ _ near => near.map fun n => "did you mean '" ++ n ++ "'?"
  | notConstant _ _ _ _ => some "assignment values must be constant expressions"
  | misdeclared _ t _ => some ("annotate the value as " ++ t.render)
  | nullAssigned _ _ => some "columns are not nullable; provide a value"
  | notAssignable _ t _ => some ("provide a " ++ literalKind t ++ " literal")
  | violated _ _ _ why => why.suggestion
  | unorderedColumn _ _ => some "order by a numeric, string or timestamp column"
  | notBool _ => some "compare the column with a value, e.g. col = 1"
  | nullCompared => some "use IS NULL or IS NOT NULL"
  | notLogical op _ => some ("operands of " ++ op ++ " must be Bool")
  | mixed op _ _ => some ("both sides of '" ++ op.name ++ "' must have the same base type")
  | unordered _ _ => some "use = or != instead"
  | notText _ => some "'||' concatenates strings"
  | _ => none

end TypeFault

structure TypeError where
  position : Position
  fault : TypeFault
deriving Repr

namespace TypeError

def message (e : TypeError) : String :=
  let place := match e.fault.column? with
    | some c => " in column '" ++ c ++ "'"
    | none => ""
  let hint := match e.fault.suggestion with
    | some s => " (" ++ s ++ ")"
    | none => ""
  s!"type error at {e.position}" ++ place ++ ": " ++ e.fault.message ++ hint

end TypeError

/-- A value for a column of which it cannot be said whether it is of the column's type. -/
structure ProofError where
  column : String
  ty : Ty
  why : Doubt
  position : Position
deriving Repr

namespace ProofError

def message (e : ProofError) : String :=
  "cannot verify column '" ++ e.column ++ "' of type " ++ e.ty.render ++ ": " ++ e.why.reason

end ProofError

inductive CheckError where
  | type (e : TypeError)
  | proof (e : ProofError)
deriving Repr

namespace CheckError

def message : CheckError → String
  | type e => e.message
  | proof e => e.message

def position : CheckError → Position
  | type e => e.position
  | proof e => e.position

def suggestion : CheckError → Option String
  | type e => e.fault.suggestion
  | proof _ => none

end CheckError
end Attest
