import Attest.Expr
import Attest.Literal.Parser

/-!
Expressions in the source, by precedence climbing: an expression at a level holds only operators
that bind at least that tightly outside its parentheses.
-/

namespace Attest
namespace Expr

/-- The operator that a token is in front of an operand. -/
def unaryOf? : TokenKind → Option UnaryOp
  | .keyword .NOT => some .not
  | .symbol .minus => some .neg
  | .symbol .plus => some .plus
  | _ => none

def binaryOf? : TokenKind → Option BinaryOp
  | .keyword .OR => some .or
  | .keyword .AND => some .and
  | .symbol .eq => some .eq
  | .symbol .ne => some .ne
  | .symbol .lt => some .lt
  | .symbol .gt => some .gt
  | .symbol .le => some .le
  | .symbol .ge => some .ge
  | .symbol .concat => some .concat
  | .symbol .plus => some .add
  | .symbol .minus => some .sub
  | .symbol .star => some .mul
  | .symbol .slash => some .div
  | .symbol .percent => some .mod
  | .symbol .caret => some .pow
  | _ => none

/-- An operator in front of an operand, if it binds at least at this level. -/
def unaryParser (least : Nat) : Parser (Option (UnaryOp × Position)) :=
  Parser.takeIf fun t => (unaryOf? t.kind).bind fun op =>
    if least ≤ op.level then some (op, t.position) else none

def binaryParser (least : Nat) : Parser (Option (BinaryOp × Position)) :=
  Parser.takeIf fun t => (binaryOf? t.kind).bind fun op =>
    if least ≤ op.level then some (op, t.position) else none

def nullTestParser (position : Position) (operand : Expr) : Parser Expr := do
  let negated ← Parser.takeKeyword .NOT
  let _ ← Parser.expect "NULL" fun t => if t.kind == .null then some () else none
  return isNull operand negated position

/-- At most `n` tests for null on an operand.  They bind tighter than any operator. -/
def nullTests : Nat → Expr → Parser Expr
  | 0, e => pure e
  | n + 1, e => do
    let position ← Parser.takeIf fun t =>
      if t.kind == .keyword .IS then some t.position else none
    match position with
    | some p => do nullTests n (← nullTestParser p e)
    | none => return e

/-- At most `n` operators of at least a level, each with its right operand, behind a left one. -/
def operations (operand : Nat → Parser Expr) (least : Nat) : Nat → Expr → Parser Expr
  | 0, e => pure e
  | n + 1, e => do
    match ← binaryParser least with
    | some (op, p) => do
      let right ← operand op.rightLevel
      operations operand least n (binary op e right p)
    | none => return e

def startsLiteral : TokenKind → Bool
  | .symbol .lbracket => true
  | .symbol .lbrace => true
  | kind => (Literal.ofToken? kind).isSome

/-- A column, a literal or an expression in parentheses. -/
def leaf (literal : Parser Literal) (inner : Parser Expr) : Parser Expr := do
  let t := (← Parser.stream).peek
  match t.kind with
  | .ident name =>
    let _ ← Parser.advance
    return column ⟨name, t.position⟩
  | .symbol .lparen =>
    let _ ← Parser.advance
    let e ← inner
    let _ ← Parser.symbol .rparen
    return e
  | kind =>
    if startsLiteral kind then
      return Expr.literal (← literal) t.position
    else Parser.unexpected ["expression"]

/-- An expression at a level, with this many levels of nesting left of the limit. -/
def parserAt (limit : Nat) : Nat → Nat → Parser Expr
  | 0, _ => Parser.tooDeep limit
  | d + 1, least => do
    let first ← match ← unaryParser least with
      | some (op, p) => (unary op · p) <$> parserAt limit d op.level
      | none => leaf (Literal.parserAt limit d) (parserAt limit d 0)
    -- tests and operators that follow each other stay on this level: only operands nest
    let first ← nullTests (← Parser.stream).rest.length first
    operations (parserAt limit d) least (← Parser.stream).rest.length first

def parser (limit : Nat) : Parser Expr := parserAt limit limit 0

/-- The expression that tokens begin with.  At least one level of nesting is allowed. -/
def ofTokens (limit : Nat) (ts : List Token) : Except ParseError Expr :=
  (parser (max limit 1)).run (TokenStream.ofTokens ts)

end Expr
end Attest
