import Attest.Double.Arith
import Attest.Double.Round
import Attest.Expr

/-!
Constant expressions.

Whole numbers are folded exactly and must fit a word at every step; as soon as a float takes part
the arithmetic is that of floats.
-/

namespace Attest

inductive FoldFault where
  | column (name : String)
  | notBool (found : Literal)
  | notSigned (found : Literal)
  | notTexts (a b : Literal)
  | notNumbers (op : BinaryOp) (a b : Literal)
  | operator (op : BinaryOp)
  | nullTest
  | overflow
  | divisionByZero
  | exponent
deriving Repr

def FoldFault.message : FoldFault → String
  | column n => "column '" ++ n ++ "' cannot be used in a constant expression"
  | notBool l => "NOT applied to " ++ l.render
  | notSigned l => "sign applied to non-number " ++ l.render
  | notTexts a b => "'||' needs two strings, found " ++ a.render ++ " and " ++ b.render
  | notNumbers op a b =>
    "'" ++ op.name ++ "' needs two numbers, found " ++ a.render ++ " and " ++ b.render
  | operator op => "'" ++ op.name ++ "' is not allowed in a constant expression"
  | nullTest => "IS NULL is not allowed in a constant expression"
  | overflow => "integer overflow in constant expression"
  | divisionByZero => "division by zero"
  | exponent => "exponent must be a small natural"

inductive Number where
  | exact (i : Int)
  | float (x : Double)
deriving DecidableEq, Repr

namespace Number

def ofLiteral? : Literal → Option Number
  | .nat n => some (.exact n.toNat)
  | .int i => some (.exact i.toInt)
  | .float x => some (.float x)
  | _ => none

def toDouble : Number → Double
  | exact i => Double.ofInt i
  | float x => x

/-- The literal of a number, which a whole number has only if it fits a word. -/
def toLiteral : Number → Except FoldFault Literal
  | float x => .ok (.float x)
  | exact i => match Literal.ofInt? i with
    | some l => .ok l
    | none => .error .overflow

/-- A power, unless it cannot fit a word: from two on, the hundred and twenty-eighth is too
large. -/
def power? (a : Int) (n : Nat) : Option Int :=
  if a.natAbs ≤ 1 then some (if n == 0 then 1 else if n % 2 == 0 then a * a else a)
  else if n < 128 then some (Int.pow a n)
  else none

/-- Exact arithmetic: division truncates, and a remainder has the sign of the dividend. -/
def exactly (op : BinaryOp) (a b : Int) : Except FoldFault Number :=
  match op with
  | .add => .ok (.exact (a + b))
  | .sub => .ok (.exact (a - b))
  | .mul => .ok (.exact (a * b))
  | .div => if b == 0 then .error .divisionByZero else .ok (.exact (a.tdiv b))
  | .mod => if b == 0 then .error .divisionByZero else .ok (.exact (a.tmod b))
  | .pow =>
    if b < 0 || 0x100000000 ≤ b then .error .exponent
    else match power? a b.toNat with
      | some i => .ok (.exact i)
      | none => .error .overflow
  | op => .error (.operator op)

def floating (op : BinaryOp) (a b : Double) : Except FoldFault Number :=
  match op with
  | .add => .ok (.float (a.add b))
  | .sub => .ok (.float (a.sub b))
  | .mul => .ok (.float (a.mul b))
  | .div => if b.isZero then .error .divisionByZero else .ok (.float (a.div b))
  | .mod => .ok (.float (a.rem b))
  | .pow => .ok (.float (a.pow b))
  | op => .error (.operator op)

def apply (op : BinaryOp) : Number → Number → Except FoldFault Number
  | exact a, exact b => exactly op a b
  | x, y => floating op x.toDouble y.toDouble

end Number

namespace Expr

def foldUnary (op : UnaryOp) (l : Literal) : Except FoldFault Literal :=
  match op with
  | .not => match l with
    | .bool b => .ok (.bool !b)
    | l => .error (.notBool l)
  | .plus => if l.isNumber then .ok l else .error (.notSigned l)
  | .neg => match Number.ofLiteral? l with
    | some (.exact i) => (Number.exact (-i)).toLiteral
    | some (.float x) => .ok (.float x.neg)
    | none => .error (.notSigned l)

def foldBinary (op : BinaryOp) (a b : Literal) : Except FoldFault Literal :=
  if op == .concat then
    match a, b with
    | .text s, .text t => .ok (.text (s ++ t))
    | a, b => .error (.notTexts a b)
  else match Number.ofLiteral? a, Number.ofLiteral? b with
    | some x, some y => do (← Number.apply op x y).toLiteral
    | _, _ => .error (.notNumbers op a b)

/-- The literal that an expression without columns is. -/
def fold : Expr → Except FoldFault Literal
  | literal v _ => .ok v
  | column id => .error (.column id.name)
  | unary op e _ => do foldUnary op (← e.fold)
  | binary op l r _ => do
    if op == .concat || op.isArithmetic then
      let a ← l.fold
      let b ← r.fold
      foldBinary op a b
    else .error (.operator op)
  | isNull _ _ _ => .error .nullTest

end Expr
end Attest
