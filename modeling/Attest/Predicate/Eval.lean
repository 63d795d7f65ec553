import Attest.Double.Arith
import Attest.Node
import Attest.Row
import Attest.Value.Order

/-!
Evaluation of conditions on rows.

A column that a row lacks is null.  Operators on null give null, except that a conjunction with a
false side is false and a disjunction with a true one is true.
-/

namespace Attest

inductive EvalError where
  | overflow
  | divisionByZero
  | notBool (kind : String)
  | unary (op : UnaryOp) (kind : String)
  | compare (left right : String)
  | apply (op : BinaryOp) (left right : String)
  | notArithmetic (op : BinaryOp)
deriving DecidableEq, Repr

def EvalError.reason : EvalError → String
  | overflow => "integer overflow"
  | divisionByZero => "division by zero"
  | notBool k => "expected boolean, found " ++ k
  | unary op k => "cannot apply " ++ op.name ++ " to " ++ k
  | compare l r => "cannot compare " ++ l ++ " with " ++ r
  | apply op l r => "cannot apply " ++ op.name ++ " to " ++ l ++ " and " ++ r
  | notArithmetic op => op.name ++ " is not arithmetic"

namespace Value

/-- The truth value that a value is, or null. -/
def truth : Option Value → Except EvalError (Option Bool)
  | none => .ok none
  | some (.bool b) => .ok (some b)
  | some v => .error (.notBool v.kindName)

def natural (n : Nat) : Except EvalError Value :=
  if n < 0x10000000000000000 then .ok (.nat n.toUInt64) else .error .overflow

def integer (i : Int) : Except EvalError Value :=
  if -0x8000000000000000 ≤ i && i < 0x8000000000000000 then .ok (.int (Int64.ofInt i))
  else .error .overflow

def applyUnary : UnaryOp → Value → Except EvalError Value
  | .not, .bool b => .ok (.bool !b)
  | .plus, .nat n => .ok (.nat n)
  | .plus, .int i => .ok (.int i)
  | .plus, .float x => .ok (.float x)
  | .neg, .int i => integer (-i.toInt)
  | .neg, .nat n =>
    if n.toNat < 0x8000000000000000 then integer (-(n.toNat : Int)) else .error .overflow
  | .neg, .float x => .ok (.float x.neg)
  | op, v => .error (.unary op v.kindName)

/-- A power of natural numbers.  From two on, the sixty-fourth does not fit a word. -/
def power (a b : Nat) : Except EvalError Value :=
  if 0x100000000 ≤ b then .error .overflow
  else if a ≤ 1 then natural (if b == 0 then 1 else a)
  else if 64 ≤ b then .error .overflow
  else natural (Nat.pow a b)

/-- Arithmetic of natural numbers; only a difference may be negative. -/
def applyNats (op : BinaryOp) (a b : Nat) : Except EvalError Value :=
  match op with
  | .add => natural (a + b)
  | .sub => if b ≤ a then natural (a - b) else integer ((a : Int) - b)
  | .mul => natural (a * b)
  | .div => if b == 0 then .error .divisionByZero else natural (a / b)
  | .mod => if b == 0 then .error .divisionByZero else natural (a % b)
  | .pow => power a b
  | op => .error (.notArithmetic op)

def applyFloats (op : BinaryOp) (a b : Double) : Except EvalError Value :=
  match op with
  | .add => .ok (.float (a.add b))
  | .sub => .ok (.float (a.sub b))
  | .mul => .ok (.float (a.mul b))
  | .div => if b.isZero then .error .divisionByZero else .ok (.float (a.div b))
  | .mod => .ok (.float (a.rem b))
  | .pow => .ok (.float (a.pow b))
  | op => .error (.notArithmetic op)

def holds (op : BinaryOp) (o : Ordering) : Bool :=
  match op with
  | .eq => o == .eq
  | .ne => o != .eq
  | .lt => o == .lt
  | .le => o != .gt
  | .gt => o == .gt
  | _ => o != .lt

def applyBinary (op : BinaryOp) (a b : Value) : Except EvalError Value :=
  if op.isComparison then
    match compare? a b with
    | some o => .ok (.bool (holds op o))
    | none => .error (.compare a.kindName b.kindName)
  else match op, a, b with
    | .concat, .text s, .text t => .ok (.text (s ++ t))
    | op, .nat m, .nat n => applyNats op m.toNat n.toNat
    | op, a, b => match a.toDouble?, b.toDouble? with
      | some x, some y => applyFloats op x y
      | _, _ => .error (.apply op a.kindName b.kindName)

/-- Whether one side decides a logical operator: false a conjunction, and true a disjunction. -/
def decides (op : BinaryOp) (b : Option Bool) : Bool := b == some (op == .or)

/-- A logical operator on two sides that may be null. -/
def applyLogical (op : BinaryOp) (l r : Option Bool) : Option Value :=
  if decides op l || decides op r then some (.bool (op == .or))
  else match l, r with
    | some _, some _ => some (.bool (op != .or))
    | _, _ => none

end Value

namespace Predicate

/-- The value of a condition on a row, or null. -/
def eval (r : Row) : Predicate → Except EvalError (Option Value)
  | column c => .ok (r.get? c.name)
  | literal v => .ok (some v.value)
  | isNull p negated => do
    let v ← p.eval r
    return some (.bool (v.isNone != negated))
  | unary op p => do
    match ← p.eval r with
    | none => return none
    | some v => some <$> Value.applyUnary op v
  | binary op p q => do
    if op.isLogical then
      let l ← Value.truth (← p.eval r)
      -- the right side, with its errors, is left alone once the left one decides
      if Value.decides op l then return some (.bool (op == .or))
      else return Value.applyLogical op l (← Value.truth (← q.eval r))
    else
      let a ← p.eval r
      let b ← q.eval r
      match a, b with
      | some a, some b => some <$> Value.applyBinary op a b
      | _, _ => return none

/-- Whether a row meets a condition, if there is one: null does not. -/
def accepts (p : Option Predicate) (r : Row) : Except EvalError Bool :=
  match p with
  | none => .ok true
  | some p => match p.eval r with
    | .error e => .error e
    | .ok (some (.bool true)) => .ok true
    | .ok _ => .ok false

end Predicate
end Attest
