import Attest.Double.Round

/-!
Arithmetic of binary64 numbers.

Sums, products, quotients and powers are those of the machine.  An operation whose result is no
number answers with the first of its operands that is a NaN, made quiet, or with the NaN that the
machine makes of an invalid operation, whose sign is set.  The remainder is computed exactly.
-/

namespace Attest
namespace Double

def toFloat (x : Double) : Float := Float.ofBits x.bits

def ofFloat (x : Float) : Double := ⟨x.toBits⟩

/-- A NaN with its quiet bit set. -/
def quiet (x : Double) : Double := ⟨x.bits ||| 0x0008000000000000⟩

/-- The NaN of an invalid operation. -/
def invalid : Double := ofBits 0xfff8000000000000

/-- What an operation on `x` and `y` answers when the result is no number. -/
def nanOf (x y : Double) : Double :=
  if x.isNaN then x.quiet else if y.isNaN then y.quiet else invalid

/-- A machine operation, with the NaN of its result settled by its operands. -/
def lift (f : Float → Float → Float) (x y : Double) : Double :=
  let r := f x.toFloat y.toFloat
  if r.isNaN then nanOf x y else ofFloat r

def add : Double → Double → Double := lift (· + ·)
def sub : Double → Double → Double := lift (· - ·)
def mul : Double → Double → Double := lift (· * ·)
def div : Double → Double → Double := lift (· / ·)
def pow : Double → Double → Double := lift Float.pow

/-- Whole multiples of two to the `e`: the magnitude of a number in that unit. -/
def unitsOf (x : Double) (e : Int) : Nat := x.parts.1 * Nat.pow 2 (x.parts.2 - e).toNat

def ofUnits (n : Nat) (e : Int) : Double :=
  if e < 0 then ofRatio n (Nat.pow 2 e.natAbs) else ofRatio (n * Nat.pow 2 e.natAbs) 1

/-- Remainder of the quotient cut towards zero.  It takes the sign of the dividend. -/
def rem (x y : Double) : Double :=
  if x.isNaN || y.isNaN || !x.isFinite || y.isZero then nanOf x y
  else if !y.isFinite then x
  else
    let e := min x.parts.2 y.parts.2
    let r := ofUnits (x.unitsOf e % y.unitsOf e) e
    if x.negative then r.neg else r

end Double
end Attest
