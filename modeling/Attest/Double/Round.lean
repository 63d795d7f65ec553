import Attest.Double.Basic

/-!
Rounding an exact ratio to the nearest binary number, a half going to the even neighbour.  Reading
decimals and converting integers are instances of it.
-/

namespace Attest

/-- A binary interchange format: bits of the significand, exponent of its least unit, and the bits
of infinity. -/
structure BinaryFormat where
  precision : Nat
  least : Int
  infinity : Nat

namespace BinaryFormat

def binary64 : BinaryFormat := ⟨53, -1074, 0x7ff0000000000000⟩
def binary32 : BinaryFormat := ⟨24, -149, 0x7f800000⟩

/-- The ratio `num / den` divided by two to the `e`. -/
def scaled (num den : Nat) (e : Int) : Nat × Nat :=
  if e < 0 then (num * Nat.pow 2 e.natAbs, den) else (num, den * Nat.pow 2 e.natAbs)

/-- A quotient to the nearest whole number, a half to the even one. -/
def roundQuotient (num den : Nat) : Nat :=
  let q := num / den
  let twice := 2 * (num % den)
  if den < twice || (twice == den && q % 2 == 1) then q + 1 else q

/-- Exponent of the unit in which a ratio has as many bits as the format holds. -/
def unitOf (f : BinaryFormat) (num den : Nat) : Int :=
  let guess : Int := (num.log2 : Int) - den.log2 - (f.precision - 1 : Nat)
  let (n, d) := scaled num den guess
  let exact := if n / d < Nat.pow 2 (f.precision - 1) then guess - 1 else guess
  max exact f.least

/-- Bits of the number nearest to the positive ratio `num / den`.  A significand that rounds up to
the next power of two carries into the exponent by itself. -/
def nearest (f : BinaryFormat) (num den : Nat) : Nat :=
  if num == 0 then 0
  else
    let e := f.unitOf num den
    let (n, d) := scaled num den e
    let bits := (e - f.least).toNat * Nat.pow 2 (f.precision - 1) + roundQuotient n d
    min bits f.infinity

end BinaryFormat

namespace Double

def ofRatio (num den : Nat) : Double := ofBits (BinaryFormat.binary64.nearest num den)

def ofNat (n : Nat) : Double := ofRatio n 1

def ofInt (i : Int) : Double := if i < 0 then (ofNat i.natAbs).neg else ofNat i.natAbs

/-- The number nearest to `m` times ten to the `e`.  Exponents far outside the range of the numbers
are answered at once. -/
def ofDecimal (m : Nat) (e : Int) : Double :=
  let digits : Int := (Nat.toDigits 10 m).length
  if m == 0 then zero
  else if 310 < e + digits then infinity
  else if e + digits < -324 then zero
  else if e < 0 then ofRatio m (Nat.pow 10 e.natAbs)
  else ofRatio (m * Nat.pow 10 e.natAbs) 1

end Double
end Attest
