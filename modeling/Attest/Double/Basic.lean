/-!
Binary floating point numbers of 64 bits.

A number is kept as its bits, so that equality of numbers is equality of bits and a NaN keeps its
payload on its way through a document.  The order of the numbers is a different matter: it is
`Double.key`, an integer that grows with the value and is the same for both zeros.
-/

namespace Attest

/-- A binary64 number, given by its bits. -/
structure Double where
  bits : UInt64
deriving DecidableEq, Inhabited, Repr

namespace Double

/-- The bits without the sign. -/
def magnitude (x : Double) : Nat := x.bits.toNat % 0x8000000000000000

def negative (x : Double) : Bool := 0x8000000000000000 ≤ x.bits.toNat

/-- The bits of infinity; larger magnitudes are not numbers. -/
def infinityBits : Nat := 0x7ff0000000000000

def isNaN (x : Double) : Bool := infinityBits < x.magnitude

def isFinite (x : Double) : Bool := x.magnitude < infinityBits

/-- One of the two zeros. -/
def isZero (x : Double) : Bool := x.magnitude == 0

def ofBits (n : Nat) : Double := ⟨n.toUInt64⟩

def zero : Double := ofBits 0
def one : Double := ofBits 0x3ff0000000000000
def infinity : Double := ofBits infinityBits

def nan : Double := ofBits 0x7ff8000000000000

def neg (x : Double) : Double := ⟨x.bits ^^^ 0x8000000000000000⟩

/-- The place of a number in the order of the numbers. -/
def key (x : Double) : Int := if x.negative then -(x.magnitude : Int) else x.magnitude

def compare? (x y : Double) : Option Ordering :=
  if x.isNaN || y.isNaN then none else some (compare x.key y.key)

/-- Equality as numbers: the zeros agree, and a NaN agrees with nothing. -/
def same (x y : Double) : Bool := x.compare? y == some .eq

/-- Strictly smaller, which a NaN never is. -/
def lt (x y : Double) : Bool := x.compare? y == some .lt

def le (x y : Double) : Bool := x.lt y || x.same y

instance : LT Double := ⟨fun x y => x.lt y = true⟩

instance : LE Double := ⟨fun x y => x.le y = true⟩

instance : DecidableLT Double := fun x y => inferInstanceAs (Decidable (x.lt y = true))

instance : DecidableLE Double := fun x y => inferInstanceAs (Decidable (x.le y = true))

/-- Whole significand and binary exponent: the magnitude is the first times two to the second. -/
def parts (x : Double) : Nat × Int :=
  let field : Nat := x.magnitude / 0x10000000000000
  let fraction : Nat := x.magnitude % 0x10000000000000
  if field == 0 then (fraction, -1074) else (fraction + 0x10000000000000, (field : Int) - 1075)

end Double
end Attest
