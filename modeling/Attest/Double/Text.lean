import Attest.Double.Shortest
import Attest.Double.Round
import Attest.Text.Hex

/-!
Texts of numbers.  Every text shows the shortest decimal that reads back; the layouts differ in
where positional notation ends, in whether a whole number shows a point, and in the form of the
exponent.
-/

namespace Attest

/-- How the digits of a finite number are laid out. -/
structure NumberLayout where
  /-- Whether a first digit at this power of ten is written positionally. -/
  positional : Int → Bool
  /-- Whether a whole number ends in `.0` when written positionally. -/
  point : Bool
  /-- Whether a positive exponent shows its sign. -/
  signedExponent : Bool
  tie : Tie

namespace Decimal

def positional (d : Decimal) (point : Bool) : String :=
  let n : Int := d.digits.length
  if d.exponent < 0 then
    "0." ++ String.ofList (List.replicate (d.exponent.natAbs - 1) '0' ++ d.digits)
  else if n - 1 ≤ d.exponent then
    String.ofList (d.digits ++ List.replicate (d.exponent + 1 - n).toNat '0')
      ++ (if point then ".0" else "")
  else
    String.ofList (d.digits.take (d.exponent + 1).toNat) ++ "."
      ++ String.ofList (d.digits.drop (d.exponent + 1).toNat)

/-- One digit, the point and the others, and the power of ten. -/
def scientific (d : Decimal) (signed : Bool) : String :=
  let fraction := d.digits.drop 1
  String.ofList (d.digits.take 1)
    ++ (if fraction.isEmpty then "" else "." ++ String.ofList fraction)
    ++ "e" ++ (if signed && 0 ≤ d.exponent then "+" else "") ++ toString d.exponent

end Decimal

namespace Double

/-- Positional always; a whole number shows no point. -/
def plainLayout : NumberLayout :=
  { positional := fun _ => true, point := false, signedExponent := false, tie := .up }

/-- Positional always; a whole number keeps a point, so that it reads back as a float. -/
def literalLayout : NumberLayout := { plainLayout with point := true }

/-- Positional from the fourth decimal place to the sixteenth digit. -/
def diagnosticLayout : NumberLayout :=
  { positional := fun e => -4 ≤ e && e < 16, point := true, signedExponent := false, tie := .up }

/-- Positional from the fifth decimal place to the sixteenth digit, signed exponents beyond. -/
def documentLayout : NumberLayout :=
  { positional := fun e => -5 ≤ e && e < 16, point := true, signedExponent := true, tie := .even }

def render (l : NumberLayout) (x : Double) : String :=
  if x.isNaN then "NaN"
  else
    let sign := if x.negative then "-" else ""
    if !x.isFinite then sign ++ "inf"
    else
      let d := x.shortest l.tie
      sign ++ if l.positional d.exponent || x.isZero then d.positional l.point
        else d.scientific l.signedExponent

def plain (x : Double) : String := x.render plainLayout

def literal (x : Double) : String := x.render literalLayout

def diagnostic (x : Double) : String := x.render diagnosticLayout

def document (x : Double) : String := x.render documentLayout

def digitsValue (cs : List Char) : Nat := cs.foldl (fun n c => n * 10 + (c.toNat - '0'.toNat)) 0

/-- The number that decimal text spells, given as its whole digits, its fraction digits and the
sign and digits of its exponent. -/
def ofDigits (whole fraction : List Char) (negativeExponent : Bool) (exponent : List Char) :
    Double :=
  let m := digitsValue (whole ++ fraction)
  let e : Int := digitsValue exponent
  ofDecimal m ((if negativeExponent then -e else e) - fraction.length)

end Double
end Attest
