/-!
Hexadecimal text of bytes, two lower case digits a byte.
-/

namespace Attest
namespace Text

def hexDigit (n : Nat) : Char := Nat.digitChar n

def hexByte (b : UInt8) : List Char := [hexDigit (b.toNat / 16), hexDigit (b.toNat % 16)]

def hex (bs : List UInt8) : String := String.ofList (bs.flatMap hexByte)

/-- A number as hexadecimal text, without leading zeros. -/
def hexNat (n : Nat) : String := String.ofList (Nat.toDigits 16 n)

def hexValue? (c : Char) : Option Nat :=
  if c.isDigit then some (c.toNat - '0'.toNat)
  else if 'a' ≤ c && c ≤ 'f' then some (c.toNat - 'a'.toNat + 10)
  else if 'A' ≤ c && c ≤ 'F' then some (c.toNat - 'A'.toNat + 10)
  else none

def isHexDigit (c : Char) : Bool := (hexValue? c).isSome

/-- The number that hexadecimal digits spell, reading from `acc`. -/
def hexFold (acc : Nat) : List Char → Option Nat
  | [] => some acc
  | c :: rest => do hexFold (acc * 16 + (← hexValue? c)) rest

def ofHexChars? : List Char → Option (List UInt8)
  | [] => some []
  | [_] => none
  | a :: b :: rest => do
    let hi ← hexValue? a
    let lo ← hexValue? b
    let bs ← ofHexChars? rest
    return UInt8.ofNat (hi * 16 + lo) :: bs

def ofHex? (s : String) : Option (List UInt8) := ofHexChars? s.toList

end Text
end Attest
