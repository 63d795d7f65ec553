import Attest.Text.Hex

/-!
Tags of refined values on the wire.  The numbers lie in a range of their own and never change,
since every document that was ever written holds them.
-/

namespace Attest

inductive Tag where
  | boundedNat
  | nonEmptyString
  | confidence
  | promptScores
  | proof
deriving DecidableEq, Repr

namespace Tag

def all : List Tag := [boundedNat, nonEmptyString, confidence, promptScores, proof]

def base : UInt64 := 0x50510000

def value : Tag → UInt64
  | boundedNat => base + 1
  | nonEmptyString => base + 2
  | confidence => base + 3
  | promptScores => base + 4
  | proof => base + 5

def name : Tag → String
  | boundedNat => "bounded_nat"
  | nonEmptyString => "non_empty_string"
  | confidence => "confidence"
  | promptScores => "prompt_scores"
  | proof => "proof_blob"

def ofValue? (n : UInt64) : Option Tag := all.find? (·.value == n)

def ofName? (s : String) : Option Tag := all.find? (·.name == s)

def inRange (n : UInt64) : Bool := base ≤ n && n < base + 0x10000

def hexText (n : UInt64) : String := "0x" ++ Text.hexNat n.toNat

def render (t : Tag) : String := t.name ++ " (" ++ hexText t.value ++ ")"

end Tag
end Attest
