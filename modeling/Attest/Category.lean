/-!
Categories of types: what remains of a type without its parameters.  Permissions are granted by
category, and the names of the categories are the words that begin a type.
-/

namespace Attest

inductive Category where
  | nat
  | int
  | string
  | bool
  | float
  | uuid
  | timestamp
  | boundedNat
  | boundedFloat
  | nonEmptyString
  | confidence
  | vector
  | promptScores
deriving DecidableEq, Repr, Inhabited

namespace Category

/-- Every category, in the order in which sets of them are listed. -/
def all : List Category :=
  [nat, int, string, bool, float, uuid, timestamp, boundedNat, boundedFloat, nonEmptyString,
   confidence, vector, promptScores]

def name : Category → String
  | nat => "Nat"
  | int => "Int"
  | string => "String"
  | bool => "Bool"
  | float => "Float"
  | uuid => "Uuid"
  | timestamp => "Timestamp"
  | boundedNat => "BoundedNat"
  | boundedFloat => "BoundedFloat"
  | nonEmptyString => "NonEmptyString"
  | confidence => "Confidence"
  | vector => "Vector"
  | promptScores => "PromptScores"

instance : ToString Category := ⟨name⟩

/-- The category of this name, in exactly this case. -/
def ofName? (s : String) : Option Category := all.find? (·.name == s)

def unknown (s : String) : String := "unknown type category '" ++ s ++ "'"

/-- A list of categories as a set: each once, in the common order. -/
def setOf (cs : List Category) : List Category := all.filter cs.contains

end Category
end Attest
