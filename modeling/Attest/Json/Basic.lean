import Attest.Double.Text

/-!
JSON documents.  Members of an object keep the order in which they were written; a reader of a
record may thus tell that a name was given twice.
-/

namespace Attest

/-- A number of a document: a whole number that fits a word, or a float. -/
inductive JsonNumber where
  | nat (n : UInt64)
  | int (i : Int64)
  | float (x : Double)
deriving DecidableEq, Repr

inductive Json where
  | null
  | bool (b : Bool)
  | number (n : JsonNumber)
  | text (s : String)
  | array (items : List Json)
  | object (members : List (String × Json))
deriving Inhabited, Repr

namespace Json

/-- The last member of this name. -/
def get? (members : List (String × Json)) (name : String) : Option Json :=
  (members.reverse.find? (·.1 == name)).map (·.2)

end Json
end Attest
