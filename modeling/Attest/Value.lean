import Attest.Double.Text
import Attest.Instant
import Attest.Scores
import Attest.Text.Quoted
import Attest.Uuid

/-!
Values at run time.  A value says what it is, not which conditions it meets.
-/

namespace Attest

inductive Value where
  | nat (n : UInt64)
  | int (i : Int64)
  | float (x : Double)
  | text (s : String)
  | bool (b : Bool)
  | uuid (u : Uuid)
  | timestamp (millis : Int64)
  | vector (items : List Value)
  | scores (s : Scores)
deriving Repr, Inhabited

namespace Value

def kindName : Value → String
  | nat _ => "natural"
  | int _ => "integer"
  | float _ => "float"
  | text _ => "string"
  | bool _ => "boolean"
  | uuid _ => "uuid"
  | timestamp _ => "timestamp"
  | vector _ => "vector"
  | scores _ => "prompt scores"

/-- The number that a value is, for comparison and arithmetic. -/
def toDouble? : Value → Option Double
  | nat n => some (Double.ofNat n.toNat)
  | int i => some (Double.ofInt i.toInt)
  | float x => some x
  | timestamp ms => some (Double.ofInt ms.toInt)
  | _ => none

mutual

def render : Value → String
  | .nat n => toString n
  | .int i => toString i
  | .float x => x.literal
  | .text s => Text.quote s
  | .bool b => if b then "TRUE" else "FALSE"
  | .uuid u => "\"" ++ u.hyphenated ++ "\""
  | .timestamp ms => match Instant.format ms.toInt with
    | some s => "\"" ++ s ++ "\""
    | none => toString ms
  | .vector items => "[" ++ ", ".intercalate (renderItems items) ++ "]"
  | .scores s => s.render

def renderItems : List Value → List String
  | [] => []
  | v :: rest => render v :: renderItems rest

end

instance : ToString Value := ⟨render⟩

mutual

/-- Equality of values, with floats compared as numbers. -/
def same : Value → Value → Bool
  | .nat a, .nat b => a == b
  | .int a, .int b => a == b
  | .float a, .float b => a.same b
  | .text a, .text b => a == b
  | .bool a, .bool b => a == b
  | .uuid a, .uuid b => a == b
  | .timestamp a, .timestamp b => a == b
  | .vector a, .vector b => sameItems a b
  | .scores a, .scores b => a == b
  | _, _ => false

def sameItems : List Value → List Value → Bool
  | [], [] => true
  | a :: as, b :: bs => same a b && sameItems as bs
  | _, _ => false

end

end Value
end Attest
