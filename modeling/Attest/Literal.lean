import Attest.Double.Text
import Attest.Text.Quoted

/-!
Literals as they stand in the source, before a type is chosen for them.
-/

namespace Attest

/-- A literal.  An integer is a negative one: the others are natural numbers. -/
inductive Literal where
  | nat (n : UInt64)
  | int (i : Int64)
  | float (x : Double)
  | text (s : String)
  | bool (b : Bool)
  | null
  | vector (items : List Literal)
  | record (fields : List (String × Literal))
deriving Repr, Inhabited

namespace Literal

mutual

def render : Literal → String
  | .nat n => toString n
  | .int i => toString i
  | .float x => x.literal
  | .text s => Text.quote s
  | .bool b => if b then "TRUE" else "FALSE"
  | .null => "NULL"
  | .vector items => "[" ++ ", ".intercalate (renderItems items) ++ "]"
  | .record fields => "\x7b" ++ ", ".intercalate (renderFields fields) ++ "\x7d"

def renderItems : List Literal → List String
  | [] => []
  | l :: rest => render l :: renderItems rest

def renderFields : List (String × Literal) → List String
  | [] => []
  | (n, l) :: rest => (n ++ ": " ++ render l) :: renderFields rest

end

instance : ToString Literal := ⟨render⟩

def isNull : Literal → Bool
  | .null => true
  | _ => false

def isNumber : Literal → Bool
  | .nat _ => true
  | .int _ => true
  | .float _ => true
  | _ => false

/-- The integer of a value: natural if it is not negative. -/
def ofInt? (i : Int) : Option Literal :=
  if 0 ≤ i then (if i < 0x10000000000000000 then some (.nat i.toNat.toUInt64) else none)
  else if -0x8000000000000000 ≤ i then some (.int (Int64.ofInt i))
  else none

/-- The literal with the other sign, if it is a number that has one. -/
def negate? : Literal → Option Literal
  | .nat n => ofInt? (-(n.toNat : Int))
  | .int i => ofInt? (-i.toInt)
  | .float x => some (.float x.neg)
  | _ => none

end Literal
end Attest
