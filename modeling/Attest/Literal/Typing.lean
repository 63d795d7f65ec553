import Attest.Literal
import Attest.Refinement

/-!
Types of literals.

A literal by itself has the narrowest type of its form.  For a given type it may have a value:
numbers widen from natural to integer to float, strings read as identifiers and instants, and
vectors and records go item by item.  Conditions of the type are not looked at here.
-/

namespace Attest

inductive InferFault where
  | null
  | emptyVector
  | mixed (a b : Ty)
deriving DecidableEq, Repr

def InferFault.message : InferFault → String
  | null => "NULL has no type"
  | emptyVector => "cannot infer the element type of an empty vector"
  | mixed a b => "vector mixes " ++ a.render ++ " and " ++ b.render ++ " elements"

/-- What is wrong with a literal whose form suits the type. -/
inductive LiteralFault where
  | intRange (n : UInt64)
  | timestampRange (n : UInt64)
  | uuid (s : String) (e : UuidError)
  | timestamp (s : String)
  | score (name : String) (found : Literal)
  | scores (e : ScoresError)
deriving Repr

def LiteralFault.message : LiteralFault → String
  | intRange n => s!"{n} does not fit in Int"
  | timestampRange n => s!"{n} is out of timestamp range"
  | uuid s e => "invalid UUID " ++ Text.quote s ++ ": " ++ e.message
  | timestamp s => "invalid RFC 3339 timestamp " ++ Text.quote s
  | score n found => "prompt score '" ++ n ++ "' must be a natural number, found " ++ found.render
  | scores e => e.message

/-- Why a literal has no value of a type: its form does not suit it, or its content does not. -/
inductive CoercionError where
  | notAssignable
  | invalid (why : LiteralFault)
deriving Repr

namespace Literal

/-- The type that holds the values of both: natural numbers widen to integers, and both to
floats. -/
def widen (a b : Ty) : Option Ty :=
  if a.same b then some a
  else match a, b with
    | .nat, .int => some .int
    | .int, .nat => some .int
    | .nat, .float => some .float
    | .int, .float => some .float
    | .float, .nat => some .float
    | .float, .int => some .float
    | _, _ => none

mutual

/-- The narrowest type of a literal. -/
def infer : Literal → Except InferFault Ty
  | .nat _ => .ok .nat
  | .int _ => .ok .int
  | .float _ => .ok .float
  | .text _ => .ok .string
  | .bool _ => .ok .bool
  | .null => .error .null
  | .record _ => .ok .promptScores
  | .vector items => match items with
    | [] => .error .emptyVector
    | first :: rest => do
      let element ← inferRest (← infer first) rest
      return .vector element (rest.length + 1).toUInt64

def inferRest (element : Ty) : List Literal → Except InferFault Ty
  | [] => .ok element
  | item :: rest => do
    let next ← infer item
    match widen element next with
    | some t => inferRest t rest
    | none => .error (.mixed element next)

end

def toInt? (n : UInt64) : Option Int64 :=
  if n.toNat < 0x8000000000000000 then some (Int64.ofInt n.toNat) else none

/-- The scores of a record whose fields are all natural numbers. -/
def scoreEntries : List (String × Literal) → Except LiteralFault (List (String × UInt64))
  | [] => .ok []
  | (name, .nat n) :: rest => do return (name, n) :: (← scoreEntries rest)
  | (name, found) :: _ => .error (.score name found)

def coerceInt (n : UInt64) : Except CoercionError Value :=
  match toInt? n with
  | some i => .ok (.int i)
  | none => .error (.invalid (.intRange n))

def coerceTimestamp (n : UInt64) : Except CoercionError Value :=
  match toInt? n with
  | some i => .ok (.timestamp i)
  | none => .error (.invalid (.timestampRange n))

def coerceUuid (s : String) : Except CoercionError Value :=
  match Uuid.parse s with
  | .ok u => .ok (.uuid u)
  | .error e => .error (.invalid (.uuid s e))

def coerceInstant (s : String) : Except CoercionError Value :=
  match Instant.parse s with
  | some ms => .ok (.timestamp (Int64.ofInt ms))
  | none => .error (.invalid (.timestamp s))

def coerceScores (fields : List (String × Literal)) : Except CoercionError Value :=
  match scoreEntries fields with
  | .error e => .error (.invalid e)
  | .ok entries => match Scores.ofEntries entries with
    | .ok s => .ok (.scores s)
    | .error e => .error (.invalid (.scores e))

def coerce (literal : Literal) (target : Ty) : Except CoercionError Value :=
  match target, literal with
  | .nat, .nat n => .ok (.nat n)
  | .boundedNat _ _, .nat n => .ok (.nat n)
  | .int, .nat n => coerceInt n
  | .int, .int i => .ok (.int i)
  | .float, .nat n => .ok (.float (Double.ofNat n.toNat))
  | .float, .int i => .ok (.float (Double.ofInt i.toInt))
  | .float, .float x => .ok (.float x)
  | .boundedFloat _ _, .nat n => .ok (.float (Double.ofNat n.toNat))
  | .boundedFloat _ _, .int i => .ok (.float (Double.ofInt i.toInt))
  | .boundedFloat _ _, .float x => .ok (.float x)
  | .confidence, .nat n => .ok (.float (Double.ofNat n.toNat))
  | .confidence, .int i => .ok (.float (Double.ofInt i.toInt))
  | .confidence, .float x => .ok (.float x)
  | .timestamp, .nat n => coerceTimestamp n
  | .timestamp, .int i => .ok (.timestamp i)
  | .timestamp, .text s => coerceInstant s
  | .string, .text s => .ok (.text s)
  | .nonEmptyString, .text s => .ok (.text s)
  | .uuid, .text s => coerceUuid s
  | .bool, .bool b => .ok (.bool b)
  | .vector element _, .vector items => do
    return .vector (← items.mapM fun item => item.coerce element)
  | .promptScores, .record fields => coerceScores fields
  | _, _ => .error .notAssignable
termination_by structural target

end Literal
end Attest
