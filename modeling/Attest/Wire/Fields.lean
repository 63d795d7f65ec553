import Attest.Item
import Attest.WireError

/-!
Fields of data items.
-/

namespace Attest
namespace Item

def required (i : Item) (name : String) : Except WireError Item :=
  match i.field? name with
  | some v => .ok v
  | none => .error (.invalidField name .missing)

/-- A field that may be missing or null. -/
def present? (i : Item) (name : String) : Option Item := (i.field? name).filter fun v => !v.isNull

/-- What a field holds, or what it should have held. -/
def expectField {α : Type} (name what : String) : Option α → Except WireError α
  | some a => .ok a
  | none => .error (.invalidField name (.expected what))

def textField (i : Item) (name : String) : Except WireError String := do
  expectField name "text" (← i.required name).toText?

def wordField (i : Item) (name : String) : Except WireError UInt64 := do
  expectField name "unsigned integer" (← i.required name).toWord?

def boolField (i : Item) (name : String) : Except WireError Bool := do
  expectField name "boolean" (← i.required name).toBool?

def arrayField (i : Item) (name : String) : Except WireError (List Item) := do
  expectField name "array" (← i.required name).toArray?

def named {α : Type} (field : String) (candidates : List α) (name : α → String) (s : String) :
    Except WireError α :=
  match candidates.find? fun a => name a == s with
  | some a => .ok a
  | none => .error (.invalidField field (.unknownValue s))

end Item
end Attest
