import Attest.Json.Reader

/-!
Records in documents: an object with a member for each field, or an array of the fields in order.
-/

namespace Attest
namespace Json

/-- The fields of a record.  A field that is given twice is an error; other names are ignored. -/
def fields? (known : List String) : Json → Option (List (String × Json))
  | object members =>
    let mine := members.filter fun (n, _) => known.contains n
    if (mine.map (·.1)).eraseDups.length == mine.length then some mine else none
  | array items => if items.length ≤ known.length then some (known.zip items) else none
  | _ => none

def required {α : Type} (read : Json → Option α) (name : String) (fields : List (String × Json)) :
    Option α := do read (← fields.lookup name)

/-- A field that may be left out, with the value that it has then. -/
def defaulted {α : Type} (value : α) (read : Json → Option α) (name : String)
    (fields : List (String × Json)) : Option α :=
  match fields.lookup name with
  | none => some value
  | some j => read j

def text? : Json → Option String
  | text s => some s
  | _ => none

def word? : Json → Option UInt64
  | number (.nat n) => some n
  | _ => none

def items? : Json → Option (List Json)
  | array items => some items
  | _ => none

/-- A name of a closed list, alone or as the only member of an object, with nothing in it. -/
def named? {α : Type} (name : α → String) (all : List α) : Json → Option α
  | text s => all.find? (name · == s)
  | object [(s, null)] => all.find? (name · == s)
  | _ => none

def depthLimit : Nat := 127

end Json
end Attest
