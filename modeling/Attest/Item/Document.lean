import Attest.ByName
import Attest.Item
import Attest.Json.Reader
import Attest.Json.Writer
import Attest.WireError

/-!
Data items as JSON documents.

A tag becomes a member of the object that it holds, so a document says the same as the bytes.
-/

namespace Attest

namespace Json

mutual

/-- The document with the members of every object in the order of their names, the last of each
name. -/
def canonical : Json → Json
  | .array items => .array (canonicalItems items)
  | .object members => .object (ByName.ofList (canonicalMembers members))
  | j => j

def canonicalItems : List Json → List Json
  | [] => []
  | j :: rest => canonical j :: canonicalItems rest

def canonicalMembers : List (String × Json) → List (String × Json)
  | [] => []
  | (k, j) :: rest => (k, canonical j) :: canonicalMembers rest

end

end Json

namespace Item

/-- The member that names a tag. -/
def tagMember : String := "category"

def unsupportedJson (what : String) : WireError := .unsupported .json what

mutual

def toJson : Item → Except WireError Json
  | .unsigned n => .ok (.number (.nat n))
  | .negative n => match (Item.negative n).toInt? with
    | some i => .ok (.number (.int i))
    | none => .error (unsupportedJson "integers below i64::MIN")
  | .float x =>
    if x.isFinite then .ok (.number (.float x)) else .error (unsupportedJson "non-finite floats")
  | .text s => .ok (.text s)
  | .bool b => .ok (.bool b)
  | .null => .ok .null
  | .bytes _ => .error (unsupportedJson "byte strings")
  | .array items => Json.array <$> toJsonItems items
  | .map entries => Json.object <$> toJsonMembers [] entries
  | .tag n content => match Tag.ofValue? n with
    | none => .error (.unknownTag n)
    | some t => match content with
      | .map entries => do
        let members ← toJsonMembers [] entries
        if (Json.get? members tagMember).isSome then
          .error (.invalidTag n (.reservedField tagMember))
        else return .object (ByName.set tagMember (.text t.name) members)
      | other => .error (.invalidTag n (.notMap other.describe))

def toJsonItems : List Item → Except WireError (List Json)
  | [] => .ok []
  | i :: rest => do
    let j ← toJson i
    return j :: (← toJsonItems rest)

/-- The members of a map beside those that were there before. -/
def toJsonMembers (members : List (String × Json)) :
    List (Item × Item) → Except WireError (List (String × Json))
  | [] => .ok members
  | (k, v) :: rest => match k.toText? with
    | none => .error (unsupportedJson "non-text map keys")
    | some name => do
      let j ← toJson v
      toJsonMembers (ByName.set name j members) rest

end

/-- An object with the member that names a tag taken out. -/
def tagged (member : Option Json) (fields : List (String × Item)) : Except WireError Item :=
  match member with
  | none => .ok (ofFields fields)
  | some (.text name) => match Tag.ofName? name with
    | some t => .ok (tag t.value (ofFields fields))
    | none => .error (.invalidField tagMember (.unknownTag name))
  | some _ => .error (.invalidField tagMember (.expected "text"))

mutual

def ofCanonical : Json → Except WireError Item
  | .null => .ok .null
  | .bool b => .ok (.bool b)
  | .number (.nat n) => .ok (.unsigned n)
  | .number (.int i) => .ok (int i)
  | .number (.float x) => .ok (.float x)
  | .text s => .ok (.text s)
  | .array items => Item.array <$> ofCanonicalItems items
  | .object members => do tagged (Json.get? members tagMember) (← ofCanonicalMembers members)

def ofCanonicalItems : List Json → Except WireError (List Item)
  | [] => .ok []
  | j :: rest => do
    let i ← ofCanonical j
    return i :: (← ofCanonicalItems rest)

def ofCanonicalMembers : List (String × Json) → Except WireError (List (String × Item))
  | [] => .ok []
  | (k, j) :: rest =>
    if k == tagMember then ofCanonicalMembers rest
    else do
      let i ← ofCanonical j
      return (k, i) :: (← ofCanonicalMembers rest)

end

def ofJson (j : Json) : Except WireError Item := ofCanonical j.canonical

def toDocument (i : Item) : Except WireError String := Json.write <$> i.toJson

def documentDepth : Nat := 127

def ofDocument (s : String) : Except WireError Item :=
  match Json.read? documentDepth s with
  | some j => ofJson j
  | none => .error .json

end Item
end Attest
