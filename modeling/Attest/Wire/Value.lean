import Attest.Ty.Parser
import Attest.Wire.Fields

/-!
Values on the wire, each with its certificate.

A value of a refined category travels under its tag, any other together with the text of its type.
Nothing that is read is trusted: the value is given its type anew, and the certificate must be one
of this very value.
-/

namespace Attest

namespace Certificate

def toItem (c : Certificate) : Item :=
  .tag Tag.proof.value (.ofFields
    [("kind", .text c.method.name), ("value_category", .text c.category.name),
     ("payload", .text c.payload), ("verified", .bool c.verified)])

end Certificate

namespace Item

def untag (t : Tag) : Item → Except WireError Item
  | tag n content =>
    if n == t.value then
      match content with
      | map entries => .ok (map entries)
      | other => .error (.invalidTag n (.notMap other.describe))
    else if (Tag.ofValue? n).isNone then .error (.unknownTag n)
    else .error (.unexpected (t.name ++ " tag") (tag n content).describe)
  | other => .error (.unexpected (t.name ++ " tag") other.describe)

def toCertificate (i : Item) : Except WireError Certificate := do
  let fields ← i.untag .proof
  let kind ← fields.textField "kind"
  let method ← match Method.ofName? kind with
    | some m => pure m
    | none => .error (.invalidField "kind" (.unknownMethod kind))
  let name ← fields.textField "value_category"
  let category ← match Category.ofName? name with
    | some c => pure c
    | none => .error (.invalidField "value_category" (.unknownCategory name))
  let payload ← fields.textField "payload"
  let verified ← fields.boolField "verified"
  return ⟨method, category, payload, verified⟩

end Item

namespace Scores

def fields (s : Scores) : List (String × Item) := s.entries.map fun (n, v) => (n, .unsigned v)

end Scores

namespace Value

mutual

/-- The item of a value whose type is said elsewhere. -/
def toItem : Value → Item
  | .nat n => .unsigned n
  | .int i => .int i
  | .float x => .float x
  | .text s => .text s
  | .bool b => .bool b
  | .uuid u => .text u.hyphenated
  | .timestamp ms => .int ms
  | .vector items => .array (toItems items)
  | .scores s => .ofFields s.fields

def toItems : List Value → List Item
  | [] => []
  | v :: rest => toItem v :: toItems rest

end

end Value

namespace TypedValue

def toItem (v : TypedValue) (c : Certificate) : Item :=
  match v.ty, v.value with
  | .boundedNat lo hi, .nat n => .tag Tag.boundedNat.value (.ofFields
      [("min", .unsigned lo), ("max", .unsigned hi), ("value", .unsigned n), ("proof", c.toItem)])
  | .nonEmptyString, .text s => .tag Tag.nonEmptyString.value (.ofFields
      [("value", .text s), ("proof", c.toItem)])
  | .confidence, .float x => .tag Tag.confidence.value (.ofFields
      [("value", .float x), ("proof", c.toItem)])
  | .promptScores, .scores s => .tag Tag.promptScores.value (.ofFields
      (s.fields ++ [("proof", c.toItem)]))
  | ty, value => .ofFields
      [("type", .text ty.render), ("value", value.toItem), ("proof", c.toItem)]

end TypedValue

namespace Item

def toScores (i : Item) : Except WireError Scores := do
  let layout ← i.wordField "structure"
  let context ← i.wordField "context"
  let evidence ← i.wordField "evidence"
  let reasoning ← i.wordField "reasoning"
  let clarity ← i.wordField "clarity"
  return ⟨layout, context, evidence, reasoning, clarity⟩

/-- The content of a value, or what it should have been for its type. -/
def content {α : Type} (field : String) (ty : Ty) (i : Item) (what : String) :
    Option α → Except WireError α
  | some a => .ok a
  | none => .error (.invalidField field (.expectedFor what ty i.describe))

def toUuid (field : String) (i : Item) : Except WireError Value := do
  let s ← content field .uuid i "UUID text" i.toText?
  match Uuid.parse s with
  | .ok u => return .uuid u
  | .error e => .error (.invalidField field (.uuid e))

def toPlain (field : String) (ty : Ty) (i : Item) : Except WireError Value :=
  match ty with
  | .nat => Value.nat <$> content field .nat i "unsigned integer" i.toWord?
  | .boundedNat lo hi =>
    Value.nat <$> content field (.boundedNat lo hi) i "unsigned integer" i.toWord?
  | .int => Value.int <$> content field .int i "integer" i.toInt?
  | .float => Value.float <$> content field .float i "number" i.toDouble?
  | .boundedFloat lo hi =>
    Value.float <$> content field (.boundedFloat lo hi) i "number" i.toDouble?
  | .confidence => Value.float <$> content field .confidence i "number" i.toDouble?
  | .string => Value.text <$> content field .string i "text" i.toText?
  | .nonEmptyString => Value.text <$> content field .nonEmptyString i "text" i.toText?
  | .bool => Value.bool <$> content field .bool i "boolean" i.toBool?
  | .uuid => toUuid field i
  | .timestamp => Value.timestamp <$> content field .timestamp i "epoch milliseconds" i.toInt?
  | .vector element size => do
    let items ← content field (.vector element size) i "array" i.toArray?
    return .vector (← items.mapM (toPlain field element))
  | .promptScores => Value.scores <$> i.toScores

def typeOf (s : String) : Except WireError Ty :=
  match Ty.parse s with
  | .ok t => .ok t
  | .error e => .error (.invalidField "type" (.type e))

def toTagged (t : Tag) (fields : Item) : Except WireError (Ty × Value) :=
  match t with
  | .boundedNat => do
    let lo ← fields.wordField "min"
    let hi ← fields.wordField "max"
    let n ← fields.wordField "value"
    return (.boundedNat lo hi, .nat n)
  | .nonEmptyString => do return (.nonEmptyString, .text (← fields.textField "value"))
  | .confidence => do
    let x ← expectField "value" "number" (← fields.required "value").toDouble?
    return (.confidence, .float x)
  | .promptScores => do return (.promptScores, .scores (← fields.toScores))
  | .proof => .error (.invalidTag t.value .notValue)

def toParts : Item → Except WireError (Ty × Value × Item)
  | tag n content => match Tag.ofValue? n with
    | none => .error (.unknownTag n)
    | some t => do
      let fields ← (tag n content).untag t
      let (ty, v) ← toTagged t fields
      return (ty, v, fields)
  | map entries => do
    let ty ← typeOf (← (map entries).textField "type")
    let v ← toPlain "value" ty (← (map entries).required "value")
    return (ty, v, map entries)
  | other => .error (.unexpected "tagged value or typed envelope" other.describe)

/-- The value of an item with its certificate, both checked. -/
def toTypedValue (i : Item) : Except WireError (TypedValue × Certificate) := do
  let (ty, v, fields) ← i.toParts
  let typed ← match TypedValue.make ty v with
    | .ok t => pure t
    | .error e => .error (.refinement e)
  let c ← (← fields.required "proof").toCertificate
  match c.mismatch? typed with
  | some e => .error (.invalidField "proof" (.certificate e))
  | none => return (typed, c)

end Item
end Attest
