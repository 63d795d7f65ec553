import Attest.Json.Writer
import Attest.Schema
import Attest.Ty.Parser
import Attest.Yaml.Parser

/-!
Schemas in documents.
-/

namespace Attest

def Column.toJson (c : Column) : Json :=
  .object [("name", .text c.name), ("type", .text c.ty.render),
    ("primary_key", .bool c.isPrimaryKey), ("unique", .bool c.isUnique)]

def Ty.ofYaml (y : Yaml) : Option Ty := do (Ty.parse (← y.text?)).toOption

/-- The column that a node says.  Here a primary key need not be unique. -/
def Column.ofYaml (y : Yaml) : Option Column := do
  let fields ← y.fields? ["name", "type", "primary_key", "unique"] false
  let name ← Yaml.required Yaml.text? "name" fields
  let ty ← Yaml.required Ty.ofYaml "type" fields
  let isPrimaryKey ← Yaml.defaulted false Yaml.bool? "primary_key" fields
  let isUnique ← Yaml.defaulted false Yaml.bool? "unique" fields
  return { name, ty, isPrimaryKey, isUnique }

inductive SchemaError where
  | yaml
  | fault (why : SchemaFault)
deriving DecidableEq, Repr

def SchemaError.message : SchemaError → String
  | yaml => "YAML parsing error: the document is not a schema"
  | fault why => why.message

namespace Schema

def toJson (s : Schema) : Json :=
  .object [("name", .text s.name), ("columns", .array (s.columns.map Column.toJson)),
    ("constraints", .array (s.constraints.map .text)),
    ("normal_form", (s.normalForm.map fun f => Json.text f.name).getD .null)]

/-- The parts of a schema, before they are looked at together. -/
structure Parts where
  name : String
  columns : List Column
  constraints : List String
  normalForm : Option NormalForm

namespace Parts

def ofYaml (y : Yaml) : Option Parts := do
  let fields ← y.fields? ["name", "columns", "constraints", "normal_form"] false
  let name ← Yaml.required Yaml.text? "name" fields
  let columns ← (← Yaml.required Yaml.items? "columns" fields).mapM Column.ofYaml
  let constraints ← (← Yaml.defaulted [] Yaml.items? "constraints" fields).mapM Yaml.text?
  let normalForm ← Yaml.defaulted none
    (Yaml.optional fun y => do NormalForm.ofName? (← y.text?)) "normal_form" fields
  return { name, columns, constraints, normalForm }

end Parts

def ofParts (p : Parts) : Except SchemaFault Schema := do
  let s ← make p.name p.columns
  return { s with constraints := p.constraints, normalForm := p.normalForm }

def ofYaml (text : String) : Except SchemaError Schema :=
  match Yaml.parse text >>= Parts.ofYaml with
  | none => .error .yaml
  | some p => (ofParts p).mapError .fault

end Schema
end Attest
