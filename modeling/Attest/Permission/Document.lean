import Attest.Json.Record
import Attest.Json.Writer
import Attest.Permission
import Attest.Yaml.Parser

/-!
Profiles of roles in documents.
-/

namespace Attest
namespace Profile

def fieldNames : List String := ["role_id", "type_whitelist", "validation_level"]

def toJson (p : Profile) : Json :=
  .object [("role_id", .text p.role),
    ("type_whitelist", .array (p.whitelist.map fun c => .text c.name)),
    ("validation_level", .text p.level.name)]

def ofJson (j : Json) : Option Profile := do
  let fields ← j.fields? fieldNames
  let role ← Json.required Json.text? "role_id" fields
  let items ← Json.required Json.items? "type_whitelist" fields
  let categories ← items.mapM (Json.named? Category.name Category.all)
  let level ← Json.defaulted .standard (Json.named? ValidationLevel.name ValidationLevel.all)
    "validation_level" fields
  return { ofCategories role categories with level := level }

def ofDocument (text : String) : Option Profile := do ofJson (← Json.read? Json.depthLimit text)

def ofYaml (y : Yaml) : Option Profile := do
  let fields ← y.fields? fieldNames false
  let role ← Yaml.required Yaml.text? "role_id" fields
  let items ← Yaml.required Yaml.items? "type_whitelist" fields
  let categories ← items.mapM (Yaml.named? Category.name Category.all)
  let level ← Yaml.defaulted .standard (Yaml.named? ValidationLevel.name ValidationLevel.all)
    "validation_level" fields
  return { ofCategories role categories with level := level }

def unlisted : Option Yaml → String
  | some (.map _) => "invalid type: map, expected a sequence"
  | _ => "the document is not a list of profiles"

def listOfYaml (text : String) : Except String (List Profile) :=
  let y := Yaml.parse text
  match y >>= Yaml.items? >>= (·.mapM ofYaml) with
  | some ps => .ok ps
  | none => .error (unlisted y)

end Profile
end Attest
