import Attest.Json.Record
import Attest.Provenance

/-!
Records of provenance from documents.
-/

namespace Attest
namespace Provenance

def fieldNames : List String := ["actor_id", "timestamp", "rationale"]

def ofJson (j : Json) : Option Provenance := do
  let fields ← j.fields? fieldNames
  let actor ← Json.required Json.text? "actor_id" fields
  let timestamp ← Json.required Json.word? "timestamp" fields
  let rationale ← Json.required Json.text? "rationale" fields
  (make actor timestamp rationale).toOption

def ofDocument (text : String) : Option Provenance := do ofJson (← Json.read? Json.depthLimit text)

end Provenance
end Attest
