import Attest.ByName
import Attest.Value

/-!
Rows of a table: values by the names of their columns.
-/

namespace Attest

abbrev Row := ByName Value

def Row.project (r : Row) (columns : List String) : Row :=
  ByName.ofList (columns.filterMap fun c => (r.get? c).map fun v => (c, v))

end Attest
