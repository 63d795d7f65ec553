import Attest.Text.Lower

/-!
Normal forms of a table.  They are declared and asked for, never computed.
-/

namespace Attest

inductive NormalForm where
  | first
  | second
  | third
  | boyceCodd
deriving DecidableEq, Repr

namespace NormalForm

def all : List NormalForm := [first, second, third, boyceCodd]

def name : NormalForm → String
  | first => "1NF"
  | second => "2NF"
  | third => "3NF"
  | boyceCodd => "BCNF"

instance : ToString NormalForm := ⟨name⟩

def ofName? (s : String) : Option NormalForm := all.find? (·.name == Text.asciiUpper s)

def unknown (s : String) : String :=
  "unknown normal form '" ++ s ++ "' (expected 1NF, 2NF, 3NF or BCNF)"

end NormalForm
end Attest
