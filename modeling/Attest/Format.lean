import Attest.Text.Lower

/-!
Formats of the output.
-/

namespace Attest

inductive Format where
  | cbor
  | json
  | packed
  | sql
deriving DecidableEq, Repr

namespace Format

def all : List Format := [cbor, json, packed, sql]

def name : Format → String
  | cbor => "cbor"
  | json => "json"
  | packed => "packed"
  | sql => "sql"

instance : ToString Format := ⟨name⟩

def ofName? (s : String) : Option Format := all.find? (·.name == Text.lower s)

def unknown (s : String) : String :=
  "unknown format '" ++ s ++ "' (expected cbor, json, packed or sql)"

def isBinary : Format → Bool
  | cbor => true
  | packed => true
  | _ => false

/-- Whether what is written can be read again. -/
def isDecodable : Format → Bool
  | sql => false
  | _ => true

end Format
end Attest
