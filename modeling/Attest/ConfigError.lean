import Attest.Config.Setting
import Attest.Text.Distance

/-!
What can be wrong with a configuration.
-/

namespace Attest

inductive NumberFault where
  | empty
  | invalidDigit
  | tooLarge
deriving DecidableEq, Repr

def NumberFault.message : NumberFault → String
  | empty => "cannot parse integer from empty string"
  | invalidDigit => "invalid digit found in string"
  | tooLarge => "number too large to fit in target type"

inductive ValueFault where
  | number (why : NumberFault)
  | mode (text : String)
  | format (text : String)
deriving DecidableEq, Repr

def ValueFault.message : ValueFault → String
  | number why => why.message
  | mode s => VerificationMode.unknown s
  | format s => Format.unknown s

inductive ConfigError where
  | range (setting : Setting) (value : Nat) (allowed : Range)
  | unknownSection (name : String)
  | unknownField (name : String) (home : Section)
  | invalidValue (setting : Setting) (text : String) (why : ValueFault)
  | unsupportedVersion (found : Nat)
  | unknownPreset (name : String)
  | io (why : String)
  | yaml
deriving DecidableEq, Repr

namespace ConfigError

/-- What to write in place of an unknown name. -/
def suggestion (name : String) (known : List String) : String :=
  match Text.closest? name known with
  | some n => "Did you mean '" ++ n ++ "'?"
  | none => "Valid fields: " ++ ", ".intercalate known

def unknown (name home : String) (known : List String) : String :=
  "Unknown field '" ++ name ++ "' in section '" ++ home ++ "'. " ++ suggestion name known

def message : ConfigError → String
  | range s n r =>
    "Invalid range for field '" ++ s.path ++ s!"': {n} not in {r.least}..={r.most}. " ++ r.hint
  | unknownSection n => unknown n "config" (Section.all.map (·.name))
  | unknownField n h => unknown n h.name (h.settings.map (·.field))
  | invalidValue s t why =>
    "Invalid value '" ++ t ++ "' for field '" ++ s.path ++ "': " ++ why.message
  | unsupportedVersion n => s!"Unsupported configuration version {n}. Supported versions: 1"
  | unknownPreset n => Preset.unknown n
  | io why => "IO error: " ++ why
  | yaml => "YAML parsing error: the document is not a configuration"

def category : ConfigError → String
  | range _ _ _ => "validation"
  | invalidValue _ _ _ => "validation"
  | unknownSection _ => "unknown"
  | unknownField _ _ => "unknown"
  | unknownPreset _ => "unknown"
  | unsupportedVersion _ => "version"
  | io _ => "io"
  | yaml => "yaml"

end ConfigError
end Attest
