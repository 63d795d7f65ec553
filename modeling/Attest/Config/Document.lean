import Attest.Config
import Attest.Yaml.Parser

/-!
Configurations in documents: a version, a preset and overrides.
-/

namespace Attest

namespace Setting

def ofYaml (s : Setting) (y : Yaml) : Option SettingValue :=
  match s with
  | .mode => SettingValue.mode <$> y.named? VerificationMode.name VerificationMode.all
  | .format => SettingValue.format <$> y.named? Format.name Format.all
  | _ => SettingValue.number <$> y.nat? (0x10000000000000000)

end Setting

namespace Section

/-- The overrides of a section that a node says; settings that are null are left alone. -/
def ofYaml (home : Section) (y : Yaml) : Option (List Override) := do
  let fields ← y.fields? (home.settings.map (·.field)) true
  let values ← home.settings.mapM fun s => do
    let v ← Yaml.defaulted none (Yaml.optional s.ofYaml) s.field fields
    return v.map (Override.mk s)
  return values.filterMap id

end Section

namespace Config

/-- What a document says, before its version is looked at. -/
structure Parts where
  version : Nat
  preset : String
  overrides : List Override

namespace Parts

def overridesOf (y : Yaml) : Option (List Override) := do
  let fields ← y.fields? (Section.all.map (·.name)) true
  let parts ← Section.all.mapM fun h => do
    let os ← Yaml.defaulted none (Yaml.optional h.ofYaml) h.name fields
    return os.getD []
  return parts.flatten

def ofYaml (y : Yaml) : Option Parts := do
  let fields ← y.fields? ["version", "preset", "overrides"] true
  let version ← Yaml.required (Yaml.nat? (0x100000000)) "version" fields
  let preset ← Yaml.required Yaml.text? "preset" fields
  let overrides ← Yaml.defaulted none (Yaml.optional overridesOf) "overrides" fields
  return { version, preset, overrides := overrides.getD [] }

end Parts

def ofYaml (text place : String) : Except ConfigError Config :=
  match Yaml.parse text >>= Parts.ofYaml with
  | none => .error .yaml
  | some p =>
    if p.version != 1 then .error (.unsupportedVersion p.version)
    else match Preset.ofName? p.preset with
      | none => .error (.unknownPreset p.preset)
      | some preset => .ok ((ofPreset preset).overrideAll (.yaml place) p.overrides)

def sectionLines (c : Config) (home : Section) : List String :=
  ("  " ++ home.name ++ ":") ::
    home.settings.map fun s => "    " ++ s.field ++ ": " ++ (c.settings.get s).render

/-- The configuration as a document, with every setting as an override. -/
def toYaml (c : Config) : String :=
  String.join ((["version: 1", "preset: " ++ c.preset.name, "overrides:"]
    ++ Section.all.flatMap c.sectionLines).map (· ++ "\n"))

end Config
end Attest
