import Attest.ByName
import Attest.ConfigError

/-!
Configurations: a preset, the settings in force and where each of them comes from.

A configuration whose numbers are all in their ranges can be built, and only a built one is used.
-/

namespace Attest

inductive Source where
  | preset (p : Preset)
  | yaml (path : String)
  | env (name : String)
  | builder
deriving DecidableEq, Repr

def Source.describe : Source → String
  | preset p => "preset:" ++ p.name
  | yaml path => "yaml:" ++ path
  | env v => "env:" ++ v
  | builder => "builder"

/-- A configuration.  `sources` holds, by path, what has been overridden. -/
structure Config where
  preset : Preset
  settings : Settings
  sources : ByName Source := []
deriving DecidableEq, Repr

namespace Config

def ofPreset (p : Preset) : Config := ⟨p, p.settings, []⟩

instance : Inhabited Config := ⟨ofPreset .balanced⟩

def override (c : Config) (source : Source) (o : Override) : Config :=
  { c with
    settings := c.settings.set o.setting o.value
    sources := c.sources.set o.setting.path source }

def overrideAll (c : Config) (source : Source) (os : List Override) : Config :=
  os.foldl (fun c o => c.override source o) c

/-- Change settings of a section at once, which is recorded for the section as a whole. -/
def adjust (c : Config) (home : Section) (os : List Override) : Config :=
  { c with
    settings := os.foldl (fun s o => s.set o.setting o.value) c.settings
    sources := c.sources.set home.path .builder }

/-- Where the setting at a path comes from; what was not overridden comes from the preset. -/
def sourceOf (c : Config) (path : String) : Source := (c.sources.get? path).getD (.preset c.preset)

/-- Which settings were overridden, in the order of their paths. -/
def summary (c : Config) : String :=
  let fields := c.sources.map fun (path, s) => "  " ++ path ++ " <- " ++ s.describe
  "\n".intercalate
    (("Base preset: " ++ c.preset.name) ::
      if fields.isEmpty then [] else "Overridden fields:" :: fields)

def describe (c : Config) : String :=
  let s := c.settings
  s!"{c.preset} [verification={s.mode}, format={s.format}, max_tokens={s.maxTokens}, "
    ++ s!"lookup_timeout={s.lookupTimeout}ms]"

def fault? (c : Config) : Option ConfigError :=
  c.settings.outOfRange?.map fun (k, n, r) => .range k n r

end Config

/-- A configuration with every number in its range. -/
structure BuiltConfig extends Config where
  valid : toConfig.fault? = none
deriving DecidableEq

namespace Config

def build (c : Config) : Except ConfigError BuiltConfig :=
  match h : c.fault? with
  | none => .ok ⟨c, h⟩
  | some e => .error e

end Config

instance : Inhabited BuiltConfig := ⟨⟨Config.ofPreset .balanced, by decide⟩⟩

end Attest
