import Attest.Config.Preset

/-!
Single settings: their names, their values and the ranges of the values.
-/

namespace Attest

inductive Section where
  | limits
  | verification
  | output
  | catalog
deriving DecidableEq, Repr

inductive Setting where
  | maxSourceBytes
  | maxTokens
  | maxDepth
  | mode
  | cacheCapacity
  | format
  | lookupTimeout
deriving DecidableEq, Repr

namespace Section

def all : List Section := [limits, verification, output, catalog]

def name : Section → String
  | limits => "limits"
  | verification => "verification"
  | output => "output"
  | catalog => "catalog"

instance : ToString Section := ⟨name⟩

def ofName? (s : String) : Option Section := all.find? (·.name == s)

def settings : Section → List Setting
  | limits => [.maxSourceBytes, .maxTokens, .maxDepth]
  | verification => [.mode, .cacheCapacity]
  | output => [.format]
  | catalog => [.lookupTimeout]

/-- The path that stands for all settings of a section. -/
def path (s : Section) : String := s.name ++ ".*"

end Section

/-- The values that a setting with a number may have, and why. -/
structure Range where
  least : Nat
  most : Nat
  hint : String
deriving DecidableEq, Repr

namespace Setting

def all : List Setting := Section.all.flatMap Section.settings

def home : Setting → Section
  | maxSourceBytes => .limits
  | maxTokens => .limits
  | maxDepth => .limits
  | mode => .verification
  | cacheCapacity => .verification
  | format => .output
  | lookupTimeout => .catalog

def field : Setting → String
  | maxSourceBytes => "max_source_bytes"
  | maxTokens => "max_tokens"
  | maxDepth => "max_statement_depth"
  | mode => "mode"
  | cacheCapacity => "proof_cache_capacity"
  | format => "format"
  | lookupTimeout => "lookup_timeout_ms"

def path (s : Setting) : String := s.home.name ++ "." ++ s.field

def range? : Setting → Option Range
  | maxSourceBytes => some ⟨1, 16 * 1024 * 1024,
      "A statement must be allowed at least one byte and at most 16 MiB"⟩
  | maxTokens => some ⟨1, 1000000, "A statement needs at least one token"⟩
  | maxDepth => some ⟨1, 1024,
      "Deep nesting is bounded to keep the recursive-descent parser off the stack limit"⟩
  | mode => none
  | cacheCapacity => some ⟨0, 1000000, "Use 0 to disable the proof cache"⟩
  | format => none
  | lookupTimeout => some ⟨1, 60000, "A zero timeout would fail every lookup"⟩

end Setting

inductive SettingValue where
  | number (n : Nat)
  | mode (m : VerificationMode)
  | format (f : Format)
deriving DecidableEq, Repr

def SettingValue.render : SettingValue → String
  | number n => toString n
  | mode m => m.name
  | format f => f.name

namespace Settings

def get (s : Settings) : Setting → SettingValue
  | .maxSourceBytes => .number s.maxSourceBytes
  | .maxTokens => .number s.maxTokens
  | .maxDepth => .number s.maxDepth
  | .mode => .mode s.mode
  | .cacheCapacity => .number s.cacheCapacity
  | .format => .format s.format
  | .lookupTimeout => .number s.lookupTimeout

/-- Set a setting.  A value of another kind than the setting's changes nothing. -/
def set (s : Settings) : Setting → SettingValue → Settings
  | .maxSourceBytes, .number n => { s with maxSourceBytes := n }
  | .maxTokens, .number n => { s with maxTokens := n }
  | .maxDepth, .number n => { s with maxDepth := n }
  | .mode, .mode m => { s with mode := m }
  | .cacheCapacity, .number n => { s with cacheCapacity := n }
  | .format, .format f => { s with format := f }
  | .lookupTimeout, .number n => { s with lookupTimeout := n }
  | _, _ => s

/-- The first setting whose number is out of its range, with the number and the range. -/
def outOfRange? (s : Settings) : Option (Setting × Nat × Range) :=
  Setting.all.findSome? fun k => match s.get k, k.range? with
    | .number n, some r => if r.least ≤ n && n ≤ r.most then none else some (k, n, r)
    | _, _ => none

end Settings

structure Override where
  setting : Setting
  value : SettingValue
deriving DecidableEq, Repr

end Attest
