import Attest.Format
import Attest.Text.Lower

/-!
Settings, and the presets that give all of them at once.
-/

namespace Attest

/-- How it is found out whether a value is of a refined type. -/
inductive VerificationMode where
  /-- By intervals, and by evaluation where they do not decide. -/
  | staticThenRuntime
  /-- By evaluation alone. -/
  | runtimeOnly
deriving DecidableEq, Repr

namespace VerificationMode

def all : List VerificationMode := [staticThenRuntime, runtimeOnly]

def name : VerificationMode → String
  | staticThenRuntime => "static_then_runtime"
  | runtimeOnly => "runtime_only"

instance : ToString VerificationMode := ⟨name⟩

/-- The mode of a name, in either case. -/
def ofName? (s : String) : Option VerificationMode := all.find? (·.name == Text.lower s)

def unknown (s : String) : String :=
  "unknown verification mode '" ++ s ++ "' (expected static_then_runtime or runtime_only)"

end VerificationMode

structure Settings where
  maxSourceBytes : Nat
  maxTokens : Nat
  maxDepth : Nat
  mode : VerificationMode
  /-- Most certificates that are kept; none are kept at zero. -/
  cacheCapacity : Nat
  format : Format
  /-- How long a schema may take to be found, in milliseconds. -/
  lookupTimeout : Nat
deriving DecidableEq, Repr

inductive Preset where
  /-- For statements of strangers. -/
  | strict
  | balanced
  /-- For tools. -/
  | permissive
deriving DecidableEq, Repr

namespace Preset

def all : List Preset := [strict, balanced, permissive]

def name : Preset → String
  | strict => "strict"
  | balanced => "balanced"
  | permissive => "permissive"

instance : ToString Preset := ⟨name⟩

def ofName? (s : String) : Option Preset := all.find? (·.name == Text.lower s)

def unknown (s : String) : String :=
  "Unknown preset '" ++ s ++ "'. Valid presets: strict, balanced, permissive"

def settings : Preset → Settings
  | strict => ⟨16 * 1024, 2048, 32, .staticThenRuntime, 256, .cbor, 250⟩
  | balanced => ⟨64 * 1024, 8192, 64, .staticThenRuntime, 1024, .cbor, 1000⟩
  | permissive => ⟨1024 * 1024, 65536, 128, .runtimeOnly, 4096, .cbor, 5000⟩

end Preset
end Attest
