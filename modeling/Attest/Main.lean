import Attest.CommandLine
import Attest.Text.Utf8
import Std.Time.DateTime.Timestamp

/-!
The program: it reads what the arguments name, and prints.
-/

namespace Attest

def readVariables : IO (List (String × String)) := do
  let bytes ← try IO.FS.readBinFile "/proc/self/environ" catch _ => pure default
  let entries := (Text.ofUtf8Lossy bytes.toList).splitOn "\x00"
  return entries.filterMap fun e => match Arguments.splitEquals e.toList with
    | (name, some value) => some (String.ofList name, value)
    | (_, none) => none

def readText (path : String) : IO (Option String) := do
  try return some (← IO.FS.readFile path) catch _ => return none

def Invocation.paths (i : Invocation) : List String :=
  i.config.toList ++ match i.command with
    | .compile schemas profiles _ _ _ _ _ => schemas ++ profiles.toList
    | _ => []

/-- What a command may look at, read from outside. -/
def readSurroundings (i : Invocation) : IO Surroundings := do
  let files ← i.paths.mapM fun p => do return (p, ← readText p)
  let needsInput := i.statement.isNone && i.command != .checkConfig
  let input ← if needsInput then (← IO.getStdin).readToEnd else pure ""
  return {
    file := fun p => (files.lookup p).bind id
    environment := ← readVariables
    input := input
    now := (← Std.Time.Timestamp.now).toMillisecondsSinceUnixEpoch.val.toNat.toUInt64 }

end Attest

open Attest in
def main (args : List String) : IO UInt32 := do
  let outcome ← match Invocation.parse args with
    | .error _ => pure (CommandLine.run args default)
    | .ok i => CommandLine.run args <$> readSurroundings i
  IO.print outcome.printed
  IO.eprint outcome.errors
  return outcome.exit.toUInt32
