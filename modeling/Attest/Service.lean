import Attest.Compiler

/-!
Compilation with schemas and profiles that are looked up.

A look-up of a schema answers or is waited for; who waits gives up when the time is over or the
request is cancelled.
-/

namespace Attest

inductive Lookup (α : Type) where
  | answer (result : Except CatalogError α)
  /-- No answer ever comes. -/
  | pending

/-- Where schemas and profiles are looked up. -/
structure Directory where
  schema : String → Lookup Schema
  profile : String → Except CatalogError Profile

/-- A catalog, which always answers. -/
def Catalog.directory (c : Catalog) : Directory where
  schema name := .answer (c.schema name)
  profile := c.profile

namespace Compiler

/-- The schema of a table, unless the request is cancelled or takes too long. -/
def findSchema (c : Compiler) (cancel : Cancellation) (d : Directory) (table : String) :
    Except CompileError Schema :=
  if cancel.seenAt .lookup then .error (.cancelled .typeChecking)
  else match d.schema table with
    | .answer s => s.mapError .catalog
    | .pending =>
      if cancel.seenAt .waiting then .error (.cancelled .typeChecking)
      else .error (.timeout table c.config.settings.lookupTimeout)

/-- Compile a statement with what is found for its table and its role. -/
def serve (c : Compiler) (now : UInt64) (cancel : Cancellation) (d : Directory) (r : Request) :
    Except CompileError Output × Compiler :=
  let found : Except CompileError (Statement × Run × Schema × Profile) := do
    let (s, run) ← c.front cancel r
    let schema ← c.findSchema cancel d s.table.name
    let profile ← (d.profile r.role).mapError .catalog
    return (s, run, schema, profile)
  match found with
  | .error e => (.error e, c)
  | .ok (s, run, schema, profile) => c.back now cancel r s schema profile run

end Compiler
end Attest
