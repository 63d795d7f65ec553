import Attest.ByName
import Attest.Permission.Document
import Attest.Schema.Document

/-!
Catalogs of schemas and profiles.

A catalog is never changed: an update makes a new one, so whoever holds a catalog sees one version
of everything.
-/

namespace Attest

inductive CatalogError where
  | schemaNotFound (name : String)
  | profileNotFound (role : String)
  | unavailable (why : String)
  | load (path why : String)
deriving DecidableEq, Repr

namespace CatalogError

def message : CatalogError → String
  | schemaNotFound n => "schema '" ++ n ++ "' not found"
  | profileNotFound r => "permission profile '" ++ r ++ "' not found"
  | unavailable why => "catalog unavailable: " ++ why
  | load path why => "failed to load " ++ path ++ ": " ++ why

def category : CatalogError → String
  | schemaNotFound _ => "not_found"
  | profileNotFound _ => "not_found"
  | unavailable _ => "unavailable"
  | load _ _ => "load"

end CatalogError

/-- A count of updates, in a word. -/
structure Version where
  number : UInt64 := 0
deriving DecidableEq, Repr, Inhabited

def Version.next (v : Version) : Version := ⟨v.number + 1⟩

/-- Schemas by their names, profiles by their roles, and how many updates there were. -/
structure Catalog where
  version : Version := {}
  schemas : ByName Schema := []
  profiles : ByName Profile := []
deriving Inhabited

namespace Catalog

def ofLists (schemas : List Schema) (profiles : List Profile) : Catalog where
  schemas := ByName.ofList (schemas.map fun s => (s.name, s))
  profiles := ByName.ofList (profiles.map fun p => (p.role, p))

def schema (c : Catalog) (name : String) : Except CatalogError Schema :=
  match c.schemas.get? name with
  | some s => .ok s
  | none => .error (.schemaNotFound name)

def profile (c : Catalog) (role : String) : Except CatalogError Profile :=
  match c.profiles.get? role with
  | some p => .ok p
  | none => .error (.profileNotFound role)

def schemaNames (c : Catalog) : List String := c.schemas.names

/-- Add a schema, or replace the one of its name. -/
def putSchema (c : Catalog) (s : Schema) : Catalog :=
  { c with version := c.version.next, schemas := c.schemas.set s.name s }

def putProfile (c : Catalog) (p : Profile) : Catalog :=
  { c with version := c.version.next, profiles := c.profiles.set p.role p }

def removeSchema (c : Catalog) (name : String) : Except CatalogError Catalog :=
  match c.schemas.get? name with
  | some _ => .ok { c with version := c.version.next, schemas := c.schemas.erase name }
  | none => .error (.schemaNotFound name)

def missingFile : String := "No such file or directory (os error 2)"

/-- Add the schema of a file, of which there may be no text. -/
def loadSchema (c : Catalog) (path : String) (text : Option String) :
    Except CatalogError Catalog :=
  match text with
  | none => .error (.load path ("IO error: " ++ missingFile))
  | some text => match Schema.ofYaml text with
    | .ok s => .ok (c.putSchema s)
    | .error e => .error (.load path e.message)

def readProfiles (path : String) (text : Option String) : Except CatalogError (List Profile) :=
  match text with
  | none => .error (.load path missingFile)
  | some text => (Profile.listOfYaml text).mapError (.load path)

end Catalog
end Attest
