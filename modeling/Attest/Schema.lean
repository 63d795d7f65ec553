import Attest.NormalForm
import Attest.Text.Blank
import Attest.Ty

/-!
Schemas of tables.  A schema has a name and at least one column, and no two columns share a name.
-/

namespace Attest

structure Column where
  name : String
  ty : Ty
  isPrimaryKey : Bool := false
  isUnique : Bool := false
deriving DecidableEq, Repr

namespace Column

/-- The column as a primary key, which is unique. -/
def primaryKey (c : Column) : Column := { c with isPrimaryKey := true, isUnique := true }

def unique (c : Column) : Column := { c with isUnique := true }

/-- Equality of columns as written: bounds of types are compared as numbers. -/
def same (c d : Column) : Bool :=
  c.name == d.name && c.ty.same d.ty && c.isPrimaryKey == d.isPrimaryKey && c.isUnique == d.isUnique

end Column

inductive SchemaFault where
  | emptyName
  | noColumns (schema : String)
  | duplicateColumn (schema column : String)
deriving DecidableEq, Repr

def SchemaFault.message : SchemaFault → String
  | emptyName => "schema name must not be empty"
  | noColumns s => "schema '" ++ s ++ "' declares no columns"
  | duplicateColumn s c => "duplicate column '" ++ c ++ "' in schema '" ++ s ++ "'"

namespace Schema

/-- The first name that was there before. -/
def repeated? (seen : List String) : List String → Option String
  | [] => none
  | n :: rest => if seen.contains n then some n else repeated? (n :: seen) rest

def fault? (name : String) (columns : List Column) : Option SchemaFault :=
  if Text.isBlank name then some .emptyName
  else if columns.isEmpty then some (.noColumns name)
  else (repeated? [] (columns.map (·.name))).map (.duplicateColumn name)

end Schema

structure Schema where
  name : String
  columns : List Column
  constraints : List String := []
  normalForm : Option NormalForm := none
  valid : Schema.fault? name columns = none
deriving DecidableEq

namespace Schema

def make (name : String) (columns : List Column) : Except SchemaFault Schema :=
  match h : fault? name columns with
  | none => .ok ⟨name, columns, [], none, h⟩
  | some f => .error f

def column? (s : Schema) (name : String) : Option Column := s.columns.find? (·.name == name)

def same (s t : Schema) : Bool :=
  s.name == t.name && s.columns.length == t.columns.length
    && (s.columns.zip t.columns).all (fun (c, d) => c.same d)
    && s.constraints == t.constraints && s.normalForm == t.normalForm

end Schema
end Attest
