import Attest.Node

/-!
Nodes as SQL, for reading only.

Types, certificates, access and provenance have no place in it.  The text begins with a comment
that says so, and everything that is dropped is listed in a warning.
-/

namespace Attest
namespace Sql

/-- A text between quotes, with the quotes in it doubled. -/
def quote (s : String) : String :=
  let doubled := s.toList.flatMap fun c => if c == '\'' then ['\'', '\''] else [c]
  String.ofList ('\'' :: doubled ++ ['\''])

mutual

def literal : Value → String
  | .nat n => toString n
  | .int i => toString i
  | .float x => x.literal
  | .text s => quote s
  | .bool b => if b then "TRUE" else "FALSE"
  | .uuid u => quote u.hyphenated
  | .timestamp ms => match Instant.format ms.toInt with
    | some s => quote s
    | none => toString ms
  | .vector items => "ARRAY[" ++ ", ".intercalate (literals items) ++ "]"
  | .scores s => quote s.render

def literals : List Value → List String
  | [] => []
  | v :: rest => literal v :: literals rest

end

def predicate : Predicate → String
  | .column c => c.name
  | .literal v => literal v.value
  | .unary .not p => "NOT (" ++ predicate p ++ ")"
  | .unary op p => op.name ++ "(" ++ predicate p ++ ")"
  | .binary .pow l r => "POWER(" ++ predicate l ++ ", " ++ predicate r ++ ")"
  | .binary .ne l r => "(" ++ predicate l ++ " <> " ++ predicate r ++ ")"
  | .binary op l r => "(" ++ predicate l ++ " " ++ op.name ++ " " ++ predicate r ++ ")"
  | .isNull p negated => predicate p ++ " IS " ++ (if negated then "NOT " else "") ++ "NULL"

def whereClause : Option Predicate → String
  | none => ""
  | some p => " WHERE " ++ predicate p

def orderClause (keys : List SortKey) : String :=
  if keys.isEmpty then ""
  else " ORDER BY " ++ ", ".intercalate (keys.map fun k => k.column ++ " " ++ k.direction.name)

def limitClause : Option UInt64 → String
  | none => ""
  | some n => s!" LIMIT {n}"

def statement (n : Node) : String :=
  match n.kind with
  | .insert =>
    "INSERT INTO " ++ n.table ++ " (" ++ ", ".intercalate (n.cells.map (·.column))
      ++ ") VALUES (" ++ ", ".intercalate (n.cells.map fun c => literal c.value.value) ++ ");"
  | .select =>
    let columns :=
      if n.projection.isEmpty then "*" else ", ".intercalate (n.projection.map (·.name))
    "SELECT " ++ columns ++ " FROM " ++ n.table ++ whereClause n.predicate
      ++ orderClause n.orderBy ++ limitClause n.limit ++ ";"
  | .update =>
    "UPDATE " ++ n.table ++ " SET "
      ++ ", ".intercalate (n.cells.map fun c => c.column ++ " = " ++ literal c.value.value)
      ++ whereClause n.predicate ++ ";"
  | .delete => "DELETE FROM " ++ n.table ++ whereClause n.predicate ++ ";"
  | .normalize => match n.normalForm with
    | some f => "-- NORMALIZE " ++ n.table ++ " TO " ++ f.name
    | none => "-- NORMALIZE " ++ n.table

def notice : String :=
  "-- WARNING: lossy lowering; types, proofs and permissions are not represented"

def text (n : Node) : String := notice ++ "\n" ++ statement n

/-- What is dropped. -/
def warnings (n : Node) : List String :=
  let refined := (n.cells.filter (·.value.ty.isRefined)).length
  (if refined == 0 then [] else [s!"{refined} refinement type(s) erased to base SQL types"])
    ++ (if n.cells.isEmpty then [] else [s!"{n.cells.length} proof blob(s) dropped"])
    ++ (match n.provenance with
        | some p => ["provenance of actor '" ++ p.actor ++ "' dropped"]
        | none => [])
    ++ (if n.access.role.isSome || !n.access.categories.isEmpty then ["permission context dropped"]
        else [])
    ++ (if n.kind == .normalize then ["NORMALIZE has no SQL equivalent"] else [])

end Sql
end Attest
