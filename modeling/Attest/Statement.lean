import Attest.Expr
import Attest.NormalForm
import Attest.Ty

/-!
Statements of the source language.
-/

namespace Attest

inductive StatementKind where
  | insert
  | select
  | update
  | delete
  | normalize
deriving DecidableEq, Repr

namespace StatementKind

def all : List StatementKind := [insert, select, update, delete, normalize]

def name : StatementKind → String
  | insert => "INSERT"
  | select => "SELECT"
  | update => "UPDATE"
  | delete => "DELETE"
  | normalize => "NORMALIZE"

instance : ToString StatementKind := ⟨name⟩

/-- Statements that change a table, which must say who changes it and why. -/
def isMutation : StatementKind → Bool
  | select => false
  | _ => true

end StatementKind

/-- Who makes a change and why, as far as a statement or a request says so. -/
structure ProvenanceClause where
  actor : Option String := none
  rationale : Option String := none
deriving DecidableEq, Repr, Inhabited

/-- A value for a column, with the type that is claimed for it, if any. -/
structure Assignment where
  column : Ident
  value : Expr
  declared : Option Ty
deriving Repr

inductive Projection where
  | all
  | columns (names : List Ident)
deriving Repr

inductive SortDirection where
  | asc
  | desc
deriving DecidableEq, Repr

namespace SortDirection

def all : List SortDirection := [asc, desc]

def name : SortDirection → String
  | asc => "ASC"
  | desc => "DESC"

instance : ToString SortDirection := ⟨name⟩

end SortDirection

structure OrderKey where
  column : Ident
  direction : SortDirection
deriving DecidableEq, Repr

inductive Statement where
  | insert (table : Ident) (assignments : List Assignment) (provenance : ProvenanceClause)
  | select (table : Ident) (projection : Projection) (predicate : Option Expr)
      (orderBy : List OrderKey) (limit : Option UInt64)
  | update (table : Ident) (assignments : List Assignment) (predicate : Option Expr)
      (provenance : ProvenanceClause)
  | delete (table : Ident) (predicate : Expr) (provenance : ProvenanceClause)
  | normalize (table : Ident) (target : Option NormalForm) (provenance : ProvenanceClause)
deriving Repr

namespace Statement

def kind : Statement → StatementKind
  | insert .. => .insert
  | select .. => .select
  | update .. => .update
  | delete .. => .delete
  | normalize .. => .normalize

def table : Statement → Ident
  | insert t _ _ => t
  | select t _ _ _ _ => t
  | update t _ _ _ => t
  | delete t _ _ => t
  | normalize t _ _ => t

/-- Who and why, which a query does not say. -/
def provenance : Statement → Option ProvenanceClause
  | insert _ _ p => some p
  | select .. => none
  | update _ _ _ p => some p
  | delete _ _ p => some p
  | normalize _ _ p => some p

end Statement
end Attest
