import Attest.Node

/-!
Permissions: which categories of types a role may touch.
-/

namespace Attest

/-- How much of a node is looked at. -/
inductive ValidationLevel where
  | standard
  | strict
deriving DecidableEq, Repr

namespace ValidationLevel

def all : List ValidationLevel := [standard, strict]

def name : ValidationLevel → String
  | standard => "standard"
  | strict => "strict"

instance : ToString ValidationLevel := ⟨name⟩

end ValidationLevel

/-- What a role may touch.  The categories stand in their order, each once. -/
structure Profile where
  role : String
  whitelist : List Category
  level : ValidationLevel := .standard
deriving DecidableEq, Repr

namespace Profile

def ofCategories (role : String) (cs : List Category) : Profile :=
  { role, whitelist := Category.setOf cs }

def unrestricted (role : String) : Profile := ofCategories role Category.all

def strict (p : Profile) : Profile := { p with level := .strict }

def allows (p : Profile) (c : Category) : Bool := p.whitelist.contains c

end Profile

inductive Denial where
  | notWhitelisted
  | notExplicit
deriving DecidableEq, Repr

structure PermissionError where
  column : String
  category : Category
  role : String
  why : Denial
deriving DecidableEq, Repr

namespace PermissionError

def reason (e : PermissionError) : String :=
  match e.why with
  | .notWhitelisted => s!"category {e.category} not in whitelist"
  | .notExplicit => "strict roles require explicit type annotations"

def message (e : PermissionError) : String :=
  "permission denied for role '" ++ e.role ++ "' on column '" ++ e.column ++ "': " ++ e.reason

def suggestion (e : PermissionError) : String :=
  match e.why with
  | .notWhitelisted =>
    s!"grant {e.category} to role '" ++ e.role ++ "' or use a different column"
  | .notExplicit => "annotate the value, e.g. " ++ e.column ++ " = <value> : <Type>"

end PermissionError

namespace Profile

def denied? (p : Profile) : List (String × Category) → Option PermissionError
  | [] => none
  | (column, c) :: rest =>
    if p.allows c then denied? p rest else some ⟨column, c, p.role, .notWhitelisted⟩

/-- The columns that a node writes. -/
def written (n : Node) : List (String × Category) :=
  n.cells.map fun c => (c.column, c.value.ty.category)

/-- The columns that a node filters on, reads or removes. -/
def touched (n : Node) : List (String × Category) :=
  (((n.predicate.map Predicate.columns).getD []) ++ n.projection).map fun c =>
    (c.name, c.ty.category)

/-- The first cell of a change whose type is not written out, for a role that must do so. -/
def implicit? (p : Profile) (n : Node) : Option PermissionError :=
  if p.level == .strict && n.kind.isMutation then
    (n.cells.find? (·.dialect == .inferred)).map fun c =>
      ⟨c.column, c.value.ty.category, p.role, .notExplicit⟩
  else none

/-- The first column that a node may not touch.  Changes are held to what they filter on or
remove; strict roles are held to what they read as well. -/
def validate (p : Profile) (n : Node) : Except PermissionError Unit :=
  match p.denied? (written n) with
  | some e => .error e
  | none => match p.implicit? n with
    | some e => .error e
    | none =>
      if p.level == .strict || n.kind.isMutation then
        match p.denied? (touched n) with
        | some e => .error e
        | none => .ok ()
      else .ok ()

end Profile
end Attest
