import Attest.CertificateCache
import Attest.Node

/-!
Lowering of checked statements to nodes.
-/

namespace Attest

inductive LoweringError where
  | provenance (why : ProvenanceFault)
  | refinement (why : RefinementError)
deriving Repr

namespace LoweringError

def message : LoweringError → String
  | provenance why => why.message
  | refinement why => "predicate literal rejected: " ++ why.message

def category : LoweringError → String
  | provenance _ => "provenance"
  | refinement _ => "refinement"

end LoweringError

namespace Predicate

def ofTyped : TypedExpr → Except RefinementError Predicate
  | .column c => .ok (column c)
  | .literal v ty => literal <$> TypedValue.make ty v
  | .unary op e _ => unary op <$> ofTyped e
  | .binary op l r _ => do
    let l ← ofTyped l
    let r ← ofTyped r
    return binary op l r
  | .isNull e negated => (isNull · negated) <$> ofTyped e

end Predicate

namespace Node

/-- The cell of an assignment, with a certificate that may come from the cache. -/
def cellOf (cache : CertificateCache) (a : TypedAssignment) : Cell × CertificateCache :=
  let minted := Certificate.mint a.method a.evidence a.value
  let (certificate, _, cache) := cache.getOrMint a.method a.evidence a.value minted
  (⟨a.column, a.value, certificate, a.dialect⟩, cache)

def cellsOf (cache : CertificateCache) : List TypedAssignment → List Cell × CertificateCache
  | [] => ([], cache)
  | a :: rest =>
    let (cell, cache) := cellOf cache a
    let (cells, cache) := cellsOf cache rest
    (cell :: cells, cache)

/-- The categories of all columns that a statement writes or reads. -/
def categoriesOf (s : TypedStatement) (cells : List Cell) (p : Option Predicate) : List Category :=
  Category.setOf
    (cells.map (·.value.ty.category) ++ s.projection.map (·.ty.category)
      ++ s.orderBy.map (·.column.ty.category)
      ++ (p.map fun p => p.columns.map (·.ty.category)).getD [])

def assemble (s : TypedStatement) (provenance : Option Provenance) (cells : List Cell)
    (p : Option Predicate) : Node where
  kind := s.kind
  table := s.table
  cells := cells
  projection := s.projection
  predicate := p
  orderBy := s.orderBy.map fun k => ⟨k.column.name, k.direction⟩
  limit := s.limit
  normalForm := s.normalForm
  provenance := provenance
  access := ⟨none, s.dialect, categoriesOf s cells p⟩

/-- The provenance that a node carries: that of a change, and none of a query. -/
def provenanceOf (s : TypedStatement) (p : Option Provenance) :
    Except LoweringError (Option Provenance) :=
  if !s.kind.isMutation then .ok none
  else match p with
    | some p => .ok (some p)
    | none => .error (.provenance (.missing s.kind "provenance record"))

def predicateOf (s : TypedStatement) : Except LoweringError (Option Predicate) :=
  match s.predicate with
  | none => .ok none
  | some e => match Predicate.ofTyped e with
    | .ok p => .ok (some p)
    | .error e => .error (.refinement e)

def lower (cache : CertificateCache) (s : TypedStatement) (provenance : Option Provenance) :
    Except LoweringError Node × CertificateCache :=
  match provenanceOf s provenance with
  | .error e => (.error e, cache)
  | .ok provenance =>
    let (cells, cache) := cellsOf cache s.assignments
    -- a condition that fails leaves the certificates of the cells in the cache
    match predicateOf s with
    | .error e => (.error e, cache)
    | .ok p => (.ok (assemble s provenance cells p), cache)

end Node
end Attest
