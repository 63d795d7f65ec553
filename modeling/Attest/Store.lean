import Attest.Predicate.Eval
import Attest.Sorting

/-!
A store of tables, on which nodes are executed, with a log of all changes.
-/

namespace Attest

inductive ExecutionError where
  | unverified
  | withoutProvenance (kind : StatementKind)
  | evaluation (why : EvalError)
deriving DecidableEq, Repr

namespace ExecutionError

def message : ExecutionError → String
  | unverified => "node rejected: node contains unverified values"
  | withoutProvenance k => s!"node rejected: {k} without provenance"
  | evaluation why => "cannot evaluate predicate: " ++ why.reason

def category : ExecutionError → String
  | unverified => "rejected"
  | withoutProvenance _ => "rejected"
  | evaluation _ => "evaluation"

end ExecutionError

/-- What the execution of a node gives: how many rows it changed, and the rows that it selects. -/
structure ExecutionResult where
  affected : Nat
  rows : List Row := []
deriving Repr

structure AuditEntry where
  kind : StatementKind
  table : String
  provenance : Provenance
deriving DecidableEq

/-- Tables by their names, and the changes, oldest first. -/
structure Store where
  tables : List (String × List Row) := []
  audit : List AuditEntry := []
deriving Inhabited

namespace Store

/-- The rows of a table, of which there are none if it does not exist. -/
def rows (s : Store) (table : String) : List Row := (s.tables.lookup table).getD []

/-- Replace the rows of a table that exists, or add it. -/
def put (table : String) (rows : List Row) : List (String × List Row) → List (String × List Row)
  | [] => [(table, rows)]
  | (t, rs) :: rest => if t == table then (t, rows) :: rest else (t, rs) :: put table rows rest

def setRows (s : Store) (table : String) (rows : List Row) : Store :=
  { s with tables := put table rows s.tables }

/-- The rows that meet a condition; a row on which it has no value ends the search. -/
def select (p : Option Predicate) : List Row → Except EvalError (List Row)
  | [] => .ok []
  | r :: rest => do
    let keep ← Predicate.accepts p r
    let more ← select p rest
    return if keep then r :: more else more

def reject (p : Option Predicate) : List Row → Except EvalError (List Row)
  | [] => .ok []
  | r :: rest => do
    let drop ← Predicate.accepts p r
    let more ← reject p rest
    return if drop then more else r :: more

/-- Set cells in the rows that meet a condition: the rows, how many were changed, and the error
that ended the work, if one did.  Rows before it have been changed by then. -/
def update (p : Option Predicate) (cells : List (String × Value)) :
    List Row → List Row × Nat × Option EvalError
  | [] => ([], 0, none)
  | r :: rest =>
    match Predicate.accepts p r with
    | .error e => (r :: rest, 0, some e)
    | .ok keep =>
      let (rows, n, e) := update p cells rest
      if keep then (r.setAll cells :: rows, n + 1, e) else (r :: rows, n, e)

/-- The order of two rows by one key: a missing value comes first, and values that cannot be
compared count as equal. -/
def keyOrder (k : SortKey) (a b : Row) : Ordering :=
  let o := match a.get? k.column, b.get? k.column with
    | some x, some y => (Value.compare? x y).getD .eq
    | none, some _ => .lt
    | some _, none => .gt
    | none, none => .eq
  match k.direction with
  | .asc => o
  | .desc => o.swap

def rowOrder (keys : List SortKey) (a b : Row) : Ordering :=
  match keys with
  | [] => .eq
  | k :: rest => (keyOrder k a b).then (rowOrder rest a b)

def limited (limit : Option UInt64) (rows : List Row) : List Row :=
  match limit with
  | none => rows
  | some n => rows.take n.toNat

def query (s : Store) (n : Node) : Except EvalError (List Row) := do
  let rows ← select n.predicate (s.rows n.table)
  let rows := Sorting.sort (fun a b => rowOrder n.orderBy a b == .lt) rows
  return (limited n.limit rows).map fun r => r.project (n.projection.map (·.name))

def cellsOf (n : Node) : List (String × Value) := n.cells.map fun c => (c.column, c.value.value)

def mutate (s : Store) (n : Node) : Except EvalError Nat × Store :=
  match n.kind with
  | .insert => (.ok 1, s.setRows n.table (s.rows n.table ++ [ByName.ofList (cellsOf n)]))
  | .update => match s.tables.lookup n.table with
    | none => (.ok 0, s)
    | some rows =>
      let (rows, count, e) := update n.predicate (cellsOf n) rows
      -- also after an error: the rows before the one that stopped the update stay changed
      let s := s.setRows n.table rows
      match e with
      | some e => (.error e, s)
      | none => (.ok count, s)
  | .delete => match s.tables.lookup n.table with
    | none => (.ok 0, s)
    -- nothing is deleted before the condition has been evaluated on every row
    | some rows => match reject n.predicate rows with
      | .error e => (.error e, s)
      | .ok kept => (.ok (rows.length - kept.length), s.setRows n.table kept)
  | .normalize => (.ok 0, s)
  | .select => (.ok 0, s)

def record (s : Store) (n : Node) (p : Provenance) : Store :=
  { s with audit := s.audit ++ [⟨n.kind, n.table, p⟩] }

def submit (s : Store) (n : Node) : Except ExecutionError ExecutionResult × Store :=
  if !n.isVerified then (.error .unverified, s)
  else if n.kind == .select then
    match s.query n with
    | .ok rows => (.ok ⟨0, rows⟩, s)
    | .error e => (.error (.evaluation e), s)
  else match n.provenance with
    | none => (.error (.withoutProvenance n.kind), s)
    | some p => match s.mutate n with
      | (.error e, s) => (.error (.evaluation e), s)
      | (.ok count, s) => (.ok ⟨count, []⟩, s.record n p)

end Store
end Attest
