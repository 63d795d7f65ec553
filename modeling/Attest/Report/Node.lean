import Attest.CompileError
import Attest.Report.Syntax
import Attest.Report.Value
import Attest.Store
import Attest.Wire

/-!
Reports of checked statements, of nodes and of what is wrong with them.
-/

namespace Attest
namespace Report

instance : Report Dialect := via Dialect.name
instance : Report ColumnRef := via ColumnRef.render
instance : Report Stage := via Stage.name
instance : Report Version := ⟨fun v => .number (.nat v.number)⟩

instance : Report Column := ⟨fun c => .object [member "name" c.name, member "type" c.ty,
  member "pk" c.isPrimaryKey, member "unique" c.isUnique]⟩

instance : Report CheckError := ⟨fun
  | .type e => .object [member "error" "type", member "message" e.message,
      member "reason" e.fault.message, member "column" e.fault.column?,
      member "expected" e.fault.expected, member "actual" e.fault.actual,
      member "suggestion" e.fault.suggestion, member "pos" e.position]
  | .proof e => .object [member "error" "proof", member "message" e.message,
      member "column" e.column, member "type" e.ty, member "detail" e.why.reason,
      member "pos" e.position]⟩

instance : Report TypedAssignment := ⟨fun a => .object [member "column" a.column,
  member "value" a.value, member "dialect" a.dialect, member "method" a.method,
  member "evidence" a.evidence, member "pos" a.position]⟩

instance : Report TypedOrderKey := via fun k => k.column.render ++ " " ++ k.direction.name

instance : Report TypedStatement := ⟨fun s => .object [member "kind" s.kind,
  member "table" s.table, member "dialect" s.dialect, member "assignments" s.assignments,
  member "projection" s.projection, member "predicate" (s.predicate.map TypedExpr.outline),
  member "predicate_display" (s.predicate.map TypedExpr.render),
  member "predicate_columns" (s.predicate.map fun e => e.columns.map ColumnRef.name),
  member "order_by" s.orderBy, member "limit" s.limit, member "normal_form" s.normalForm,
  member "provenance" s.provenance, member "warnings" s.warnings]⟩

instance : Report Certificate := ⟨fun c => .object [member "kind" c.method,
  member "category" c.category, member "payload" c.payload, member "verified" c.verified]⟩

instance : Report Cell := ⟨fun c => .object [member "column" c.column,
  member "value" c.value.render, member "proof" c.certificate, member "dialect" c.dialect]⟩

instance : Report SortKey := via fun k => k.column ++ " " ++ k.direction.name

instance : Report Provenance := ⟨fun p => report [p.actor, toString p.timestamp, p.rationale]⟩

instance : Report Node := ⟨fun n => .object [member "kind" n.kind, member "table" n.table,
  member "rows" n.cells, member "projection" n.projection,
  member "predicate" (n.predicate.map Predicate.outline),
  member "predicate_display" (n.predicate.map Predicate.render), member "order_by" n.orderBy,
  member "limit" n.limit, member "normal_form" n.normalForm, member "provenance" n.provenance,
  member "role" n.access.role, member "dialect" n.access.dialect,
  member "categories" n.access.categories, member "verified" n.isVerified]⟩

instance : Report LoweringError := ⟨fun e => .object [member "error" "lowering",
  member "category" e.category, member "message" e.message]⟩

instance : Report PermissionError := ⟨fun e => .object [member "error" "permission",
  member "message" e.message, member "column" e.column, member "category" e.category,
  member "role" e.role, member "suggestion" e.suggestion]⟩

instance : Report ProvenanceError := ⟨fun e => problem "provenance" e.message⟩

instance : Report Profile := ⟨fun p => .object [member "role" p.role,
  member "allow" p.whitelist, member "level" p.level.name]⟩

instance : Report Encoded := ⟨fun e => .object [member "text" e.display, member "len" e.size,
  member "warnings" e.warnings]⟩

instance : Report ExecutionError := ⟨fun e => problem e.category e.message⟩

instance : Report ExecutionResult := ⟨fun r =>
  .object [member "affected" r.affected, member "rows" r.rows]⟩

instance : Report AuditEntry := ⟨fun a => report [a.kind.name, a.table, a.provenance.actor,
  toString a.provenance.timestamp, a.provenance.rationale]⟩

instance : Report IllegalMove := ⟨fun m => problem "illegal_transition" m.message⟩

instance : Report CompileError := ⟨fun e => .object [member "error" e.kind,
  member "stage" e.stage, member "pos" e.position, member "message" e.message,
  member "suggestion" e.suggestion, member "display" e.render,
  member "retriable" e.isRetriable]⟩

end Report
end Attest
