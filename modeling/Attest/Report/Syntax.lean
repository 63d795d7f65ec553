import Attest.Outline
import Attest.Report
import Attest.Syntax

/-!
Reports of tokens, of statements as they were written, and of syntax errors.
-/

namespace Attest
namespace Report

instance : Report Position := ⟨fun p => report [p.line, p.column, p.offset]⟩

instance : Report LexError := ⟨fun e => .object [member "error" "lex", member "message" e.message,
  member "reason" e.reason, member "pos" e.position]⟩

instance : Report ParseError := ⟨fun e => .object [member "error" "parse",
  member "message" e.message, member "reason" e.reason, member "pos" e.position,
  member "expected" e.expected, member "found" e.found, member "policy" e.note]⟩

instance : Report SyntaxError := ⟨fun
  | .lex e => report e
  | .parse e => report e⟩

/-- The kind of a token, and what it stands for. -/
def tokenParts : TokenKind → String × Json
  | .keyword k => member "keyword" k
  | .typeName c => member "type" c
  | .ident s => member "identifier" s
  | .nat n => member "natural" n
  | .float x => member "float" x
  | .text s => member "string" s
  | .bool b => member "boolean" b
  | .null => ("null", .null)
  | .symbol s => member "operator" s.name
  | .comment s => member "comment" s
  | .eof => ("end", .null)

instance : Report Token := ⟨fun t =>
  let (kind, value) := tokenParts t.kind
  .object [member "kind" kind, member "value" value, member "lexeme" t.lexeme,
    member "pos" t.position, member "end" t.endOffset, member "display" t.kind.describe]⟩

instance : Report Expr := ⟨fun e => .object [member "tree" e.outline, member "display" e.render,
  member "columns" (e.columns.map Ident.name)]⟩

instance : Report Assignment := ⟨fun a => .object [member "column" a.column.name,
  member "pos" a.column.position, member "value" a.value.outline,
  member "value_display" a.value.render, member "annotation" a.declared]⟩

instance : Report ProvenanceClause := ⟨fun c =>
  .object [member "actor" c.actor, member "rationale" c.rationale]⟩

instance : Report OrderKey := ⟨fun k =>
  report [report k.column.name, report k.direction, report k.column.position]⟩

instance : Report Projection := ⟨fun
  | .all => report "*"
  | .columns ids => report (ids.map fun id => [report id.name, report id.position])⟩

/-- What only some kinds of statements have. -/
def statementParts : Statement → List (String × Json)
  | .insert _ as _ => [member "assignments" as]
  | .select _ p w o l =>
    [member "projection" p, member "predicate" w, member "order_by" o, member "limit" l]
  | .update _ as w _ => [member "assignments" as, member "predicate" w]
  | .delete _ w _ => [member "predicate" w]
  | .normalize _ t _ => [member "target" t]

instance : Report Statement := ⟨fun s => .object ([member "kind" s.kind,
  member "mutation" s.kind.isMutation, member "table" s.table.name,
  member "table_pos" s.table.position, member "provenance" s.provenance] ++ statementParts s)⟩

end Report
end Attest
