import Attest.Node
import Attest.Wire.Value

/-!
Nodes on the wire.

What is read is checked part by part: values are of their types with certificates of their own, and
a change carries its provenance.  No part is compared with another beyond that.
-/

namespace Attest

namespace Predicate

def toItem : Predicate → Item
  | column c => .ofFields [("op", .text "column"), ("name", .text c.name),
      ("type", .text c.ty.render)]
  | literal v => .ofFields [("op", .text "literal"), ("value", v.toItem (Certificate.ofValue v))]
  | unary op p => .ofFields [("op", .text op.name), ("operand", p.toItem)]
  | binary op l r => .ofFields [("op", .text op.name), ("left", l.toItem), ("right", r.toItem)]
  | isNull p negated => .ofFields [("op", .text "is_null"), ("operand", p.toItem),
      ("negated", .bool negated)]

end Predicate

namespace Provenance

def toItem (p : Provenance) : Item :=
  .ofFields [("actor_id", .text p.actor), ("timestamp", .unsigned p.timestamp),
    ("rationale", .text p.rationale)]

end Provenance

namespace Access

def toItem (a : Access) : Item :=
  .ofFields [("role_id", .optional (a.role.map .text)), ("dialect", .text a.dialect.name),
    ("required_categories", .array (a.categories.map fun c => .text c.name))]

end Access

namespace Cell

def toItem (c : Cell) : Item :=
  .ofFields [("column", .text c.column), ("value", c.value.toItem c.certificate),
    ("dialect", .text c.dialect.name)]

end Cell

namespace ColumnRef

def toItem (c : ColumnRef) : Item :=
  .ofFields [("name", .text c.name), ("type", .text c.ty.render)]

end ColumnRef

namespace SortKey

def toItem (k : SortKey) : Item :=
  .ofFields [("column", .text k.column), ("direction", .text k.direction.name)]

end SortKey

namespace Node

def toItem (n : Node) : Item :=
  .ofFields
    [("kind", .text n.kind.name), ("table", .text n.table),
     ("rows", .array (n.cells.map Cell.toItem)),
     ("projection", .array (n.projection.map ColumnRef.toItem)),
     ("predicate", .optional (n.predicate.map Predicate.toItem)),
     ("order_by", .array (n.orderBy.map SortKey.toItem)),
     ("limit", .optional (n.limit.map .unsigned)),
     ("normal_form", .optional (n.normalForm.map fun f => .text f.name)),
     ("provenance", .optional (n.provenance.map Provenance.toItem)),
     ("permission", n.access.toItem)]

end Node

namespace Item

def toColumn (i : Item) : Except WireError ColumnRef := do
  let name ← i.textField "name"
  let ty ← typeOf (← i.textField "type")
  return ⟨name, ty⟩

def toPredicate (i : Item) : Except WireError Predicate := do
  let op ← i.textField "op"
  if op == "column" then return .column (← i.toColumn)
  else if op == "literal" then return .literal (← (← i.required "value").toTypedValue).1
  else if op == "is_null" then
    match _h : i.field? "operand" with
    | none => .error (.invalidField "operand" .missing)
    | some p => do
      let p ← p.toPredicate
      return .isNull p (← i.boolField "negated")
  else match _hr : i.field? "right" with
    | some r => do
      let op ← named "op" BinaryOp.all BinaryOp.name op
      match _hl : i.field? "left" with
      | none => .error (.invalidField "left" .missing)
      | some l => do
        let l ← l.toPredicate
        let r ← r.toPredicate
        return .binary op l r
    | none => do
      let op ← named "op" UnaryOp.all UnaryOp.name op
      match _h : i.field? "operand" with
      | none => .error (.invalidField "operand" .missing)
      | some p => do return .unary op (← p.toPredicate)
termination_by sizeOf i
decreasing_by all_goals exact sizeOf_lt_of_field? (by assumption)

def toDialect (i : Item) : Except WireError Dialect := do
  named "dialect" Dialect.all Dialect.name (← i.textField "dialect")

def toCell (i : Item) : Except WireError Cell := do
  let (value, certificate) ← (← i.required "value").toTypedValue
  let column ← i.textField "column"
  let dialect ← i.toDialect
  return ⟨column, value, certificate, dialect⟩

def toSortKey (i : Item) : Except WireError SortKey := do
  let column ← i.textField "column"
  let direction ← named "direction" SortDirection.all SortDirection.name (← i.textField "direction")
  return ⟨column, direction⟩

def toCategory (i : Item) : Except WireError Category := do
  let s ← expectField "required_categories" "text" i.toText?
  match Category.ofName? s with
  | some c => return c
  | none => .error (.invalidField "required_categories" (.unknownCategory s))

def toAccess (i : Item) : Except WireError Access := do
  let role ← match i.present? "role_id" with
    | none => pure none
    | some r => some <$> expectField "role_id" "text" r.toText?
  let categories ← (← i.arrayField "required_categories").mapM toCategory
  let dialect ← i.toDialect
  return ⟨role, dialect, Category.setOf categories⟩

def toProvenance (i : Item) : Except WireError Provenance := do
  let timestamp ← i.wordField "timestamp"
  let actor ← i.textField "actor_id"
  let rationale ← i.textField "rationale"
  match Provenance.make actor timestamp rationale with
  | .ok p => return p
  | .error e => .error (.invalidField "provenance" (.provenance e))

def toNormalForm (i : Item) : Except WireError NormalForm := do
  let s ← expectField "normal_form" "text" i.toText?
  match NormalForm.ofName? s with
  | some f => return f
  | none => .error (.invalidField "normal_form" (.unknownNormalForm s))

def maybe {α : Type} (i : Item) (name : String) (f : Item → Except WireError α) :
    Except WireError (Option α) :=
  match i.present? name with
  | none => .ok none
  | some v => some <$> f v

/-- Demand provenance of a change, and none of a query. -/
def checkProvenance (kind : StatementKind) (p : Option Provenance) : Except WireError Unit :=
  if kind.isMutation && p.isNone then .error (.invalidField "provenance" (.needsProvenance kind))
  else if !kind.isMutation && p.isSome then
    .error (.invalidField "provenance" (.strayProvenance kind))
  else .ok ()

def toNode : Item → Except WireError Node
  | map entries => do
    let i := map entries
    let kind ← named "kind" StatementKind.all StatementKind.name (← i.textField "kind")
    let table ← i.textField "table"
    let cells ← (← i.arrayField "rows").mapM toCell
    let projection ← (← i.arrayField "projection").mapM toColumn
    let predicate ← i.maybe "predicate" toPredicate
    let orderBy ← (← i.arrayField "order_by").mapM toSortKey
    let limit ← i.maybe "limit" fun v => expectField "limit" "unsigned integer" v.toWord?
    let normalForm ← i.maybe "normal_form" toNormalForm
    let provenance ← i.maybe "provenance" toProvenance
    checkProvenance kind provenance
    let access ← (← i.required "permission").toAccess
    return ⟨kind, table, cells, projection, predicate, orderBy, limit, normalForm, provenance,
      access⟩
  | other => .error (.unexpected "IR map" other.describe)

end Item
end Attest
