import Attest.Proofs.Checker
import Attest.Proofs.Ty.Same

/-!
What the checker makes of a statement.

A checked statement keeps the order of its source.  Each assignment is to a column of its own and
holds the value of a constant of the source, which is of the type that the schema gives to the
column, whatever the verifier said.  A type that the source wrote out is that type, though a bound
may be the other zero.  Columns that are read or sorted by have their types from the schema, and the
condition stands for the source's by the rules of expressions.
-/

namespace Attest

namespace Checker

variable {s : Schema}

/-- The reference to the column that a name of the source has in the schema. -/
def Names (s : Schema) (id : Ident) (r : ColumnRef) : Prop :=
  ∃ c, s.column? id.name = some c ∧ r = ⟨c.name, c.ty⟩

/-- What a checked assignment is to its source and to the column of the schema. -/
structure Assigns (a : Assignment) (c : Column) (t : TypedAssignment) : Prop where
  column : t.column = c.name
  value : ∃ l, a.value.fold = .ok l ∧ l.coerce t.value.ty = .ok t.value.value
  ty : t.value.ty.same c.ty = true
  fits : (c.ty.decide t.value.value).isHolds = true
  explicit : t.dialect = .explicit ↔ a.declared.isSome = true
  declared : ∀ ty ∈ a.declared, t.value.ty = ty ∧ ty.same c.ty = true

structure Sorts (s : Schema) (k : OrderKey) (t : TypedOrderKey) : Prop where
  column : Names s k.column t.column
  orderable : t.column.ty.isOrderable = true
  direction : t.direction = k.direction

def Projects (s : Schema) : Projection → List ColumnRef → Prop
  | .all, cs => cs = s.columns.map fun c => ⟨c.name, c.ty⟩
  | .columns ids, cs => List.Forall₂ (Names s) ids cs

/-- What a checked statement is to its source. -/
structure Elaborated (s : Schema) (st : Statement) (t : TypedStatement) : Prop where
  kind : t.kind = st.kind
  table : t.table = st.table.name ∧ t.table = s.name
  distinct : (t.assignments.map (·.column)).Nodup
  assignments : List.Forall₂ (fun a t => ∃ c, s.column? a.column.name = some c ∧ Assigns a c t)
    st.assignments t.assignments
  projection : Projects s st.projection t.projection
  orderBy : List.Forall₂ (Sorts s) st.orderKeys t.orderBy
  predicate : Option.Rel (fun e t => Elaborates s e t ∧ t.ty = .bool) st.condition t.predicate

theorem Assigned.assigns {a : Assignment} {t : TypedAssignment} (h : Assigned s a t) :
    ∃ c, s.column? a.column.name = some c ∧ Assigns a c t := by
  obtain ⟨r, hresolve, hname, hty⟩ := h.column
  obtain ⟨c, hc, rfl⟩ := resolve_eq_ok.mp hresolve
  have hsame : t.value.ty.same c.ty = true := by
    rcases hty with heq | hsame
    · rw [← show t.value.ty = c.ty from heq]
      exact Ty.same_self (Ty.fault?_of_isHolds t.value.fits)
    · exact hsame
  refine ⟨c, hc, hname, h.value, hsame, Ty.isHolds_of_same hsame t.value.fits, h.explicit, ?_⟩
  intro ty hty
  have heq := h.declared ty hty
  exact ⟨heq, heq ▸ hsame⟩

theorem sorts_of_orderKey {k : OrderKey} {t : TypedOrderKey} (h : orderKey s k = .ok t) :
    Sorts s k t := by
  obtain ⟨c, hc, h⟩ := Outcome.bind_eq_ok.mp h
  split at h
  · next horderable =>
    cases h
    exact ⟨resolve_eq_ok.mp hc, horderable, rfl⟩
  · cases h

theorem projects_of_projection {p : Projection} {cs : List ColumnRef}
    (h : projection s p = .ok cs) : Projects s p cs := by
  cases p with
  | all =>
    cases h
    rfl
  | columns ids => exact (Outcome.mapM_eq_ok.mp h).imp fun _ _ hc => resolve_eq_ok.mp hc

theorem elaborates_of_predicate {e : Option Expr} {t : Option TypedExpr}
    (h : predicate s e = .ok t) :
    Option.Rel (fun e t => Elaborates s e t ∧ t.ty = .bool) e t := by
  cases e with
  | none =>
    cases h
    exact .none
  | some e =>
    obtain ⟨t', ht, rfl⟩ := predicate_some_eq_ok.mp h
    exact .some (elaborates_of_typePredicate ht)

/-- What passes the checks, under any verifier, stands for its source and has the types of the
schema. -/
theorem elaborated_of_check {v : Verifier} {st : Statement} {t : TypedStatement}
    (h : check s v st = .ok t) : Elaborated s st t := by
  have hst := checked_of_check h
  refine ⟨hst.kind, hst.table, (nodup_of_assignments hst.assignments).1, ?_,
    projects_of_projection hst.projection, ?_, elaborates_of_predicate hst.condition⟩
  · exact (assigned_of_assignments hst.assignments).imp fun _ _ ha => ha.assigns
  · exact (Outcome.mapM_eq_ok.mp hst.orderBy).imp fun _ _ hk => sorts_of_orderKey hk

end Checker

def Schema.gauges : Schema where
  name := "gauges"
  columns := [⟨"label", .nonEmptyString, true, true⟩,
    ⟨"level", .boundedFloat .zero .one, false, false⟩]
  valid := rfl

/-- `UPDATE gauges SET level = 1 : BoundedFloat(-0, 1), label = "a" || "b"
WHERE 2 * level <= 1 AND NOT label = "x"`. -/
def Statement.fillsGauge : Statement :=
  .update ⟨"gauges", default⟩
    [⟨⟨"level", default⟩, .literal (.nat 1) default, some (.boundedFloat Double.zero.neg .one)⟩,
      ⟨⟨"label", default⟩, .binary .concat (.literal (.text "a") default)
        (.literal (.text "b") default) default, none⟩]
    (some (.binary .and
      (.binary .le (.binary .mul (.literal (.nat 2) default) (.column ⟨"level", default⟩) default)
        (.literal (.nat 1) default) default)
      (.unary .not (.binary .eq (.column ⟨"label", default⟩) (.literal (.text "x") default) default)
        default) default)) {}

namespace Checker

/-- A verifier that accepts everything, and a lower bound that is written as the other zero. -/
theorem fillsGauge_elaborated :
    ∃ t, check .gauges ⟨"credulous", fun _ _ => .satisfied .structural ""⟩ .fillsGauge = .ok t ∧
      Elaborated .gauges .fillsGauge t ∧
      t.assignments.map (fun a => (a.column, a.value.ty, a.dialect)) =
        [("level", .boundedFloat Double.zero.neg .one, .explicit),
          ("label", .nonEmptyString, .inferred)] := by
  obtain ⟨t, ht, has⟩ : ∃ t,
      check .gauges ⟨"credulous", fun _ _ => .satisfied .structural ""⟩ .fillsGauge = .ok t ∧
      t.assignments.map (fun a => (a.column, a.value.ty, a.dialect)) =
        [("level", .boundedFloat Double.zero.neg .one, .explicit),
          ("label", .nonEmptyString, .inferred)] :=
    ⟨_, rfl, rfl⟩
  exact ⟨t, ht, elaborated_of_check ht, has⟩

end Checker
end Attest
