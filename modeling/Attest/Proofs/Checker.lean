import Attest.Proofs.Checker.Typing
import Attest.Proofs.Verifier

/-!
What checked statements say about columns.

Every column that a statement reads is one of the schema, and every value that it writes has the
type of its column, up to the way in which bounds are written.  No column is written twice.  Folding
drops no column: those of a checked condition are the ones that its source names, one by one.
-/

namespace Attest

namespace Ty

theorem layers_eq_of_same {s t : Ty} (h : s.same t = true) : s.layers = t.layers := by
  induction s generalizing t with
  | vector s m ih =>
    cases t with
    | vector t n =>
      rw [same, Bool.and_eq_true] at h
      rw [layers, layers, ih h.1]
    | _ => cases h
  | _ =>
    cases t with
    | vector t n => cases h
    | _ => rfl

theorem category_eq_of_same {s t : Ty} (h : s.same t = true) : s.category = t.category := by
  unfold same at h
  split at h
  · rfl
  · rfl
  · rfl
  · exact eq_of_beq h

end Ty

/-- What is folded names no column. -/
theorem Expr.columns_of_fold {e : Expr} {l : Literal} (h : e.fold = .ok l) : e.columns = [] := by
  induction e generalizing l with
  | column id => cases h
  | literal v p => rfl
  | unary op e p ih =>
    obtain ⟨a, ha, -⟩ := Outcome.bind_eq_ok.mp h
    exact ih ha
  | binary op l r p ihl ihr =>
    rw [fold] at h
    split at h
    · obtain ⟨a, ha, h⟩ := Outcome.bind_eq_ok.mp h
      obtain ⟨b, hb, -⟩ := Outcome.bind_eq_ok.mp h
      rw [columns, ihl ha, ihr hb, List.append_nil]
    · cases h
  | isNull e negated p ih => cases h

namespace Statement

def assignments : Statement → List Assignment
  | insert _ as _ => as
  | update _ as _ _ => as
  | _ => []

/-- What a statement says after `WHERE`. -/
def condition : Statement → Option Expr
  | select _ _ p _ _ => p
  | update _ _ p _ => p
  | delete _ p _ => some p
  | _ => none

def orderKeys : Statement → List OrderKey
  | select _ _ _ keys _ => keys
  | _ => []

/-- The columns that a statement reads or removes. -/
def projection : Statement → Projection
  | select _ p _ _ _ => p
  | delete .. => .all
  | _ => .columns []

end Statement

namespace Checker

/-- A typed statement is about the columns of a schema. -/
structure About (s : Schema) (t : TypedStatement) : Prop where
  assignments : ∀ a ∈ t.assignments, ∃ c ∈ s.columns, a.column = c.name ∧
    (a.value.ty = c.ty ∨ a.value.ty.same c.ty = true)
  projection : ∀ c ∈ t.projection, c ∈ allColumns s
  predicate : ∀ e ∈ t.predicate, ∀ c ∈ e.columns, c ∈ allColumns s

theorem columns_of_typePredicate {s : Schema} {e : Expr} {t : TypedExpr}
    (h : typePredicate s e = .ok t) : ∀ c ∈ t.columns, c ∈ allColumns s :=
  (wellTyped_of_typePredicate h).1.columns

theorem lift_eq_ok {α : Type} {x : Except TypeError α} {a : α} : lift x = .ok a ↔ x = .ok a := by
  cases x <;> simp [lift]

theorem predicate_some_eq_ok {s : Schema} {e : Expr} {t : Option TypedExpr} :
    predicate s (some e) = .ok t ↔ ∃ t', typePredicate s e = .ok t' ∧ some t' = t := by
  rw [predicate, lift_eq_ok, Outcome.map_eq_ok]

theorem columns_of_predicate {s : Schema} {e : Option Expr} {t : Option TypedExpr}
    (h : predicate s e = .ok t) : ∀ e ∈ t, ∀ c ∈ e.columns, c ∈ allColumns s := by
  cases e with
  | none =>
    cases h
    simp
  | some e =>
    obtain ⟨t', ht, rfl⟩ := predicate_some_eq_ok.mp h
    intro e' he
    cases he
    exact columns_of_typePredicate ht

theorem columns_of_projection {s : Schema} {p : Projection} {cs : List ColumnRef}
    (h : projection s p = .ok cs) : ∀ c ∈ cs, c ∈ allColumns s := by
  cases p with
  | all =>
    cases h
    exact fun c hc => hc
  | columns ids =>
    exact Outcome.forall_mem (Outcome.mapM_eq_ok.mp h) mem_of_resolve

theorem same_of_targetOf {column : ColumnRef} {a : Assignment} {d : Dialect} {target : Ty}
    (h : targetOf column a = .ok (d, target)) :
    target = column.ty ∨ target.same column.ty = true := by
  unfold targetOf at h
  split at h
  · cases h
    exact .inl rfl
  · split at h
    · next hsame =>
      cases h
      exact .inr hsame
    · cases h

theorem explicit_of_targetOf {column : ColumnRef} {a : Assignment} {d : Dialect} {target : Ty}
    (h : targetOf column a = .ok (d, target)) : d = .explicit ↔ a.declared.isSome = true := by
  unfold targetOf at h
  split at h
  · next hnone =>
    cases h
    simp [hnone]
  · next ty hty =>
    split at h
    · cases h
      simp [hty]
    · cases h

theorem declared_of_targetOf {column : ColumnRef} {a : Assignment} {d : Dialect} {target : Ty}
    (h : targetOf column a = .ok (d, target)) :
    ∀ ty ∈ a.declared, target = ty := by
  intro ty hty
  rw [targetOf, Option.mem_def.mp hty] at h
  dsimp only at h
  split at h
  · cases h
    rfl
  · cases h

/-- What an assignment's value is given its type from. -/
theorem of_assignedValue {s : Schema} {a : Assignment} {column : ColumnRef} {d : Dialect}
    {target : Ty} {value : Value} (h : assignedValue s a = .ok (column, d, target, value)) :
    resolve s a.column = .ok column ∧ targetOf column a = .ok (d, target) ∧
      ∃ l, a.value.fold = .ok l ∧ l.coerce target = .ok value := by
  unfold assignedValue at h
  obtain ⟨c, hc, h⟩ := Outcome.bind_eq_ok.mp h
  dsimp only at h
  split at h
  · next l hl =>
    rw [Outcome.pure_eq_ok, Outcome.ok_bind] at h
    obtain ⟨⟨dialect, ty⟩, htarget, h⟩ := Outcome.bind_eq_ok.mp h
    dsimp only at h
    split at h
    · next v hv =>
      cases h
      exact ⟨hc, htarget, l, hl, hv⟩
    · cases h
  · cases h

/-- What an assignment is to its source. -/
structure Assigned (s : Schema) (a : Assignment) (t : TypedAssignment) : Prop where
  column : ∃ c, resolve s a.column = .ok c ∧ t.column = c.name ∧
    (t.value.ty = c.ty ∨ t.value.ty.same c.ty = true)
  explicit : t.dialect = .explicit ↔ a.declared.isSome = true
  declared : ∀ ty ∈ a.declared, t.value.ty = ty
  value : ∃ l, a.value.fold = .ok l ∧ l.coerce t.value.ty = .ok t.value.value

theorem of_assignment {s : Schema} {v : Verifier} {a : Assignment} {t : TypedAssignment}
    (h : assignment s v a = .ok t) : Assigned s a t := by
  unfold assignment at h
  split at h
  · cases h
  · next column dialect target value hvalue =>
    split at h
    · next w hw =>
      cases h
      obtain ⟨hresolve, htarget, l, hl, hcoerce⟩ := of_assignedValue hvalue
      obtain ⟨rfl, rfl⟩ := TypedValue.make_eq_ok.mp (Verifier.make_of_check hw)
      exact ⟨⟨column, hresolve, rfl, same_of_targetOf htarget⟩, explicit_of_targetOf htarget,
        declared_of_targetOf htarget, l, hl, hcoerce⟩
    · cases h

theorem Assigned.constant {s : Schema} {a : Assignment} {t : TypedAssignment}
    (h : Assigned s a t) : a.value.columns = [] := by
  obtain ⟨l, hl, -⟩ := h.value
  exact Expr.columns_of_fold hl

theorem Assigned.mem {s : Schema} {a : Assignment} {t : TypedAssignment} (h : Assigned s a t) :
    ∃ c ∈ s.columns, t.column = c.name ∧
      (t.value.ty = c.ty ∨ t.value.ty.same c.ty = true) := by
  obtain ⟨column, hresolve, hname, htype⟩ := h.column
  obtain ⟨c, hc, rfl⟩ := List.mem_map.mp (mem_of_resolve hresolve)
  exact ⟨c, hc, hname, htype⟩

theorem Assigned.name {s : Schema} {a : Assignment} {t : TypedAssignment} (h : Assigned s a t) :
    t.column = a.column.name := by
  obtain ⟨column, hresolve, hname, -⟩ := h.column
  rw [hname, name_of_resolve hresolve]

theorem Assigned.category {s : Schema} {a : Assignment} {t : TypedAssignment}
    (h : Assigned s a t) :
    ∃ c, s.column? a.column.name = some c ∧ t.value.ty.category = c.ty.category := by
  obtain ⟨column, hresolve, -, htype⟩ := h.column
  obtain ⟨c, hc, rfl⟩ := resolve_eq_ok.mp hresolve
  refine ⟨c, hc, ?_⟩
  rcases htype with heq | hsame
  · rw [heq]
  · exact Ty.category_eq_of_same hsame

theorem assigned_of_assignments {s : Schema} {v : Verifier} {seen : List String}
    {as : List Assignment} {ts : List TypedAssignment} (h : assignments s v seen as = .ok ts) :
    List.Forall₂ (Assigned s) as ts := by
  induction as generalizing seen ts with
  | nil =>
    cases h
    exact .nil
  | cons a as ih =>
    unfold assignments at h
    split at h
    · cases h
    · obtain ⟨t, ht, h⟩ := Outcome.bind_eq_ok.mp h
      obtain ⟨rest, hrest, h⟩ := Outcome.bind_eq_ok.mp h
      cases h
      exact .cons (of_assignment ht) (ih hrest)

theorem columns_of_assignments {s : Schema} {v : Verifier} {seen : List String}
    {as : List Assignment} {ts : List TypedAssignment} (h : assignments s v seen as = .ok ts) :
    ∀ t ∈ ts, ∃ c ∈ s.columns, t.column = c.name ∧
      (t.value.ty = c.ty ∨ t.value.ty.same c.ty = true) := by
  exact Outcome.forall_mem (assigned_of_assignments h) Assigned.mem

/-- No column is assigned twice, nor one that was seen before. -/
theorem nodup_of_assignments {s : Schema} {v : Verifier} {seen : List String}
    {as : List Assignment} {ts : List TypedAssignment} (h : assignments s v seen as = .ok ts) :
    (ts.map (·.column)).Nodup ∧ ∀ t ∈ ts, t.column ∉ seen := by
  -- the names seen grow by the assignment's own, so none of the rest can repeat it
  induction as generalizing seen ts with
  | nil =>
    cases h
    simp
  | cons a as ih =>
    unfold assignments at h
    split at h
    · cases h
    · next hfresh =>
      obtain ⟨t, ht, h⟩ := Outcome.bind_eq_ok.mp h
      obtain ⟨rest, hrest, h⟩ := Outcome.bind_eq_ok.mp h
      cases h
      obtain ⟨hnodup, hunseen⟩ := ih hrest
      have hname := (of_assignment ht).name
      rw [List.contains_iff_mem] at hfresh
      constructor
      · rw [List.map_cons, List.nodup_cons]
        refine ⟨fun hmem => ?_, hnodup⟩
        obtain ⟨u, hu, heq⟩ := List.mem_map.mp hmem
        exact hunseen u hu (heq.trans hname ▸ List.mem_cons_self)
      · intro u hu
        rcases List.mem_cons.mp hu with rfl | hu
        · rwa [hname]
        · exact fun hmem => hunseen u hu (List.mem_cons_of_mem _ hmem)

/-- What the parts of a statement were checked to be, whatever its kind. -/
structure Checked (s : Schema) (v : Verifier) (st : Statement) (t : TypedStatement) : Prop where
  kind : t.kind = st.kind
  table : t.table = st.table.name ∧ t.table = s.name
  assignments : Checker.assignments s v [] st.assignments = .ok t.assignments
  condition : predicate s st.condition = .ok t.predicate
  projection : Checker.projection s st.projection = .ok t.projection
  orderBy : st.orderKeys.mapM (orderKey s) = .ok t.orderBy
  provenance : t.provenance = st.provenance.getD {}
  warnings : t.predicate.isSome = true → t.warnings = predicateWarnings t.predicate

theorem checked_of_check {s : Schema} {v : Verifier} {st : Statement} {t : TypedStatement}
    (h : check s v st = .ok t) : Checked s v st t := by
  unfold check at h
  split at h
  · cases h
  · next htable =>
    have htable : st.table.name = s.name := by simpa using htable
    cases st with
    | insert table as clause =>
      obtain ⟨as', has, h⟩ := Outcome.bind_eq_ok.mp h
      cases h
      exact ⟨rfl, ⟨rfl, htable⟩, has, rfl, rfl, rfl, rfl, fun _ => rfl⟩
    | update table as p clause =>
      obtain ⟨as', has, h⟩ := Outcome.bind_eq_ok.mp h
      obtain ⟨p', hp, h⟩ := Outcome.bind_eq_ok.mp h
      cases h
      exact ⟨rfl, ⟨rfl, htable⟩, has, hp, rfl, rfl, rfl, fun _ => rfl⟩
    | delete table p clause =>
      obtain ⟨p', hp, h⟩ := Outcome.bind_eq_ok.mp h
      cases h
      exact ⟨rfl, ⟨rfl, htable⟩, rfl, predicate_some_eq_ok.mpr ⟨p', lift_eq_ok.mp hp, rfl⟩, rfl,
        rfl, rfl, fun _ => rfl⟩
    | select table proj p keys limit =>
      obtain ⟨cs, hcs, h⟩ := Outcome.bind_eq_ok.mp h
      obtain ⟨p', hp, h⟩ := Outcome.bind_eq_ok.mp h
      obtain ⟨ks, hks, h⟩ := Outcome.bind_eq_ok.mp h
      cases h
      exact ⟨rfl, ⟨rfl, htable⟩, rfl, hp, lift_eq_ok.mp hcs, lift_eq_ok.mp hks, rfl,
        fun _ => rfl⟩
    | normalize table target clause =>
      cases h
      exact ⟨rfl, ⟨rfl, htable⟩, rfl, rfl, rfl, rfl, rfl, fun h => nomatch h⟩

/-- The warnings about a statement with a condition are those about the condition. -/
theorem Checked.condition_some {s : Schema} {v : Verifier} {st : Statement} {t : TypedStatement}
    {e : Expr} (h : Checked s v st t) (he : st.condition = some e) :
    ∃ p, typePredicate s e = .ok p ∧ t.predicate = some p ∧ t.warnings = p.warnings := by
  obtain ⟨p, hp, hpredicate⟩ := predicate_some_eq_ok.mp (he ▸ h.condition)
  refine ⟨p, hp, hpredicate.symm, ?_⟩
  rw [h.warnings (by rw [← hpredicate]; rfl), ← hpredicate]
  rfl

/-- A checked statement assigns no column twice, and a deletion has a condition. -/
theorem form_of_check {s : Schema} {v : Verifier} {st : Statement} {t : TypedStatement}
    (h : check s v st = .ok t) :
    (t.assignments.map (·.column)).Nodup ∧ (t.kind = .delete → t.predicate.isSome = true) := by
  have hst := checked_of_check h
  refine ⟨(nodup_of_assignments hst.assignments).1, fun hkind => ?_⟩
  rw [hst.kind] at hkind
  cases st with
  | delete table p clause =>
    obtain ⟨p', -, hp⟩ := predicate_some_eq_ok.mp hst.condition
    rw [← hp]
    rfl
  | _ => cases hkind

/-- A statement that passed the checks is about the columns of the schema. -/
theorem about_of_check {s : Schema} {v : Verifier} {st : Statement} {t : TypedStatement}
    (h : check s v st = .ok t) : About s t := by
  have hst := checked_of_check h
  exact ⟨columns_of_assignments hst.assignments, columns_of_projection hst.projection,
    columns_of_predicate hst.condition⟩

/-- The columns of a typed expression are those of its source, one by one. -/
theorem Elaborates.resolved {s : Schema} {e : Expr} {t : TypedExpr} (h : Elaborates s e t) :
    List.Forall₂ (fun id c => resolve s id = .ok c) e.columns t.columns := by
  induction h with
  | column h => exact .cons (resolve_eq_ok.mpr ⟨_, h, rfl⟩) .nil
  | constant hfold =>
    rw [Expr.columns_of_fold hfold]
    exact .nil
  | isNull _ _ _ ih => exact ih
  | not _ _ _ ih => exact ih
  | sign _ _ _ _ ih => exact ih
  | logical _ _ _ _ _ _ ihl ihr => exact List.rel_append ihl ihr
  | comparison _ _ _ _ _ _ ihl ihr => exact List.rel_append ihl ihr
  | concat _ _ _ _ _ ihl ihr => exact List.rel_append ihl ihr
  | arithmetic _ _ _ _ _ _ ihl ihr => exact List.rel_append ihl ihr

theorem resolved_of_typePredicate {s : Schema} {e : Expr} {t : TypedExpr}
    (h : typePredicate s e = .ok t) :
    List.Forall₂ (fun id c => resolve s id = .ok c) e.columns t.columns :=
  (elaborates_of_typePredicate h).1.resolved

/-- What a checked change takes over from its source. -/
structure Follows (s : Schema) (st : Statement) (t : TypedStatement) : Prop where
  kind : t.kind = st.kind
  assignments : List.Forall₂ (Assigned s) st.assignments t.assignments
  condition : List.Forall₂ (fun id c => resolve s id = .ok c)
    ((st.condition.map Expr.columns).getD []) ((t.predicate.map TypedExpr.columns).getD [])
  projection : t.projection = if st.kind = .delete then allColumns s else []

theorem resolved_of_predicate {s : Schema} {e : Option Expr} {t : Option TypedExpr}
    (h : predicate s e = .ok t) :
    List.Forall₂ (fun id c => resolve s id = .ok c) ((e.map Expr.columns).getD [])
      ((t.map TypedExpr.columns).getD []) := by
  cases e with
  | none =>
    cases h
    exact .nil
  | some e =>
    obtain ⟨t', ht, rfl⟩ := predicate_some_eq_ok.mp h
    exact resolved_of_typePredicate ht

theorem follows_of_check {s : Schema} {v : Verifier} {st : Statement} {t : TypedStatement}
    (h : check s v st = .ok t) (hkind : st.kind.isMutation = true) : Follows s st t := by
  have hst := checked_of_check h
  refine ⟨hst.kind, assigned_of_assignments hst.assignments, resolved_of_predicate hst.condition,
    ?_⟩
  have hprojection := hst.projection
  cases st with
  | select table proj p keys limit => cases hkind
  | _ => exact (Except.ok.inj hprojection).symm

end Checker
end Attest
