import Attest.Proofs.Checker.Elaboration

/-!
The types of expressions.

What it means for the types in an expression to be right is said by rules, one for each kind of
operator.  They speak of base types only: conditions on values do not matter to operators.
-/

namespace Attest

namespace TypedExpr

/-- The types in an expression over a schema are right. -/
inductive WellTyped (s : Schema) : TypedExpr → Prop where
  | column {c : ColumnRef} (h : c ∈ Checker.allColumns s) : WellTyped s (.column c)
  | literal (v : Value) (ty : Ty) : WellTyped s (.literal v ty)
  | isNull {e : TypedExpr} (h : WellTyped s e) (negated : Bool) : WellTyped s (.isNull e negated)
  | not {e : TypedExpr} (h : WellTyped s e) (hty : e.ty.base = .bool) :
      WellTyped s (.unary .not e .bool)
  | signed {op : UnaryOp} {e : TypedExpr} {ty : Ty} (hop : op ≠ .not) (h : WellTyped s e)
      (he : e.ty.isNumeric = true) (hty : ty.isNumeric = true) : WellTyped s (.unary op e ty)
  | logical {op : BinaryOp} {l r : TypedExpr} (hop : op.isLogical = true) (hl : WellTyped s l)
      (hr : WellTyped s r) (hlty : l.ty.base = .bool) (hrty : r.ty.base = .bool) :
      WellTyped s (.binary op l r .bool)
  | comparison {op : BinaryOp} {l r : TypedExpr} (hop : op.isComparison = true)
      (hl : WellTyped s l) (hr : WellTyped s r) (hty : l.ty.base = r.ty.base) :
      WellTyped s (.binary op l r .bool)
  | concat {l r : TypedExpr} (hl : WellTyped s l) (hr : WellTyped s r)
      (hlty : l.ty.base = .string) (hrty : r.ty.base = .string) :
      WellTyped s (.binary .concat l r .string)
  | arithmetic {op : BinaryOp} {l r : TypedExpr} {ty : Ty} (hop : op.isArithmetic = true)
      (hl : WellTyped s l) (hr : WellTyped s r) (hlty : l.ty.isNumeric = true)
      (hrty : r.ty.isNumeric = true) (hty : ty.isNumeric = true) :
      WellTyped s (.binary op l r ty)

theorem WellTyped.columns {s : Schema} {t : TypedExpr} (h : WellTyped s t) :
    ∀ c ∈ t.columns, c ∈ Checker.allColumns s := by
  have hboth : ∀ {l r : TypedExpr}, (∀ c ∈ l.columns, c ∈ Checker.allColumns s) →
      (∀ c ∈ r.columns, c ∈ Checker.allColumns s) →
        ∀ c ∈ l.columns ++ r.columns, c ∈ Checker.allColumns s := by
    intro l r hl hr c hc
    rcases List.mem_append.mp hc with hc | hc
    · exact hl c hc
    · exact hr c hc
  induction h with
  | column h =>
    intro c hc
    rwa [List.mem_singleton.mp hc]
  | literal v ty => exact nofun
  | isNull _ _ ih => exact ih
  | not _ _ ih => exact ih
  | signed _ _ _ _ ih => exact ih
  | logical _ _ _ _ _ ihl ihr => exact hboth ihl ihr
  | comparison _ _ _ _ ihl ihr => exact hboth ihl ihr
  | concat _ _ _ _ ihl ihr => exact hboth ihl ihr
  | arithmetic _ _ _ _ _ _ ihl ihr => exact hboth ihl ihr

end TypedExpr

namespace Checker

theorem mem_of_resolve {s : Schema} {id : Ident} {c : ColumnRef} (h : resolve s id = .ok c) :
    c ∈ allColumns s := by
  obtain ⟨d, hd, rfl⟩ := resolve_eq_ok.mp h
  exact List.mem_map.mpr ⟨d, List.mem_of_find?_eq_some hd, rfl⟩

theorem name_of_resolve {s : Schema} {id : Ident} {c : ColumnRef} (h : resolve s id = .ok c) :
    c.name = id.name := by
  obtain ⟨d, hd, rfl⟩ := resolve_eq_ok.mp h
  simpa using List.find?_some hd

theorem Elaborates.wellTyped {s : Schema} {e : Expr} {t : TypedExpr} (h : Elaborates s e t) :
    t.WellTyped s := by
  induction h with
  | column h => exact .column (mem_of_resolve (resolve_eq_ok.mpr ⟨_, h, rfl⟩))
  | constant => exact .literal _ _
  | isNull _ negated _ ih => exact .isNull ih negated
  | not _ hty _ ih => exact .not ih hty
  | sign hop _ hty _ ih =>
    refine .signed hop ih hty ?_
    split
    · rfl
    · rwa [Ty.isNumeric_base]
  | logical hop _ _ hlty hrty _ ihl ihr => exact .logical hop ihl ihr hlty hrty
  | comparison hop _ _ hty _ _ ihl ihr => exact .comparison hop ihl ihr hty
  | concat _ _ hlty hrty _ ihl ihr => exact .concat ihl ihr hlty hrty
  | arithmetic hop _ _ hty hnumeric _ ihl ihr =>
    have hnumeric' := (Ty.isNumeric_base _).trans hnumeric
    refine .arithmetic hop ihl ihr hnumeric ?_ hnumeric'
    rwa [hty, Ty.isNumeric_base] at hnumeric'

theorem wellTyped_of_typePredicate {s : Schema} {e : Expr} {t : TypedExpr}
    (h : typePredicate s e = .ok t) : t.WellTyped s ∧ t.ty = .bool :=
  (elaborates_of_typePredicate h).imp_left Elaborates.wellTyped

end Checker
end Attest
