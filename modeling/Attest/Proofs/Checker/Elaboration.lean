import Attest.Checker
import Attest.Proofs.Outcome
import Mathlib.Tactic.SplitIfs

/-!
What the checker makes of an expression.

The rules say which typed expressions stand for an expression of the source.  Every part without
columns that can be computed becomes one constant, whose type the surroundings may have chosen; all
else keeps its form, and its operands have types that suit the operator.  Operators look at base
types alone.
-/

namespace Attest

namespace Ty

theorem base_base (ty : Ty) : ty.base.base = ty.base := by
  induction ty with
  | vector element size ih =>
    show vector element.base.base size = vector element.base size
    rw [ih]
  | _ => rfl

theorem isNumeric_base (ty : Ty) : ty.base.isNumeric = ty.isNumeric := by
  rw [isNumeric, isNumeric, base_base]

theorem isOrderable_base (ty : Ty) : ty.base.isOrderable = ty.isOrderable := by
  rw [isOrderable, isOrderable, base_base]

end Ty

namespace Literal

theorem base_of_widen {a b ty : Ty} (ha : a.base = a) (h : widen a b = some ty) :
    ty.base = ty := by
  unfold widen at h
  split at h
  · cases h
    exact ha
  · split at h <;> cases h <;> rfl

mutual

theorem base_of_infer : ∀ {l : Literal} {ty : Ty}, l.infer = .ok ty → ty.base = ty
  | .nat _, _, h => by cases h; rfl
  | .int _, _, h => by cases h; rfl
  | .float _, _, h => by cases h; rfl
  | .text _, _, h => by cases h; rfl
  | .bool _, _, h => by cases h; rfl
  | .null, _, h => by cases h
  | .record _, _, h => by cases h; rfl
  | .vector [], _, h => by cases h
  | .vector (first :: rest), _, h => by
    obtain ⟨element, hfirst, h⟩ := Outcome.bind_eq_ok.mp h
    obtain ⟨whole, hrest, h⟩ := Outcome.bind_eq_ok.mp h
    cases h
    show Ty.vector whole.base _ = _
    rw [base_of_inferRest (base_of_infer hfirst) hrest]

theorem base_of_inferRest : ∀ {rest : List Literal} {element ty : Ty},
    element.base = element → inferRest element rest = .ok ty → ty.base = ty
  | [], _, _, hbase, h => by
    cases h
    exact hbase
  | item :: rest, element, _, hbase, h => by
    obtain ⟨next, hnext, h⟩ := Outcome.bind_eq_ok.mp h
    split at h
    · next t ht => exact base_of_inferRest (base_of_widen hbase ht) h
    · cases h

end

end Literal

namespace Checker

variable {s : Schema}

/-- The typed expressions that stand for an expression over a schema. -/
inductive Elaborates (s : Schema) : Expr → TypedExpr → Prop where
  | column {id : Ident} {c : Column} (h : s.column? id.name = some c) :
      Elaborates s (.column id) (.column ⟨c.name, c.ty⟩)
  | constant {e : Expr} {l : Literal} {v : Value} {ty : Ty} (hfold : e.fold = .ok l)
      (hbase : ty.base = ty) (hv : l.coerce ty = .ok v) : Elaborates s e (.literal v ty)
  | isNull {e : Expr} {t : TypedExpr} (h : Elaborates s e t) (negated : Bool) (p : Position) :
      Elaborates s (.isNull e negated p) (.isNull t negated)
  | not {e : Expr} {t : TypedExpr} (h : Elaborates s e t) (hty : t.ty.base = .bool)
      (p : Position) : Elaborates s (.unary .not e p) (.unary .not t .bool)
  | sign {op : UnaryOp} {e : Expr} {t : TypedExpr} (hop : op ≠ .not) (h : Elaborates s e t)
      (hty : t.ty.isNumeric = true) (p : Position) :
      Elaborates s (.unary op e p)
        (.unary op t (if op = .neg ∧ t.ty.base = .nat then .int else t.ty.base))
  | logical {op : BinaryOp} {l r : Expr} {l' r' : TypedExpr} (hop : op.isLogical = true)
      (hl : Elaborates s l l') (hr : Elaborates s r r') (hlty : l'.ty.base = .bool)
      (hrty : r'.ty.base = .bool) (p : Position) :
      Elaborates s (.binary op l r p) (.binary op l' r' .bool)
  | comparison {op : BinaryOp} {l r : Expr} {l' r' : TypedExpr} (hop : op.isComparison = true)
      (hl : Elaborates s l l') (hr : Elaborates s r r') (hty : l'.ty.base = r'.ty.base)
      (horder : op.isOrdering = true → l'.ty.isOrderable = true) (p : Position) :
      Elaborates s (.binary op l r p) (.binary op l' r' .bool)
  | concat {l r : Expr} {l' r' : TypedExpr} (hl : Elaborates s l l') (hr : Elaborates s r r')
      (hlty : l'.ty.base = .string) (hrty : r'.ty.base = .string) (p : Position) :
      Elaborates s (.binary .concat l r p) (.binary .concat l' r' .string)
  | arithmetic {op : BinaryOp} {l r : Expr} {l' r' : TypedExpr} (hop : op.isArithmetic = true)
      (hl : Elaborates s l l') (hr : Elaborates s r r') (hty : l'.ty.base = r'.ty.base)
      (hnumeric : l'.ty.isNumeric = true) (p : Position) :
      Elaborates s (.binary op l r p) (.binary op l' r' l'.ty.base)

theorem resolve_eq_ok {id : Ident} {c : ColumnRef} :
    resolve s id = .ok c ↔ ∃ d, s.column? id.name = some d ∧ c = ⟨d.name, d.ty⟩ := by
  unfold resolve
  cases s.column? id.name <;> simp [eq_comm]

theorem elaborates_of_ownLiteral {e : Expr} {l : Literal} {p : Position} {t : TypedExpr}
    (hfold : e.fold = .ok l) (h : ownLiteral l p = .ok t) : Elaborates s e t := by
  unfold ownLiteral at h
  split at h
  · cases h
  · next ty hty =>
    split at h
    · next v hv =>
      cases h
      exact .constant hfold (Literal.base_of_infer hty) hv
    · cases h

/-- A literal has the type that its surroundings ask for, or else its own. -/
theorem elaborates_of_typeLiteral {e : Expr} {l : Literal} {p : Position} {hint : Option Ty}
    {t : TypedExpr} (hfold : e.fold = .ok l) (hhint : ∀ ty ∈ hint, ty.base = ty)
    (h : typeLiteral l p hint = .ok t) : Elaborates s e t := by
  unfold typeLiteral at h
  split at h
  · cases h
  · split at h
    · exact elaborates_of_ownLiteral hfold h
    · next target =>
      split at h
      · next v hv =>
        cases h
        exact .constant hfold (hhint target rfl) hv
      · cases h
      · exact elaborates_of_ownLiteral hfold h

theorem elaborates_of_typeConstant {e : Expr} {hint : Option Ty} {t : TypedExpr}
    (hhint : ∀ ty ∈ hint, ty.base = ty) (h : typeConstant e hint = .ok t) :
    Elaborates s e t := by
  unfold typeConstant at h
  split at h
  · next l hl => exact elaborates_of_typeLiteral hl hhint h
  · cases h

theorem requireBool_eq_ok {e : TypedExpr} {p : Position} {op : String} {u : Unit}
    (h : requireBool e p op = .ok u) : e.ty.base = .bool := by
  unfold requireBool at h
  split at h
  · next hbool => exact eq_of_beq hbool
  · cases h

theorem signedType?_eq_some {op : UnaryOp} {base ty : Ty} (h : signedType? op base = some ty) :
    base.isNumeric = true ∧ ty = if op = .neg ∧ base = .nat then .int else base := by
  cases base with
  | nat =>
    cases h
    cases op <;> exact ⟨rfl, rfl⟩
  | int =>
    cases h
    cases op <;> exact ⟨rfl, rfl⟩
  | float =>
    cases h
    cases op <;> exact ⟨rfl, rfl⟩
  | _ => cases h

/-- The rule that an operator on two operands of one base type falls under. -/
theorem elaborates_of_operation {op : BinaryOp} {l r : Expr} {l' r' t : TypedExpr} {p q : Position}
    (hop : op.isLogical = false) (hl : Elaborates s l l') (hr : Elaborates s r r')
    (h : operation op l' r' q = .ok t) : Elaborates s (.binary op l r p) t := by
  unfold operation at h
  split_ifs at h with hne
  have hbase : l'.ty.base = r'.ty.base := by simpa using hne
  obtain ⟨ty, hty, h⟩ := Outcome.bind_eq_ok.mp h
  cases h
  unfold operationType at hty
  split_ifs at hty with hcomparison hunordered hconcat hstring hnumeric
  · cases hty
    refine .comparison hcomparison hl hr hbase (fun hordering => ?_) p
    rw [← Ty.isOrderable_base]
    simpa [hordering] using hunordered
  · cases hty
    have hstring : l'.ty.base = .string := eq_of_beq hstring
    rw [eq_of_beq hconcat]
    exact .concat hl hr hstring (hbase ▸ hstring) p
  · cases hty
    have harithmetic : op.isArithmetic = true := by
      revert hop hcomparison hconcat
      cases op <;> decide
    rw [Ty.isNumeric_base] at hnumeric
    exact .arithmetic harithmetic hl hr hbase hnumeric p

/-- What the checker gives stands for its source. -/
theorem elaborates_of_typeExpr {e : Expr} {hint : Option Ty} {t : TypedExpr}
    (hhint : ∀ ty ∈ hint, ty.base = ty) (h : typeExpr s hint e = .ok t) : Elaborates s e t := by
  have hnone : ∀ ty ∈ (none : Option Ty), ty.base = ty := by simp
  have hbool : ∀ ty ∈ some Ty.bool, ty.base = ty := by
    intro ty hty
    cases hty
    rfl
  have hside : ∀ side : TypedExpr, ∀ ty ∈ some side.ty.base, ty.base = ty := by
    intro side ty hty
    cases hty
    exact Ty.base_base side.ty
  induction e generalizing hint t with
  | column id =>
    obtain ⟨c, hc, rfl⟩ := Outcome.map_eq_ok.mp h
    obtain ⟨d, hd, rfl⟩ := resolve_eq_ok.mp hc
    exact .column hd
  | literal v p => exact elaborates_of_typeLiteral rfl hhint h
  | isNull e negated p ih =>
    obtain ⟨t', ht, h⟩ := Outcome.bind_eq_ok.mp h
    cases h
    exact .isNull (ih hnone ht) negated p
  | unary op e p ih =>
    rw [typeExpr] at h
    split_ifs at h with hconstant hnot
    · exact elaborates_of_typeConstant hhint h
    · obtain ⟨t', ht, h⟩ := Outcome.bind_eq_ok.mp h
      obtain ⟨u, hrequired, h⟩ := Outcome.bind_eq_ok.mp h
      cases h
      rw [eq_of_beq hnot]
      exact .not (ih hbool ht) (requireBool_eq_ok hrequired) p
    · obtain ⟨t', ht, h⟩ := Outcome.bind_eq_ok.mp h
      split at h
      · next ty hty =>
        cases h
        obtain ⟨hnumeric, rfl⟩ := signedType?_eq_some hty
        rw [Ty.isNumeric_base] at hnumeric
        exact .sign (by simpa using hnot) (ih hnone ht) hnumeric p
      · cases h
  | binary op l r p ihl ihr =>
    rw [typeExpr] at h
    split_ifs at h with hconstant hlogical hflip
    · exact elaborates_of_typeConstant hhint h
    · obtain ⟨l', htl, h⟩ := Outcome.bind_eq_ok.mp h
      obtain ⟨r', htr, h⟩ := Outcome.bind_eq_ok.mp h
      obtain ⟨u, hlbool, h⟩ := Outcome.bind_eq_ok.mp h
      obtain ⟨u', hrbool, h⟩ := Outcome.bind_eq_ok.mp h
      cases h
      exact .logical hlogical (ihl hbool htl) (ihr hbool htr) (requireBool_eq_ok hlbool)
        (requireBool_eq_ok hrbool) p
    -- a constant on the left takes the type of the other side, which comes first then
    · obtain ⟨r', htr, h⟩ := Outcome.bind_eq_ok.mp h
      obtain ⟨l', htl, h⟩ := Outcome.bind_eq_ok.mp h
      exact elaborates_of_operation (by simpa using hlogical) (ihl (hside r') htl) (ihr hnone htr) h
    · obtain ⟨l', htl, h⟩ := Outcome.bind_eq_ok.mp h
      obtain ⟨r', htr, h⟩ := Outcome.bind_eq_ok.mp h
      exact elaborates_of_operation (by simpa using hlogical) (ihl hnone htl) (ihr (hside l') htr) h

theorem elaborates_of_typePredicate {e : Expr} {t : TypedExpr} (h : typePredicate s e = .ok t) :
    Elaborates s e t ∧ t.ty = .bool := by
  obtain ⟨t', ht, h⟩ := Outcome.bind_eq_ok.mp h
  split at h
  · next hbool =>
    cases h
    exact ⟨elaborates_of_typeExpr (by simp) ht, eq_of_beq hbool⟩
  · cases h

end Checker
end Attest
