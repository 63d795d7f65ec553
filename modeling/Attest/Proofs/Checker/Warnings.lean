import Attest.Node.Lowering
import Attest.Predicate.Eval
import Attest.Proofs.Checker
import Attest.Proofs.Interval
import Attest.Proofs.Ty.Same

/-!
The warning about a comparison that can never hold.

A column of numbers between bounds is compared with a constant, on either side of it.  The checker
intersects two intervals, that of the type and that of the comparison, and warns if their ends
exclude each other.  The ends of the type belong to it, so this is exact for whole numbers too, and
a condition that is warned of selects no row.
-/

namespace Attest

namespace Comparison

def op : Comparison → BinaryOp
  | eq => .eq
  | lt => .lt
  | le => .le
  | gt => .gt
  | ge => .ge

@[simp] theorem isLogical_op (c : Comparison) : c.op.isLogical = false := by
  cases c <;> rfl

@[simp] theorem isComparison_op (c : Comparison) : c.op.isComparison = true := by
  cases c <;> rfl

@[simp] theorem comparison?_op (c : Comparison) : TypedExpr.comparison? c.op = some c := by
  cases c <;> rfl

@[simp] theorem flip?_op (c : Comparison) : TypedExpr.flip? c.op = some c.converse.op := by
  cases c <;> rfl

/-- The side that is no constant is typed first, and the other with its type in view. -/
theorem typeExpr_op (c : Comparison) (s : Schema) (l r : Expr) (p : Position) :
    Checker.typeExpr s none (.binary c.op l r p) =
      if Checker.isLiteralLike l && !Checker.isLiteralLike r then
        Checker.typeExpr s none r >>= fun r =>
          Checker.typeExpr s (some r.ty.base) l >>= (Checker.operation c.op · r p)
      else
        Checker.typeExpr s none l >>= fun l =>
          Checker.typeExpr s (some l.ty.base) r >>= (Checker.operation c.op l · p) := by
  have hconstant : Checker.isConstant (.binary c.op l r p) = false := by
    cases c <;> rfl
  rw [Checker.typeExpr, hconstant]
  simp only [isLogical_op, Bool.false_eq_true, if_false]

theorem operation_op (c : Comparison) {l r : TypedExpr} (p : Position) (hl : l.ty.base = .nat)
    (hr : r.ty.base = .nat) : Checker.operation c.op l r p = .ok (.binary c.op l r .bool) := by
  rw [Checker.operation, hl, hr]
  cases c <;> rfl

theorem holds_toNat {c : Comparison} {x y : UInt64} :
    c.Holds x.toNat y.toNat ↔ c.Holds x y := by
  cases c with
  | eq => exact UInt64.toNat_inj
  | _ => exact Iff.rfl

theorem holds_op (c : Comparison) (x y : UInt64) :
    Value.holds c.op (compare x y) = true ↔ c.Holds x.toNat y.toNat := by
  show Value.holds c.op (compareOfLessAndEq x y) = true ↔ _
  rcases Nat.lt_trichotomy x.toNat y.toNat with hlt | heq | hgt
  · have horder : compareOfLessAndEq x y = .lt := if_pos (UInt64.lt_iff_toNat_lt.mpr hlt)
    rw [horder]
    cases c <;> simp [op, Value.holds, Holds] <;> omega
  · have horder : compareOfLessAndEq x y = .eq := by
      rw [UInt64.toNat_inj.mp heq]
      simp [compareOfLessAndEq]
    rw [horder, heq]
    cases c <;> simp [op, Value.holds, Holds]
  · have hlt : ¬ x < y := by
      rw [UInt64.lt_iff_toNat_lt]
      omega
    have hne : x ≠ y := by
      rintro rfl
      omega
    have horder : compareOfLessAndEq x y = .gt := by
      rw [compareOfLessAndEq, if_neg hlt, if_neg hne]
    rw [horder]
    cases c <;> simp [op, Value.holds, Holds] <;> omega

end Comparison

/-- The test for a contradiction is exact for whole numbers. -/
theorem TypedExpr.neverHolds_iff (c : Comparison) (lo hi v : UInt64) :
    neverHolds c (.boundedNat lo hi) (.nat v) = true ↔
      ¬ ∃ x : Nat, (lo.toNat ≤ x ∧ x ≤ hi.toNat) ∧ c.Holds x v.toNat := by
  have hword : (∃ x : UInt64, (lo ≤ x ∧ x ≤ hi) ∧ c.Holds x v) ↔
      ∃ x : Nat, (lo.toNat ≤ x ∧ x ≤ hi.toNat) ∧ c.Holds x v.toNat := by
    constructor
    · rintro ⟨x, hbounds, hx⟩
      exact ⟨x.toNat, hbounds, Comparison.holds_toNat.mpr hx⟩
    · rintro ⟨x, hbounds, hx⟩
      obtain ⟨x, rfl⟩ : ∃ y : UInt64, y.toNat = x :=
        ⟨.ofNat x, UInt64.toNat_ofNat_of_lt (Nat.lt_of_le_of_lt hbounds.2 hi.toNat_lt)⟩
      exact ⟨x, hbounds, Comparison.holds_toNat.mp hx⟩
  rw [← hword]
  exact Interval.isEmpty_intersect_ofComparison c lo hi v

/-- A comparison of a column with a natural number, as it stands in the source. -/
structure ColumnTest where
  column : Ident
  comparison : Comparison
  constant : UInt64
  /-- Whether the column stands on the left. -/
  columnFirst : Bool
  position : Position
  constantPosition : Position

namespace ColumnTest

variable (test : ColumnTest)

/-- A column and a constant in the order in which they stand. -/
def arrange {α β : Type} (f : α → α → β) (column constant : α) : β :=
  if test.columnFirst then f column constant else f constant column

def expr : Expr :=
  test.arrange (fun l r => .binary test.comparison.op l r test.position)
    (.column test.column) (.literal (.nat test.constant) test.constantPosition)

def typed (c : ColumnRef) : TypedExpr :=
  test.arrange (fun l r => .binary test.comparison.op l r .bool)
    (.column c) (.literal (.nat test.constant) .nat)

def predicate (c : ColumnRef) : Predicate :=
  test.arrange (.binary test.comparison.op) (.column c)
    (.literal ⟨.nat, .nat test.constant, rfl⟩)

/-- What the comparison says of a number in the column. -/
def Holds (x : Nat) : Prop := test.arrange test.comparison.Holds x test.constant.toNat

/-- The comparison with the column on the left. -/
def oriented : Comparison :=
  if test.columnFirst then test.comparison else test.comparison.converse

/-- What is said of the comparison if no number meets it. -/
def warning (c : ColumnRef) : String :=
  TypedExpr.neverHoldsText c test.oriented.op (.nat test.constant)

theorem holds_oriented {x : Nat} :
    test.oriented.Holds x test.constant.toNat ↔ test.Holds x := by
  unfold oriented Holds arrange
  split
  · rfl
  · exact Comparison.holds_converse

theorem typeExpr_expr {s : Schema} {c : Column} (hc : s.column? test.column.name = some c)
    (hbase : c.ty.base = .nat) :
    Checker.typeExpr s none test.expr = .ok (test.typed ⟨c.name, c.ty⟩) := by
  have hcolumn : Checker.typeExpr s none (.column test.column) = .ok (.column ⟨c.name, c.ty⟩) := by
    show TypedExpr.column <$> Checker.resolve s test.column = _
    rw [Checker.resolve_eq_ok.mpr ⟨c, hc, rfl⟩]
    rfl
  have hconstant : Checker.typeExpr s (some .nat)
      (.literal (.nat test.constant) test.constantPosition) =
        .ok (.literal (.nat test.constant) .nat) := rfl
  unfold expr typed arrange
  cases test.columnFirst with
  | true =>
    show Checker.typeExpr s none (.binary test.comparison.op _ _ _) = _
    rw [Comparison.typeExpr_op, if_neg (by exact Bool.false_ne_true), hcolumn, Outcome.ok_bind]
    show (Checker.typeExpr s (some c.ty.base) _ >>= _) = _
    rw [hbase, hconstant]
    exact test.comparison.operation_op _ hbase rfl
  | false =>
    show Checker.typeExpr s none (.binary test.comparison.op _ _ _) = _
    rw [Comparison.typeExpr_op, if_pos (by exact rfl), hcolumn, Outcome.ok_bind]
    show (Checker.typeExpr s (some c.ty.base) _ >>= _) = _
    rw [hbase, hconstant]
    exact test.comparison.operation_op _ rfl hbase

theorem typePredicate_expr {s : Schema} {c : Column} (hc : s.column? test.column.name = some c)
    (hbase : c.ty.base = .nat) :
    Checker.typePredicate s test.expr = .ok (test.typed ⟨c.name, c.ty⟩) := by
  rw [Checker.typePredicate, test.typeExpr_expr hc hbase]
  unfold typed arrange
  cases test.columnFirst <;> rfl

theorem ofTyped_typed (c : ColumnRef) :
    Predicate.ofTyped (test.typed c) = .ok (test.predicate c) := by
  unfold typed predicate arrange
  cases test.columnFirst <;> rfl

theorem warnings_typed (c : ColumnRef) :
    (test.typed c).warnings =
      if TypedExpr.neverHolds test.oriented c.ty (.nat test.constant) then [test.warning c]
      else [] := by
  have hwarnings : (test.typed c).warnings =
      (if TypedExpr.neverHolds test.oriented c.ty (.nat test.constant) then some (test.warning c)
        else none).toList := by
    unfold typed arrange warning oriented
    cases test.columnFirst with
    | true => simp [TypedExpr.warnings, TypedExpr.warning?, TypedExpr.columnTest?]
    | false => simp [TypedExpr.warnings, TypedExpr.warning?, TypedExpr.columnTest?]
  rw [hwarnings]
  split <;> rfl

theorem eval_predicate_none {c : ColumnRef} {r : Row} (h : r.get? c.name = none) :
    (test.predicate c).eval r = .ok none := by
  unfold predicate arrange
  cases test.columnFirst with
  | true => simp [Predicate.eval, h]
  | false => simp [Predicate.eval, h]

theorem eval_predicate_nat {c : ColumnRef} {r : Row} {x : UInt64}
    (h : r.get? c.name = some (.nat x)) :
    ∃ b, (test.predicate c).eval r = .ok (some (.bool b)) ∧ (b = true ↔ test.Holds x.toNat) := by
  unfold predicate Holds arrange
  cases test.columnFirst with
  | true =>
    refine ⟨_, ?_, test.comparison.holds_op x test.constant⟩
    simp [Predicate.eval, h, Value.applyBinary, Value.compare?]
  | false =>
    refine ⟨_, ?_, test.comparison.holds_op test.constant x⟩
    simp [Predicate.eval, h, Value.applyBinary, Value.compare?]

def IsMet (lo hi : UInt64) : Prop := ∃ x : Nat, (lo.toNat ≤ x ∧ x ≤ hi.toNat) ∧ test.Holds x

/-- The checker warns of a comparison with a number between bounds exactly if no such number meets
it, and then it is null or false on every row whose value is of its type. -/
theorem warnings_exact {s : Schema} {c : Column} {lo hi : UInt64}
    (hc : s.column? test.column.name = some c) (hty : c.ty = .boundedNat lo hi) :
    ∃ t p, Checker.typePredicate s test.expr = .ok t ∧ Predicate.ofTyped t = .ok p ∧
      (∀ v st u, st.condition = some test.expr → Checker.check s v st = .ok u →
        u.predicate = some t ∧ u.warnings = t.warnings) ∧
      (test.IsMet lo hi → t.warnings = []) ∧
      (¬ test.IsMet lo hi → t.warnings = [test.warning ⟨c.name, c.ty⟩] ∧
        ∀ r : Row, (∀ w ∈ r.get? c.name, (c.ty.decide w).isHolds = true) →
          p.eval r = .ok ((r.get? c.name).map fun _ => .bool false)) := by
  have hbase : c.ty.base = .nat := by rw [hty]; rfl
  have htyped := test.typePredicate_expr hc hbase
  have hnever : TypedExpr.neverHolds test.oriented c.ty (.nat test.constant) = true ↔
      ¬ test.IsMet lo hi := by
    rw [hty, TypedExpr.neverHolds_iff]
    simp only [holds_oriented, IsMet]
  refine ⟨_, _, htyped, test.ofTyped_typed _, ?_, ?_, ?_⟩
  · intro v st u hst hu
    obtain ⟨t, ht, hpredicate, hwarnings⟩ := (Checker.checked_of_check hu).condition_some hst
    rw [htyped] at ht
    cases ht
    exact ⟨hpredicate, hwarnings⟩
  · intro hmet
    rw [warnings_typed, if_neg (by rw [hnever]; exact not_not.mpr hmet)]
  · intro hnone
    refine ⟨by rw [warnings_typed, if_pos (hnever.mpr hnone)], ?_⟩
    intro r hfits
    cases hr : r.get? c.name with
    | none => exact test.eval_predicate_none hr
    | some w =>
      have hw := hfits w hr
      rw [hty] at hw
      obtain ⟨-, x, rfl, hlo, hhi⟩ := Ty.isHolds_boundedNat.mp hw
      obtain ⟨b, heval, hb⟩ := test.eval_predicate_nat (c := ⟨c.name, c.ty⟩) hr
      have hfalse : b = false := by
        rw [← Bool.not_eq_true, hb]
        exact fun hx => hnone ⟨x.toNat, ⟨UInt64.not_lt.mp hlo, UInt64.not_lt.mp hhi⟩, hx⟩
      rw [heval, hfalse]
      rfl

end ColumnTest

def Schema.counters : Schema where
  name := "counters"
  columns := [⟨"total", .boundedNat 1 0xFFFFFFFFFFFFFFFF, false, false⟩]
  valid := rfl

namespace ColumnTest

/-- `18446744073709551615 < total`. -/
def beyondAll : ColumnTest :=
  ⟨⟨"total", default⟩, .lt, 0xFFFFFFFFFFFFFFFF, false, default, default⟩

theorem not_isMet_beyondAll : ¬ beyondAll.IsMet 1 0xFFFFFFFFFFFFFFFF := by
  rintro ⟨x, ⟨-, hhi⟩, hholds⟩
  exact absurd hholds (Nat.not_lt.mpr hhi)

/-- No counter is beyond the greatest number, and the query says so with the column in front. -/
theorem warnings_beyondAll :
    ∃ u p, Checker.check .counters .interval
        (.select ⟨"counters", default⟩ .all (some beyondAll.expr) [] none) = .ok u ∧
      u.warnings = ["predicate 'total > 18446744073709551615' can never hold for " ++
        "BoundedNat(1, 18446744073709551615) column 'total'"] ∧
      Predicate.ofTyped <$> u.predicate = some (.ok p) ∧
      p.eval (ByName.ofList [("total", .nat 5)]) = .ok (some (.bool false)) := by
  obtain ⟨t, p, -, hp, hcheck, -, hwarn⟩ :=
    beyondAll.warnings_exact (s := .counters) (c := ⟨"total", .boundedNat 1 0xFFFFFFFFFFFFFFFF,
      false, false⟩) rfl rfl
  obtain ⟨hwarnings, heval⟩ := hwarn not_isMet_beyondAll
  obtain ⟨u, hu⟩ : ∃ u, Checker.check .counters .interval
      (.select ⟨"counters", default⟩ .all (some beyondAll.expr) [] none) = .ok u := ⟨_, rfl⟩
  obtain ⟨hpredicate, hsame⟩ := hcheck _ _ u rfl hu
  refine ⟨u, p, hu, ?_, by rw [hpredicate]; exact congrArg some hp, ?_⟩
  · rw [hsame, hwarnings]
    decide +kernel
  · refine heval _ fun w hw => ?_
    cases hw
    rfl

end ColumnTest

end Attest
