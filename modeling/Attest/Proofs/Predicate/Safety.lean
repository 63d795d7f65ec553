import Attest.Node.Lowering
import Attest.Predicate.Eval
import Attest.Proofs.Checker.Typing
import Attest.Proofs.Value.Order

/-!
Evaluation of conditions that passed the checks.

On a row whose values are of the types of their columns, such a condition never meets a value of
the wrong kind.  Besides numbers that do not fit and divisions by zero, one thing goes wrong: a
comparison may come to values that have no order although they are of one type.
-/

namespace Attest

namespace Value

/-- Arithmetic gives a number, unless it does not fit or there is none. -/
inductive Computes : Except EvalError Value → Prop where
  | number {v : Value} (h : v.isNumber = true) : Computes (.ok v)
  | overflow : Computes (.error .overflow)
  | divisionByZero : Computes (.error .divisionByZero)

theorem computes_natural (n : Nat) : Computes (natural n) := by
  unfold natural
  split
  · exact .number rfl
  · exact .overflow

theorem computes_integer (i : Int) : Computes (integer i) := by
  unfold integer
  split
  · exact .number rfl
  · exact .overflow

theorem computes_applyUnary {op : UnaryOp} (hop : op ≠ .not) {v : Value}
    (hv : v.isNumber = true) : Computes (applyUnary op v) := by
  cases op with
  | not => exact absurd rfl hop
  | plus =>
    cases v with
    | nat n => exact .number rfl
    | int i => exact .number rfl
    | float x => exact .number rfl
    | _ => cases hv
  | neg =>
    cases v with
    | nat n =>
      rw [applyUnary]
      split
      · exact computes_integer _
      · exact .overflow
    | int i => exact computes_integer _
    | float x => exact .number rfl
    | _ => cases hv

theorem computes_power (a b : Nat) : Computes (power a b) := by
  unfold power
  split
  · exact .overflow
  · split
    · exact computes_natural _
    · split
      · exact .overflow
      · exact computes_natural _

theorem computes_applyNats {op : BinaryOp} (hop : op.isArithmetic = true) (a b : Nat) :
    Computes (applyNats op a b) := by
  cases op with
  | add => exact computes_natural _
  | sub =>
    rw [applyNats]
    split
    · exact computes_natural _
    · exact computes_integer _
  | mul => exact computes_natural _
  | div =>
    rw [applyNats]
    split
    · exact .divisionByZero
    · exact computes_natural _
  | mod =>
    rw [applyNats]
    split
    · exact .divisionByZero
    · exact computes_natural _
  | pow => exact computes_power a b
  | _ => cases hop

theorem computes_applyFloats {op : BinaryOp} (hop : op.isArithmetic = true) (a b : Double) :
    Computes (applyFloats op a b) := by
  cases op with
  | div =>
    rw [applyFloats]
    split
    · exact .divisionByZero
    · exact .number rfl
  | add => exact .number rfl
  | sub => exact .number rfl
  | mul => exact .number rfl
  | mod => exact .number rfl
  | pow => exact .number rfl
  | _ => cases hop

/-- Two natural numbers are computed with as such, and all else as floats. -/
theorem computes_applyBinary {op : BinaryOp} (hop : op.isArithmetic = true) {a b : Value}
    (ha : a.isNumber = true) (hb : b.isNumber = true) : Computes (applyBinary op a b) := by
  have hcomparison : op.isComparison = false := by
    revert hop
    cases op <;> decide
  obtain ⟨x, hx, -⟩ := toDouble?_of_isNumber ha
  obtain ⟨y, hy, -⟩ := toDouble?_of_isNumber hb
  unfold applyBinary
  rw [if_neg (by simp [hcomparison])]
  split
  · cases ha
  · exact computes_applyNats hop _ _
  · rw [hx, hy]
    exact computes_applyFloats hop x y

end Value

namespace Predicate

/-- Evaluation on a row comes to a comparison of two values that have no order. -/
inductive Clashes (r : Row) : Predicate → Value → Value → Prop where
  | here {op : BinaryOp} {p q : Predicate} {a b : Value} (hop : op.isComparison = true)
      (hp : p.eval r = .ok (some a)) (hq : q.eval r = .ok (some b)) (h : a.Clash b) :
      Clashes r (.binary op p q) a b
  | isNull {p : Predicate} {a b : Value} (h : Clashes r p a b) (negated : Bool) :
      Clashes r (.isNull p negated) a b
  | unary (op : UnaryOp) {p : Predicate} {a b : Value} (h : Clashes r p a b) :
      Clashes r (.unary op p) a b
  | left (op : BinaryOp) {p : Predicate} (q : Predicate) {a b : Value} (h : Clashes r p a b) :
      Clashes r (.binary op p q) a b
  | right {op : BinaryOp} {p q : Predicate} {v : Option Value} {a b : Value}
      (hop : op.isLogical = false) (hp : p.eval r = .ok v) (h : Clashes r q a b) :
      Clashes r (.binary op p q) a b
  | undecided {op : BinaryOp} {p q : Predicate} {v : Option Value} {t : Option Bool} {a b : Value}
      (hop : op.isLogical = true) (hp : p.eval r = .ok v) (hv : Value.truth v = .ok t)
      (ht : Value.decides op t = false) (h : Clashes r q a b) : Clashes r (.binary op p q) a b

theorem isLogical_of_isComparison {op : BinaryOp} (h : op.isComparison = true) :
    op.isLogical = false := by
  revert h
  cases op <;> decide

theorem Clashes.eval_eq {r : Row} {p : Predicate} {a b : Value} (h : Clashes r p a b) :
    p.eval r = .error (.compare a.kindName b.kindName) := by
  induction h with
  | here hop hp hq h =>
    simp [eval, isLogical_of_isComparison hop, hp, hq, Value.applyBinary, hop,
      h.compare?_eq_none]
  | isNull _ negated ih => simp [eval, ih]
  | unary op _ ih => simp [eval, ih]
  | left op q _ ih => cases hop : op.isLogical <;> simp [eval, hop, ih]
  | right hop hp _ ih => simp [eval, hop, hp, ih]
  | undecided hop hp hv ht _ ih => simp [eval, hop, hp, hv, ht, ih]

/-- How the evaluation of a condition of a type may end. -/
inductive Ends (r : Row) (p : Predicate) (ty : Ty) : Except EvalError (Option Value) → Prop where
  | null : Ends r p ty (.ok none)
  | value {v : Value} (h : ty.base.Admits v) : Ends r p ty (.ok (some v))
  | overflow : Ends r p ty (.error .overflow)
  | divisionByZero : Ends r p ty (.error .divisionByZero)
  | clash {a b : Value} (h : Clashes r p a b) :
      Ends r p ty (.error (.compare a.kindName b.kindName))

theorem ends_of_computes {r : Row} {p : Predicate} {ty : Ty} {x : Except EvalError Value}
    (h : Value.Computes x) (hty : ty.isNumeric = true) : Ends r p ty (some <$> x) := by
  cases h with
  | number hv => exact .value (.number (by rwa [Ty.isNumeric_base]) hv)
  | overflow => exact .overflow
  | divisionByZero => exact .divisionByZero

/-- An error stops the evaluation of whatever comes to it. -/
theorem Ends.passes {r : Row} {p q : Predicate} {ty ty' : Ty} {e : EvalError}
    (h : Ends r p ty (.error e)) (hclash : ∀ {a b}, Clashes r p a b → Clashes r q a b) :
    Ends r q ty' (.error e) := by
  cases h with
  | overflow => exact .overflow
  | divisionByZero => exact .divisionByZero
  | clash h => exact .clash (hclash h)

theorem Ends.admits {r : Row} {p : Predicate} {ty : Ty} {v : Value}
    (h : Ends r p ty (.ok (some v))) : ty.base.Admits v := by
  cases h with
  | value hv => exact hv

theorem Ends.truth {r : Row} {p : Predicate} {ty : Ty} {v : Option Value}
    (h : Ends r p ty (.ok v)) (hty : ty.base = .bool) : ∃ t, Value.truth v = .ok t := by
  cases h with
  | null => exact ⟨none, rfl⟩
  | value hv =>
    rw [hty] at hv
    cases hv with
    | number hnumeric => cases hnumeric
    | bool b => exact ⟨some b, rfl⟩

theorem ends_unary {r : Row} {op : UnaryOp} {p : Predicate} {ty ty' : Ty}
    (hp : Ends r p ty (p.eval r))
    (h : ∀ v, ty.base.Admits v → Ends r (.unary op p) ty' (some <$> Value.applyUnary op v)) :
    Ends r (.unary op p) ty' ((unary op p).eval r) := by
  rw [eval]
  generalize p.eval r = x at hp
  cases x with
  | error e => exact hp.passes (.unary op)
  | ok v =>
    cases v with
    | none => exact .null
    | some v => exact h v hp.admits

/-- Both operands are evaluated before an operator is applied. -/
theorem ends_binary {r : Row} {op : BinaryOp} {p q : Predicate} {tl tr ty : Ty}
    (hop : op.isLogical = false) (hp : Ends r p tl (p.eval r)) (hq : Ends r q tr (q.eval r))
    (h : ∀ a b, p.eval r = .ok (some a) → q.eval r = .ok (some b) → tl.base.Admits a →
      tr.base.Admits b → Ends r (.binary op p q) ty (some <$> Value.applyBinary op a b)) :
    Ends r (.binary op p q) ty ((binary op p q).eval r) := by
  rw [eval, if_neg (by simp [hop])]
  generalize hx : p.eval r = x at hp
  generalize hy : q.eval r = y at hq
  cases x with
  | error e => exact hp.passes (.left op q)
  | ok a =>
    cases y with
    | error e => exact hq.passes (.right hop hx)
    | ok b =>
      cases a with
      | none => exact .null
      | some a =>
        cases b with
        | none => exact .null
        | some b => exact h a b hx hy hp.admits hq.admits

/-- The right side of a logical operator is looked at only if the left one does not decide. -/
theorem ends_logical {r : Row} {op : BinaryOp} {p q : Predicate} {tl tr : Ty}
    (hop : op.isLogical = true) (hp : Ends r p tl (p.eval r)) (hq : Ends r q tr (q.eval r))
    (htl : tl.base = .bool) (htr : tr.base = .bool) :
    Ends r (.binary op p q) .bool ((binary op p q).eval r) := by
  rw [eval, if_pos hop]
  generalize hx : p.eval r = x at hp
  cases x with
  | error e => exact hp.passes (.left op q)
  | ok v =>
    obtain ⟨t, ht⟩ := hp.truth htl
    rw [Outcome.ok_bind, ht, Outcome.ok_bind]
    by_cases hdecides : Value.decides op t = true
    · rw [if_pos hdecides]
      exact .value (.bool _)
    · rw [if_neg hdecides]
      generalize q.eval r = y at hq
      cases y with
      | error e => exact hq.passes (.undecided hop hx ht (by simpa using hdecides))
      | ok w =>
        obtain ⟨u, hu⟩ := hq.truth htr
        rw [Outcome.ok_bind, hu, Outcome.ok_bind]
        unfold Value.applyLogical
        split
        · exact .value (.bool _)
        · split
          · exact .value (.bool _)
          · exact .null

end Predicate

/-- The values of a row are of the types of their columns.  Columns may be missing. -/
def Schema.Fits (s : Schema) (r : Row) : Prop :=
  ∀ c ∈ s.columns, ∀ v, r.get? c.name = some v → (c.ty.decide v).isHolds = true

namespace Predicate

/-- Expressions with the right types do not go wrong, clashes apart. -/
theorem ends_of_wellTyped {s : Schema} {t : TypedExpr} (ht : t.WellTyped s) {p : Predicate}
    (hp : ofTyped t = .ok p) {r : Row} (hr : s.Fits r) : Ends r p t.ty (p.eval r) := by
  -- by the rules: the bases of the operands' types leave the operator values of the right form
  induction ht generalizing p with
  | @column c hc =>
    cases hp
    rw [eval]
    cases hv : r.get? c.name with
    | none => exact .null
    | some v =>
      obtain ⟨d, hd, rfl⟩ := List.mem_map.mp hc
      exact .value (Ty.admits_of_shaped (Ty.shaped_of_isHolds (hr d hd v hv)))
  | literal v ty =>
    obtain ⟨w, hw, rfl⟩ := Outcome.map_eq_ok.mp hp
    obtain ⟨rfl, rfl⟩ := TypedValue.make_eq_ok.mp hw
    exact .value (Ty.admits_of_shaped (Ty.shaped_of_isHolds w.fits))
  | isNull _ negated ih =>
    obtain ⟨q, hq, rfl⟩ := Outcome.map_eq_ok.mp hp
    have hends := ih hq
    rw [eval]
    generalize q.eval r = x at hends
    cases x with
    | error e => exact hends.passes (.isNull · negated)
    | ok v => exact .value (.bool _)
  | not _ hty ih =>
    obtain ⟨q, hq, rfl⟩ := Outcome.map_eq_ok.mp hp
    refine ends_unary (ih hq) fun v hv => ?_
    rw [hty] at hv
    cases hv with
    | number hnumeric => cases hnumeric
    | bool b => exact .value (.bool _)
  | signed hop _ he hty ih =>
    obtain ⟨q, hq, rfl⟩ := Outcome.map_eq_ok.mp hp
    refine ends_unary (ih hq) fun v hv => ?_
    have hnumber := hv.isNumber (by rwa [Ty.isNumeric_base])
    exact ends_of_computes (Value.computes_applyUnary hop hnumber) hty
  | logical hop _ _ hlty hrty ihl ihr =>
    obtain ⟨q, hq, hp⟩ := Outcome.bind_eq_ok.mp hp
    obtain ⟨q', hq', hp⟩ := Outcome.bind_eq_ok.mp hp
    cases hp
    exact ends_logical hop (ihl hq) (ihr hq') hlty hrty
  | comparison hop _ _ hty ihl ihr =>
    obtain ⟨q, hq, hp⟩ := Outcome.bind_eq_ok.mp hp
    obtain ⟨q', hq', hp⟩ := Outcome.bind_eq_ok.mp hp
    cases hp
    refine ends_binary (isLogical_of_isComparison hop) (ihl hq) (ihr hq') ?_
    intro a b hleft hright ha hb
    -- one base type for both sides is all that the rule for comparisons gives
    rw [hty] at ha
    unfold Value.applyBinary
    rw [if_pos hop]
    split
    · exact .value (.bool _)
    · next hnone =>
      exact .clash (.here hop hleft hright ((Ty.compare?_eq_none_iff ha hb).mp hnone))
  | concat _ _ hlty hrty ihl ihr =>
    obtain ⟨q, hq, hp⟩ := Outcome.bind_eq_ok.mp hp
    obtain ⟨q', hq', hp⟩ := Outcome.bind_eq_ok.mp hp
    cases hp
    refine ends_binary rfl (ihl hq) (ihr hq') fun a b _ _ ha hb => ?_
    rw [hlty] at ha
    rw [hrty] at hb
    cases ha with
    | number hnumeric => cases hnumeric
    | string x =>
      cases hb with
      | number hnumeric => cases hnumeric
      | string y => exact .value (.string _)
  | @arithmetic op l m ty hop _ _ hlty hrty hty ihl ihr =>
    obtain ⟨q, hq, hp⟩ := Outcome.bind_eq_ok.mp hp
    obtain ⟨q', hq', hp⟩ := Outcome.bind_eq_ok.mp hp
    cases hp
    have hlogical : op.isLogical = false := by
      revert hop
      cases op <;> decide
    refine ends_binary hlogical (ihl hq) (ihr hq') fun a b _ _ ha hb => ?_
    rw [← Ty.isNumeric_base] at hlty hrty
    have hcomputes := Value.computes_applyBinary hop (ha.isNumber hlty) (hb.isNumber hrty)
    exact ends_of_computes hcomputes hty

/-- On a row that fits its table, a condition that passed the checks is null or a truth value, or
fails for a number that does not fit or a division by zero, exactly if evaluation comes to no
values without an order.  If it does, it fails there. -/
theorem checked_eval_iff {s : Schema} {e : Expr} {t : TypedExpr} {p : Predicate} {r : Row}
    (ht : Checker.typePredicate s e = .ok t) (hp : ofTyped t = .ok p) (hr : s.Fits r) :
    ((p.eval r = .ok none ∨ (∃ b, p.eval r = .ok (some (.bool b))) ∨
        p.eval r = .error .overflow ∨ p.eval r = .error .divisionByZero) ↔
      ∀ a b, ¬ p.Clashes r a b) ∧
    ∀ a b, p.Clashes r a b → p.eval r = .error (.compare a.kindName b.kindName) := by
  refine ⟨⟨fun h a b hclash => ?_, fun h => ?_⟩, fun a b => Clashes.eval_eq⟩
  · rw [hclash.eval_eq] at h
    simp at h
  · obtain ⟨htyped, hbool⟩ := Checker.wellTyped_of_typePredicate ht
    have hends := ends_of_wellTyped htyped hp hr
    rw [hbool] at hends
    generalize p.eval r = x at hends
    cases hends with
    | null => exact .inl rfl
    | value hv =>
      cases hv with
      | number hnumeric => cases hnumeric
      | bool b => exact .inr (.inl ⟨b, rfl⟩)
    | overflow => exact .inr (.inr (.inl rfl))
    | divisionByZero => exact .inr (.inr (.inr rfl))
    | clash hclash => exact absurd hclash (h _ _)

end Predicate

def Schema.reviews : Schema :=
  { name := "reviews", columns := [⟨"marks", .promptScores, false, false⟩], valid := rfl }

def Scores.uniform (n : UInt64) : Scores := ⟨n, n, n, n, n⟩

/-- `marks = {structure: 1, context: 1, evidence: 1, reasoning: 1, clarity: 1}` -/
def Expr.asksMarks : Expr :=
  .binary .eq (.column ⟨"marks", default⟩)
    (.literal (.record (Scores.names.map fun n => (n, .nat 1))) default) default

def TypedExpr.asksMarks : TypedExpr :=
  .binary .eq (.column ⟨"marks", .promptScores⟩) (.literal (.scores (.uniform 1)) .promptScores)
    .bool

def Predicate.asksMarks : Predicate :=
  .binary .eq (.column ⟨"marks", .promptScores⟩)
    (.literal ⟨.promptScores, .scores (.uniform 1), rfl⟩)

namespace Predicate

theorem asksMarks_checked :
    asksMarks.eval [("marks", .scores (.uniform 1))] = .ok (some (.bool true)) ∧
      (∀ a b, ¬ asksMarks.Clashes [("marks", .scores (.uniform 1))] a b) ∧
      asksMarks.eval [("marks", .scores (.uniform 2))] =
        .error (.compare "prompt scores" "prompt scores") := by
  have hfits : ∀ n : UInt64, (Ty.promptScores.decide (.scores (.uniform n))).isHolds = true →
      Schema.reviews.Fits [("marks", .scores (.uniform n))] := by
    intro n hn c hc v hv
    rw [List.mem_singleton.mp hc] at hv ⊢
    cases hv
    exact hn
  have hchecked : Checker.typePredicate .reviews .asksMarks = .ok .asksMarks := rfl
  have hlowered : ofTyped .asksMarks = .ok asksMarks := rfl
  have htrue : asksMarks.eval [("marks", .scores (.uniform 1))] = .ok (some (.bool true)) := rfl
  refine ⟨htrue, ?_, ?_⟩
  · exact (checked_eval_iff hchecked hlowered (hfits 1 rfl)).1.mp (.inr (.inl ⟨true, htrue⟩))
  · exact (checked_eval_iff hchecked hlowered (hfits 2 rfl)).2 _ _
      (.here rfl rfl rfl (.scores (by decide)))

end Predicate
end Attest
