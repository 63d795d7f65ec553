import Attest.Proofs.Expr.Fold
import Attest.Proofs.Value.Order

/-!
Divisors that are zero.

Four computations divide: folding and evaluation, each of them exactly and with floats.  The exact
ones refuse a zero divisor in quotients and in remainders.  Those with floats refuse it in quotients
only; a remainder by zero is computed, and is no number.  Which computation it is depends on the
forms of both operands, so a zero of any form is refused in quotients, and in remainders only
beside another operand of the exact form.
-/

namespace Attest

namespace Double

theorem magnitude_le_quiet (x : Double) : x.magnitude ≤ x.quiet.magnitude := by
  show x.bits.toNat % 2 ^ 63 ≤ (x.bits ||| 0x0008000000000000).toNat % 2 ^ 63
  rw [UInt64.toNat_or, Nat.or_mod_two_pow]
  exact Nat.left_le_or

theorem isNaN_quiet {x : Double} (h : x.isNaN = true) : x.quiet.isNaN = true := by
  have hle := magnitude_le_quiet x
  simp only [isNaN, decide_eq_true_eq] at h ⊢
  omega

theorem isNaN_nanOf (x y : Double) : (nanOf x y).isNaN = true := by
  rw [nanOf]
  by_cases hx : x.isNaN = true
  · rw [if_pos hx]
    exact isNaN_quiet hx
  · by_cases hy : y.isNaN = true
    · rw [if_neg hx, if_pos hy]
      exact isNaN_quiet hy
    · rw [if_neg hx, if_neg hy]
      decide

/-- A remainder by zero is no number. -/
theorem isNaN_rem {x y : Double} (hy : y.isZero = true) : (x.rem y).isNaN = true := by
  rw [rem, if_pos (by rw [hy, Bool.or_true])]
  exact isNaN_nanOf x y

end Double

def BinaryOp.hasDivisor : BinaryOp → Bool
  | div => true
  | mod => true
  | _ => false

theorem BinaryOp.of_hasDivisor {op : BinaryOp} (h : op.hasDivisor = true) :
    op.isArithmetic = true ∧ op.isLogical = false := by
  cases op with
  | div | mod => exact ⟨rfl, rfl⟩
  | _ => cases h

namespace Number

def isExact : Number → Bool
  | exact _ => true
  | float _ => false

/-- Zero, which a float is with either sign. -/
def isZero : Number → Bool
  | exact i => i == 0
  | float x => x.isZero

theorem isZero_toDouble {x : Number} (h : x.isZero = true) : x.toDouble.isZero = true := by
  cases x with
  | float x => exact h
  | exact i =>
    have hi : i = 0 := eq_of_beq h
    rw [hi]
    decide

theorem floating_zero {op : BinaryOp} (hop : op.hasDivisor = true) {a b : Double}
    (hb : b.isZero = true) :
    floating op a b = if op = .div then .error .divisionByZero else .ok (.float (a.rem b)) := by
  cases op with
  | div => rw [floating, if_pos hb, if_pos rfl]
  | mod => rw [if_neg (by decide)]; rfl
  | _ => cases hop

theorem exactly_zero {op : BinaryOp} (hop : op.hasDivisor = true) (a : Int) :
    exactly op a 0 = .error .divisionByZero := by
  cases op with
  | div => rfl
  | mod => rfl
  | _ => cases hop

/-- What folding answers to a divisor that is zero. -/
theorem apply_zero {op : BinaryOp} (hop : op.hasDivisor = true) (x : Number) {y : Number}
    (hy : y.isZero = true) :
    apply op x y = if op = .div ∨ (x.isExact && y.isExact) = true then .error .divisionByZero
      else .ok (.float (x.toDouble.rem y.toDouble)) := by
  have hfloating := floating_zero hop (a := x.toDouble) (isZero_toDouble hy)
  cases x with
  | float x =>
    show floating op (float x).toDouble y.toDouble = _
    rw [hfloating]
    simp [isExact]
  | exact i =>
    cases y with
    | float y =>
      show floating op (exact i).toDouble (float y).toDouble = _
      rw [hfloating]
      simp [isExact]
    | exact j =>
      have hj : j = 0 := eq_of_beq hy
      rw [hj, if_pos (.inr rfl)]
      exact exactly_zero hop i

end Number

namespace Value

def isNat : Value → Bool
  | nat _ => true
  | _ => false

/-- Zero, in any of the three forms of a number. -/
def isZero : Value → Bool
  | nat n => n == 0
  | int i => i == 0
  | float x => x.isZero
  | _ => false

theorem toDouble?_of_isZero {v : Value} (h : v.isZero = true) :
    ∃ x, v.toDouble? = some x ∧ x.isZero = true := by
  cases v with
  | nat n =>
    have hn : n = 0 := eq_of_beq h
    exact ⟨Double.ofNat n.toNat, rfl, by rw [hn]; decide⟩
  | int i =>
    have hi : i = 0 := eq_of_beq h
    exact ⟨Double.ofInt i.toInt, rfl, by rw [hi]; decide⟩
  | float x => exact ⟨x, rfl, h⟩
  | _ => cases h

theorem applyFloats_zero {op : BinaryOp} (hop : op.hasDivisor = true) {a b : Double}
    (hb : b.isZero = true) :
    applyFloats op a b = if op = .div then .error .divisionByZero else .ok (.float (a.rem b)) := by
  cases op with
  | div => rw [applyFloats, if_pos hb, if_pos rfl]
  | mod => rw [if_neg (by decide)]; rfl
  | _ => cases hop

theorem applyNats_zero {op : BinaryOp} (hop : op.hasDivisor = true) (a : Nat) :
    applyNats op a 0 = .error .divisionByZero := by
  cases op with
  | div => rfl
  | mod => rfl
  | _ => cases hop

theorem applyBinary_floats {op : BinaryOp} (hop : op.isArithmetic = true) {a b : Value}
    {x y : Double} (hform : (a.isNat && b.isNat) = false) (hx : a.toDouble? = some x)
    (hy : b.toDouble? = some y) : applyBinary op a b = applyFloats op x y := by
  obtain ⟨-, hcomparison, -⟩ := BinaryOp.of_isArithmetic hop
  unfold applyBinary
  rw [hcomparison, if_neg (by decide)]
  split
  · cases hop
  · cases hform
  · rw [hx, hy]

/-- What evaluation answers to a divisor that is zero. -/
theorem applyBinary_zero {op : BinaryOp} (hop : op.hasDivisor = true) {a b : Value} {x y : Double}
    (hx : a.toDouble? = some x) (hb : b.isZero = true) (hy : b.toDouble? = some y)
    (hzero : y.isZero = true) :
    applyBinary op a b = if op = .div ∨ (a.isNat && b.isNat) = true then .error .divisionByZero
      else .ok (.float (x.rem y)) := by
  have harithmetic := (BinaryOp.of_hasDivisor hop).1
  by_cases hform : (a.isNat && b.isNat) = true
  · rw [if_pos (.inr hform)]
    cases a with
    | nat m =>
      cases b with
      | nat n =>
        have hn : n = 0 := eq_of_beq hb
        rw [applyBinary_nats harithmetic, hn]
        exact applyNats_zero hop m.toNat
      | _ => cases hform
    | _ => cases hform
  · rw [Bool.not_eq_true] at hform
    rw [applyBinary_floats harithmetic hform hx hy, applyFloats_zero hop hzero]
    simp [hform]

end Value

namespace Expr

theorem fold_binary {op : BinaryOp} (hop : op.isArithmetic = true) {l r : Expr} (p : Position)
    {a b : Literal} {x y : Number} (hl : l.fold = .ok a) (hr : r.fold = .ok b)
    (hx : Number.ofLiteral? a = some x) (hy : Number.ofLiteral? b = some y) :
    (binary op l r p).fold = Number.apply op x y >>= Number.toLiteral := by
  obtain ⟨-, -, hconcat⟩ := BinaryOp.of_isArithmetic hop
  rw [fold, hop, Bool.or_true, if_pos rfl, hl, hr]
  show foldBinary op a b = _
  unfold foldBinary
  rw [hconcat, if_neg (by decide), hx, hy]

end Expr

theorem Predicate.eval_binary {op : BinaryOp} (hop : op.isLogical = false) {p q : Predicate}
    {row : Row} {a b : Value} (hp : p.eval row = .ok (some a)) (hq : q.eval row = .ok (some b)) :
    (binary op p q).eval row = some <$> Value.applyBinary op a b := by
  rw [eval, hop, if_neg (by decide), hp, hq]
  rfl

/-- A computation that fails under a condition reports the fault exactly then. -/
theorem Outcome.reports_iff {ε α : Type} {c : Prop} [Decidable c] {x : Except ε α} {e : ε} {a : α}
    (text : ε → String) (h : x = if c then .error e else .ok a) :
    (x.mapError text = .error (text e) ↔ c) ∧ (¬ c → x = .ok a) := by
  by_cases hc : c
  · rw [h, if_pos hc]
    exact ⟨⟨fun _ => hc, fun _ => rfl⟩, fun hn => absurd hc hn⟩
  · rw [h, if_neg hc]
    exact ⟨⟨fun heq => (by cases heq), fun hyes => absurd hyes hc⟩, fun _ => rfl⟩

namespace BinaryOp

/-- A divisor that is zero is reported by folding exactly in quotients and between exact numbers,
and by evaluation exactly in quotients and between natural numbers.  Every other remainder by zero
is computed, and is no number. -/
theorem zero_divisor_reported_iff {op : BinaryOp} (hop : op.hasDivisor = true) :
    (∀ {l r : Expr} (p : Position) {a b : Literal} {x y : Number},
      l.fold = .ok a → r.fold = .ok b → Number.ofLiteral? a = some x →
      Number.ofLiteral? b = some y → y.isZero = true →
        ((Expr.binary op l r p).fold.mapError FoldFault.message = .error "division by zero" ↔
          op = .div ∨ (x.isExact && y.isExact) = true) ∧
        (¬ (op = .div ∨ (x.isExact && y.isExact) = true) →
          ∃ z, (Expr.binary op l r p).fold = .ok (.float z) ∧ z.isNaN = true)) ∧
    ∀ {p q : Predicate} {row : Row} {a b : Value},
      p.eval row = .ok (some a) → q.eval row = .ok (some b) → a.isNumber = true →
      b.isZero = true →
        (((Predicate.binary op p q).eval row).mapError EvalError.reason =
            .error "division by zero" ↔ op = .div ∨ (a.isNat && b.isNat) = true) ∧
        (¬ (op = .div ∨ (a.isNat && b.isNat) = true) →
          ∃ z, (Predicate.binary op p q).eval row = .ok (some (.float z)) ∧ z.isNaN = true) := by
  obtain ⟨harithmetic, hlogical⟩ := of_hasDivisor hop
  constructor
  · intro l r p a b x y hl hr hx hy hzero
    have hfold : (Expr.binary op l r p).fold =
        if op = .div ∨ (x.isExact && y.isExact) = true then .error .divisionByZero
        else .ok (.float (x.toDouble.rem y.toDouble)) := by
      rw [Expr.fold_binary harithmetic p hl hr hx hy, Number.apply_zero hop x hzero]
      split <;> rfl
    obtain ⟨hreports, hnan⟩ := Outcome.reports_iff FoldFault.message hfold
    exact ⟨hreports, fun h => ⟨_, hnan h, Double.isNaN_rem (Number.isZero_toDouble hzero)⟩⟩
  · intro p q row a b hp hq ha hb
    obtain ⟨x, hx, -⟩ := Value.toDouble?_of_isNumber ha
    obtain ⟨y, hy, hzero⟩ := Value.toDouble?_of_isZero hb
    have heval : (Predicate.binary op p q).eval row =
        if op = .div ∨ (a.isNat && b.isNat) = true then .error .divisionByZero
        else .ok (some (.float (x.rem y))) := by
      rw [Predicate.eval_binary hlogical hp hq, Value.applyBinary_zero hop hx hb hy hzero]
      split <;> rfl
    obtain ⟨hreports, hnan⟩ := Outcome.reports_iff EvalError.reason heval
    exact ⟨hreports, fun h => ⟨_, hnan h, Double.isNaN_rem hzero⟩⟩

/-- The number one and the negative zero, with an operator between them. -/
def oneOver (op : BinaryOp) : Expr :=
  .binary op (.literal (.nat 1) default) (.literal (.float Double.zero.neg) default) default

/-- A debt and the number of those who share it, with an operator between them. -/
def debtOver (op : BinaryOp) : Predicate :=
  .binary op (.column ⟨"debt", .int⟩) (.column ⟨"shares", .nat⟩)

/-- A debt that nobody shares. -/
def debtRow : Row := [("debt", .int (-5)), ("shares", .nat 0)]

/-- The quotients are reported, and the remainders are no numbers. -/
theorem zero_divisor_reported_debt :
    (oneOver .div).fold.mapError FoldFault.message = .error "division by zero" ∧
      (∃ z, (oneOver .mod).fold = .ok (.float z) ∧ z.isNaN = true) ∧
      ((debtOver .div).eval debtRow).mapError EvalError.reason = .error "division by zero" ∧
      ∃ z, (debtOver .mod).eval debtRow = .ok (some (.float z)) ∧ z.isNaN = true := by
  obtain ⟨hfold, heval⟩ :=
    zero_divisor_reported_iff (show BinaryOp.div.hasDivisor = true from rfl)
  obtain ⟨hfold', heval'⟩ :=
    zero_divisor_reported_iff (show BinaryOp.mod.hasDivisor = true from rfl)
  exact ⟨(hfold default rfl rfl rfl rfl (by decide)).1.mpr (.inl rfl),
    (hfold' default rfl rfl rfl rfl (by decide)).2 (by decide),
    (heval rfl rfl rfl rfl).1.mpr (.inl rfl), (heval' rfl rfl rfl rfl).2 (by decide)⟩

end BinaryOp
end Attest
