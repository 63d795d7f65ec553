import Attest.Expr.Fold
import Attest.Predicate.Eval
import Attest.Predicate.Untyped
import Attest.Proofs.Outcome

/-!
Constants are computed twice: by folding, when they are checked, and by evaluation, where they stand
in a condition as they were written.

Folding is exact.  Evaluation is exact as long as every operator stands between two natural numbers,
and computes with floats otherwise.  So the two agree on an expression exactly if none of its
operators has an operand with a minus sign or one that has become negative.
-/

namespace Attest

theorem BinaryOp.of_isArithmetic {op : BinaryOp} (h : op.isArithmetic = true) :
    op.isLogical = false ∧ op.isComparison = false ∧ (op == .concat) = false := by
  revert h
  cases op <;> decide

namespace Expr

/-- Expressions of natural numbers, signs and arithmetic. -/
inductive Arithmetic : Expr → Prop where
  | literal (n : UInt64) (p : Position) : Arithmetic (.literal (.nat n) p)
  | unary {op : UnaryOp} {e : Expr} (hop : op ≠ .not) (he : Arithmetic e) (p : Position) :
      Arithmetic (.unary op e p)
  | binary {op : BinaryOp} {l r : Expr} (hop : op.isArithmetic = true) (hl : Arithmetic l)
      (hr : Arithmetic r) (p : Position) : Arithmetic (.binary op l r p)

end Expr

def Literal.isNat : Literal → Bool
  | .nat _ => true
  | _ => false

/-- The whole number that a value is, of either kind. -/
def Value.whole? : Value → Option Int
  | .nat n => some n.toNat
  | .int i => some i.toInt
  | _ => none

namespace Expr

/-- Whether evaluation comes to a natural number: nothing on the way has a minus sign or has become
negative. -/
def isNatural : Expr → Bool
  | literal _ _ => true
  | unary op e _ => op == .plus && e.isNatural
  | binary op l r p =>
    l.isNatural && r.isNatural && (binary op l r p).fold.toOption.any Literal.isNat
  | _ => false

/-- Whether every operator stands between natural numbers. -/
def staysWhole : Expr → Bool
  | literal _ _ => true
  | unary _ e _ => e.staysWhole
  | binary _ l r _ => l.isNatural && r.isNatural
  | _ => false

/-- The value that evaluation comes to where folding comes to a number. -/
inductive Gives (e : Expr) : Int → Value → Prop where
  | natural (hn : e.isNatural = true) (hw : e.staysWhole = true) (n : UInt64) :
      Gives e n.toNat (.nat n)
  | integer (hn : e.isNatural = false) (hw : e.staysWhole = true) (i : Int64) :
      Gives e i.toInt (.int i)
  | float (hn : e.isNatural = false) (hw : e.staysWhole = false) (i : Int) (x : Double) :
      Gives e i (.float x)

end Expr

theorem Number.of_toLiteral {i : Int} {l : Literal} (h : (exact i).toLiteral = .ok l) :
    ofLiteral? l = some (.exact i) ∧ l.isNat = decide (0 ≤ i) := by
  unfold toLiteral Literal.ofInt? at h
  dsimp only at h
  split_ifs at h with hnonneg hlt hge
  · cases h
    refine ⟨?_, (decide_eq_true hnonneg).symm⟩
    have hlt : i.toNat < 0x10000000000000000 := by omega
    have hword : i.toNat.toUInt64.toNat = i.toNat := UInt64.toNat_ofNat_of_lt' hlt
    show some (exact (i.toNat.toUInt64.toNat : Int)) = _
    rw [hword, Int.toNat_of_nonneg hnonneg]
  · cases h
    refine ⟨?_, (decide_eq_false hnonneg).symm⟩
    show some (exact (Int64.ofInt i).toInt) = _
    rw [Int64.toInt_ofInt_of_le (by omega) (by omega)]

theorem Number.exact_of_exactly {op : BinaryOp} {i j : Int} {n : Number}
    (h : exactly op i j = .ok n) : ∃ k, n = .exact k := by
  cases op with
  | div =>
    rw [exactly] at h
    split at h
    · cases h
    · exact ⟨_, (Except.ok.inj h).symm⟩
  | mod =>
    rw [exactly] at h
    split at h
    · cases h
    · exact ⟨_, (Except.ok.inj h).symm⟩
  | pow =>
    rw [exactly] at h
    split at h
    · cases h
    · split at h
      · exact ⟨_, (Except.ok.inj h).symm⟩
      · cases h
  | _ => first | exact ⟨_, (Except.ok.inj h).symm⟩ | cases h

/-- Whole numbers are folded to a whole number that fits a word. -/
theorem Expr.foldBinary_exact {op : BinaryOp} (hop : op.isArithmetic = true) {a b l : Literal}
    {i j : Int} (hi : Number.ofLiteral? a = some (.exact i))
    (hj : Number.ofLiteral? b = some (.exact j)) (h : foldBinary op a b = .ok l) :
    ∃ k, Number.exactly op i j = .ok (.exact k) ∧ (Number.exact k).toLiteral = .ok l := by
  obtain ⟨-, -, hconcat⟩ := BinaryOp.of_isArithmetic hop
  unfold foldBinary at h
  rw [hconcat, if_neg (by decide), hi, hj] at h
  obtain ⟨n, hn, h⟩ := Outcome.bind_eq_ok.mp h
  obtain ⟨k, rfl⟩ := Number.exact_of_exactly hn
  exact ⟨k, hn, h⟩

namespace Value

theorem of_natural {n : Nat} {v : Value} (h : natural n = .ok v) :
    ∃ w : UInt64, v = .nat w ∧ w.toNat = n := by
  unfold natural at h
  split at h
  · next hlt =>
    cases h
    exact ⟨_, rfl, UInt64.toNat_ofNat_of_lt' hlt⟩
  · cases h

theorem of_integer {i : Int} {v : Value} (h : integer i = .ok v) :
    ∃ w : Int64, v = .int w ∧ w.toInt = i := by
  unfold integer at h
  split at h
  · next hfits =>
    cases h
    rw [Bool.and_eq_true, decide_eq_true_eq, decide_eq_true_eq] at hfits
    exact ⟨_, rfl, Int64.toInt_ofInt_of_le hfits.1 hfits.2⟩
  · cases h

theorem of_power {m n : Nat} {k : Int} {v : Value} (hk : Number.power? m n = some k)
    (hv : power m n = .ok v) : ∃ j : Nat, natural j = .ok v ∧ (j : Int) = k := by
  unfold power at hv
  unfold Number.power? at hk
  rw [Int.natAbs_natCast] at hk
  split at hv
  · cases hv
  · by_cases hm : m ≤ 1
    · rw [if_pos hm] at hv hk
      refine ⟨_, hv, ?_⟩
      have hm : m = 0 ∨ m = 1 := by omega
      rcases hm with rfl | rfl
      · by_cases hn : n = 0 <;> simpa [hn] using hk
      · by_cases hn : n = 0 <;> simpa [hn] using hk
    · rw [if_neg hm] at hv hk
      split at hv
      · cases hv
      · split at hk
        · cases hk
          exact ⟨_, hv, Int.natCast_pow m n⟩
        · cases hk

/-- Between natural numbers both computations are exact. -/
theorem of_applyNats {op : BinaryOp} {m n : Nat} {k : Int} {v : Value}
    (hk : Number.exactly op m n = .ok (.exact k)) (hv : applyNats op m n = .ok v) :
    (0 ≤ k ∧ ∃ w : UInt64, v = .nat w ∧ (w.toNat : Int) = k) ∨
      (k < 0 ∧ ∃ w : Int64, v = .int w ∧ w.toInt = k) := by
  have hnatural : ∀ {j : Nat}, natural j = .ok v → (j : Int) = k →
      0 ≤ k ∧ ∃ w : UInt64, v = .nat w ∧ (w.toNat : Int) = k := by
    intro j hj hjk
    obtain ⟨w, hw, hwj⟩ := of_natural hj
    exact ⟨by omega, w, hw, by omega⟩
  cases op with
  | add =>
    cases hk
    exact .inl (hnatural hv (Int.natCast_add m n))
  | sub =>
    cases hk
    rw [applyNats] at hv
    split at hv
    · next hle => exact .inl (hnatural hv (by omega))
    · next hlt =>
      obtain ⟨w, hw, hwk⟩ := of_integer hv
      exact .inr ⟨by omega, w, hw, hwk⟩
  | mul =>
    cases hk
    exact .inl (hnatural hv (Int.natCast_mul m n))
  | div =>
    rw [applyNats] at hv
    rw [Number.exactly] at hk
    split at hv
    · cases hv
    · split at hk
      · cases hk
      · cases hk
        exact .inl (hnatural hv (Int.ofNat_tdiv m n))
  | mod =>
    rw [applyNats] at hv
    rw [Number.exactly] at hk
    split at hv
    · cases hv
    · split at hk
      · cases hk
      · cases hk
        exact .inl (hnatural hv (Int.ofNat_tmod m n))
  | pow =>
    rw [Number.exactly] at hk
    split at hk
    · cases hk
    · rw [Int.toNat_natCast] at hk
      split at hk
      · next j hj =>
        cases hk
        obtain ⟨j, hj, hjk⟩ := of_power hj hv
        exact .inl (hnatural hj hjk)
      · cases hk
  | _ => cases hv

theorem float_of_applyFloats {op : BinaryOp} {a b : Double} {v : Value}
    (h : applyFloats op a b = .ok v) : ∃ x, v = .float x := by
  cases op with
  | div =>
    rw [applyFloats] at h
    split at h
    · cases h
    · cases h
      exact ⟨_, rfl⟩
  | _ => first | exact ⟨_, (Except.ok.inj h).symm⟩ | cases h

/-- All that is not natural numbers is computed with as floats. -/
theorem float_of_applyBinary {op : BinaryOp} (hop : op.isArithmetic = true) {a b v : Value}
    (hab : ∀ m n, ¬ (a = .nat m ∧ b = .nat n)) (h : applyBinary op a b = .ok v) :
    ∃ x, v = .float x := by
  unfold applyBinary at h
  obtain ⟨-, hcomparison, -⟩ := BinaryOp.of_isArithmetic hop
  rw [hcomparison, if_neg (by decide)] at h
  split at h
  · cases hop
  · exact absurd ⟨rfl, rfl⟩ (hab _ _)
  · split at h
    · exact float_of_applyFloats h
    · cases h

theorem applyBinary_nats {op : BinaryOp} (hop : op.isArithmetic = true) (m n : UInt64) :
    applyBinary op (.nat m) (.nat n) = applyNats op m.toNat n.toNat := by
  cases op with
  | add => rfl
  | sub => rfl
  | mul => rfl
  | div => rfl
  | mod => rfl
  | pow => rfl
  | _ => cases hop

end Value

namespace Expr

variable {e l r : Expr} {op : BinaryOp} {p : Position} {i j k : Int} {a b v : Value}

theorem Gives.natural_or (h : Gives e i v) :
    (e.isNatural = true ∧ ∃ n : UInt64, v = .nat n ∧ i = n.toNat) ∨
      (e.isNatural = false ∧ ∀ n, v ≠ .nat n) := by
  cases h with
  | natural hn hw n => exact .inl ⟨hn, n, rfl, rfl⟩
  | integer hn hw i => exact .inr ⟨hn, by simp⟩
  | float hn hw i x => exact .inr ⟨hn, by simp⟩

theorem gives_plus (h : Gives e i a) (hv : Value.applyUnary .plus a = .ok v) :
    Gives (unary .plus e p) i v := by
  have hnatural : (unary .plus e p).isNatural = e.isNatural := rfl
  have hwhole : (unary .plus e p).staysWhole = e.staysWhole := rfl
  cases h with
  | natural hn hw n =>
    cases hv
    exact .natural (hnatural.trans hn) (hwhole.trans hw) n
  | integer hn hw i =>
    cases hv
    exact .integer (hnatural.trans hn) (hwhole.trans hw) i
  | float hn hw i x =>
    cases hv
    exact .float (hnatural.trans hn) (hwhole.trans hw) i x

theorem gives_neg (h : Gives e i a) (hv : Value.applyUnary .neg a = .ok v) :
    Gives (unary .neg e p) (-i) v := by
  have hnatural : (unary .neg e p).isNatural = false := rfl
  have hwhole : (unary .neg e p).staysWhole = e.staysWhole := rfl
  have hinteger : ∀ {i : Int}, e.staysWhole = true → Value.integer i = .ok v →
      Gives (unary .neg e p) i v := by
    intro i hw hv
    obtain ⟨w, rfl, rfl⟩ := Value.of_integer hv
    exact .integer hnatural (hwhole.trans hw) w
  cases h with
  | natural hn hw n =>
    rw [Value.applyUnary] at hv
    split at hv
    · exact hinteger hw hv
    · cases hv
  | integer hn hw i => exact hinteger hw hv
  | float hn hw i x =>
    cases hv
    exact .float hnatural (hwhole.trans hw) (-i) x.neg

theorem gives_binary (hop : op.isArithmetic = true) (ha : Gives l i a) (hb : Gives r j b)
    (hk : Number.exactly op i j = .ok (.exact k)) {lit : Literal}
    (hlit : (Number.exact k).toLiteral = .ok lit) (hfold : (binary op l r p).fold = .ok lit)
    (hv : Value.applyBinary op a b = .ok v) : Gives (binary op l r p) k v := by
  have hnatural : (binary op l r p).isNatural = (l.isNatural && r.isNatural && decide (0 ≤ k)) := by
    rw [isNatural, hfold, ← (Number.of_toLiteral hlit).2]
    rfl
  have hwhole : (binary op l r p).staysWhole = (l.isNatural && r.isNatural) := rfl
  have hfloat : (l.isNatural && r.isNatural) = false → (∀ m n, ¬ (a = .nat m ∧ b = .nat n)) →
      Gives (binary op l r p) k v := by
    intro hfalse hab
    obtain ⟨x, rfl⟩ := Value.float_of_applyBinary hop hab hv
    exact .float (by rw [hnatural, hfalse]; rfl) (hwhole.trans hfalse) k x
  rcases ha.natural_or with ⟨hl, m, rfl, rfl⟩ | ⟨hl, hne⟩
  · rcases hb.natural_or with ⟨hr, n, rfl, rfl⟩ | ⟨hr, hne⟩
    · rw [Value.applyBinary_nats hop] at hv
      rcases Value.of_applyNats hk hv with ⟨hk0, w, rfl, hw⟩ | ⟨hk0, w, rfl, hw⟩
      · subst hw
        exact .natural (by rw [hnatural, hl, hr]; simp) (by rw [hwhole, hl, hr]; rfl) w
      · subst hw
        exact .integer (by rw [hnatural, hl, hr]; simpa using hk0) (by rw [hwhole, hl, hr]; rfl) w
    · exact hfloat (by rw [hr, Bool.and_false]) fun m n h => hne n h.2
  · exact hfloat (by rw [hl, Bool.false_and]) fun m n h => hne m h.1

theorem ofExpr_nat (n : UInt64) (p : Position) :
    Predicate.ofExpr (.literal (.nat n) p) = .ok (.literal ⟨.nat, .nat n, rfl⟩) := rfl

/-- Evaluation follows folding up to the kind of the value. -/
theorem gives_of_eval (he : e.Arithmetic) {q : Predicate} (hq : Predicate.ofExpr e = .ok q)
    {lit : Literal} (hlit : e.fold = .ok lit) {row : Row} (hv : q.eval row = .ok (some v)) :
    ∃ i, Number.ofLiteral? lit = some (.exact i) ∧ Gives e i v := by
  induction he generalizing q lit v with
  | literal n p =>
    rw [ofExpr_nat] at hq
    cases hq
    cases hlit
    cases hv
    exact ⟨n.toNat, rfl, .natural rfl rfl n⟩
  | @unary op e hop he p ih =>
    obtain ⟨q', hq', hq⟩ := Outcome.bind_eq_ok.mp hq
    cases hq
    obtain ⟨lit', hlit', hfold⟩ := Outcome.bind_eq_ok.mp hlit
    obtain ⟨a, ha, hv⟩ := Outcome.bind_eq_ok.mp hv
    cases a with
    | none => cases hv
    | some a =>
      obtain ⟨v', hv', hsome⟩ := Outcome.map_eq_ok.mp hv
      cases hsome
      obtain ⟨i, hi, hgives⟩ := ih hq' hlit' ha
      cases op with
      | not => exact absurd rfl hop
      | plus =>
        refine ⟨i, ?_, gives_plus hgives hv'⟩
        rw [foldUnary] at hfold
        split at hfold
        · cases hfold
          exact hi
        · cases hfold
      | neg =>
        refine ⟨-i, ?_, gives_neg hgives hv'⟩
        rw [foldUnary, hi] at hfold
        exact (Number.of_toLiteral hfold).1
  | @binary op l r hop hl hr p ihl ihr =>
    obtain ⟨ql, hql, hq⟩ := Outcome.bind_eq_ok.mp hq
    obtain ⟨qr, hqr, hq⟩ := Outcome.bind_eq_ok.mp hq
    cases hq
    obtain ⟨hlogical, -, -⟩ := BinaryOp.of_isArithmetic hop
    have hfold := hlit
    rw [fold, hop, Bool.or_true, if_pos rfl] at hfold
    obtain ⟨a', ha', hfold⟩ := Outcome.bind_eq_ok.mp hfold
    obtain ⟨b', hb', hfold⟩ := Outcome.bind_eq_ok.mp hfold
    rw [Predicate.eval, hlogical, if_neg (by decide)] at hv
    obtain ⟨a, ha, hv⟩ := Outcome.bind_eq_ok.mp hv
    obtain ⟨b, hb, hv⟩ := Outcome.bind_eq_ok.mp hv
    cases a with
    | none => cases hv
    | some a =>
      cases b with
      | none => cases hv
      | some b =>
        obtain ⟨v', hv', hsome⟩ := Outcome.map_eq_ok.mp hv
        cases hsome
        obtain ⟨i, hi, hl⟩ := ihl hql ha' ha
        obtain ⟨j, hj, hr⟩ := ihr hqr hb' hb
        obtain ⟨k, hk, hword⟩ := foldBinary_exact hop hi hj hfold
        exact ⟨k, (Number.of_toLiteral hword).1, gives_binary hop hl hr hk hword hlit hv'⟩

/-- Where an expression of natural numbers, signs and arithmetic can be folded and has a value, it
is folded to a whole number.  The value is that number exactly if every operator stands between
natural numbers, and a float otherwise. -/
theorem eval_eq_fold_iff {e : Expr} (he : e.Arithmetic) {q : Predicate}
    (hq : Predicate.ofExpr e = .ok q) {lit : Literal} (hlit : e.fold = .ok lit) {row : Row}
    {v : Value} (hv : q.eval row = .ok (some v)) :
    ∃ i, Number.ofLiteral? lit = some (.exact i) ∧
      (v.whole? = some i ↔ e.staysWhole = true) ∧ (e.staysWhole = false → ∃ x, v = .float x) := by
  obtain ⟨i, hi, hgives⟩ := gives_of_eval he hq hlit hv
  refine ⟨i, hi, ?_⟩
  cases hgives with
  | natural hn hw n => simp [Value.whole?, hw]
  | integer hn hw i => simp [Value.whole?, hw]
  | float hn hw i x => simp [Value.whole?, hw]

/-- `left - right` -/
def difference (left right : UInt64) : Expr :=
  .binary .sub (.literal (.nat left) default) (.literal (.nat right) default) default

/-- `(0 - 7) / 2` -/
def halved : Expr := .binary .div (difference 0 7) (.literal (.nat 2) default) default

/-- The difference of 2 and 7 has the value that it is folded to, and half of -7 has not. -/
theorem eval_eq_fold_difference :
    (∃ q v, Predicate.ofExpr (difference 2 7) = .ok q ∧ (difference 2 7).fold = .ok (.int (-5)) ∧
      q.eval [] = .ok (some v) ∧ v.whole? = some (-5)) ∧
    ∃ q x, Predicate.ofExpr halved = .ok q ∧ halved.fold = .ok (.int (-3)) ∧
      q.eval [] = .ok (some (.float x)) := by
  have harithmetic : ∀ m n, (difference m n).Arithmetic := fun m n =>
    .binary rfl (.literal m default) (.literal n default) default
  constructor
  · obtain ⟨q, v, hq, hv⟩ : ∃ q v, Predicate.ofExpr (difference 2 7) = .ok q ∧
        q.eval [] = .ok (some v) := ⟨_, _, rfl, rfl⟩
    have hfold : (difference 2 7).fold = .ok (.int (-5)) := rfl
    obtain ⟨i, hi, hwhole, -⟩ := eval_eq_fold_iff (harithmetic 2 7) hq hfold hv
    cases hi
    exact ⟨q, v, hq, hfold, hv, hwhole.mpr rfl⟩
  · obtain ⟨q, v, hq, hv⟩ : ∃ q v, Predicate.ofExpr halved = .ok q ∧
        q.eval [] = .ok (some v) := ⟨_, _, rfl, rfl⟩
    have hfold : halved.fold = .ok (.int (-3)) := rfl
    obtain ⟨i, -, -, hfloat⟩ := eval_eq_fold_iff
      (.binary rfl (harithmetic 0 7) (.literal 2 default) default) hq hfold hv
    obtain ⟨x, rfl⟩ := hfloat rfl
    exact ⟨q, x, hq, hfold, hv⟩

end Expr
end Attest
