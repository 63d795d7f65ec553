import Attest.Proofs.Expr.Register
import Attest.Proofs.Expr.ZeroDivisor

/-!
Folding of whole numbers is exact.

What an expression of whole numbers stands for is said by a relation that knows no limits.  Folding
comes to that number, or to nothing: it fails exactly if some part of the expression stands for a
number that fits no word, divides by zero, or has an exponent that is none.
-/

namespace Attest

open Number (IsWord)

/-- Division with the quotient cut towards zero.  The remainder has the sign of the dividend. -/
structure Divided (i j q r : Int) : Prop where
  sum : r + j * q = i
  small : r.natAbs < j.natAbs
  nonneg : 0 ≤ i → 0 ≤ r
  nonpos : i ≤ 0 → r ≤ 0

theorem divided_iff {i j q r : Int} :
    Divided i j q r ↔ j ≠ 0 ∧ i.tdiv j = q ∧ i.tmod j = r := by
  constructor
  · intro h
    have hsmall := h.small
    have hj : j ≠ 0 := by omega
    refine ⟨hj, ?_⟩
    by_cases hi : 0 ≤ i
    · have hr := h.nonneg hi
      exact (Int.tdiv_tmod_unique hi hj).mpr ⟨h.sum, hr, by omega⟩
    · have hr := h.nonpos (by omega)
      exact (Int.tdiv_tmod_unique' (by omega) hj).mpr ⟨h.sum, by omega, hr⟩
  · rintro ⟨hj, hq⟩
    by_cases hi : 0 ≤ i
    · obtain ⟨hsum, hr, hlt⟩ := (Int.tdiv_tmod_unique hi hj).mp hq
      refine ⟨hsum, by omega, fun _ => hr, fun hle => ?_⟩
      have hzero : i = 0 := by omega
      rw [← hq.2, hzero, Int.zero_tmod]
    · obtain ⟨hsum, hlt, hr⟩ := (Int.tdiv_tmod_unique' (by omega) hj).mp hq
      exact ⟨hsum, by omega, fun hge => absurd hge hi, fun _ => hr⟩

namespace BinaryOp

/-- What an operator makes of two whole numbers. -/
inductive Makes : BinaryOp → Int → Int → Int → Prop where
  | add (i j : Int) : Makes .add i j (i + j)
  | sub (i j : Int) : Makes .sub i j (i - j)
  | mul (i j : Int) : Makes .mul i j (i * j)
  | div {i j q r : Int} (h : Divided i j q r) : Makes .div i j q
  | mod {i j q r : Int} (h : Divided i j q r) : Makes .mod i j r
  | pow (i : Int) (n : Nat) : Makes .pow i n (i ^ n)

/-- The right operands that are refused: a divisor of zero, and an exponent beyond 32 bits. -/
inductive Refuses : BinaryOp → Int → Prop where
  | divisor {op : BinaryOp} (hop : op.hasDivisor = true) : Refuses op 0
  | exponent {j : Int} (hj : ¬ (0 ≤ j ∧ j < 0x100000000)) : Refuses .pow j

variable {op : BinaryOp} {i j k : Int}

theorem Makes.unique {k' : Int} (h : op.Makes i j k) (h' : op.Makes i j k') : k = k' := by
  cases h with
  | add | sub | mul =>
    cases h'
    rfl
  | div h =>
    cases h' with
    | div h' => rw [← (divided_iff.mp h).2.1, ← (divided_iff.mp h').2.1]
  | mod h =>
    cases h' with
    | mod h' => rw [← (divided_iff.mp h).2.2, ← (divided_iff.mp h').2.2]
  | pow i n =>
    generalize hj : (n : Int) = j at h'
    cases h' with
    | pow i m => rw [Int.ofNat_inj.mp hj]

theorem Refuses.exactly_eq (h : op.Refuses j) (i : Int) :
    ∃ f, Number.exactly op i j = .error f := by
  cases h with
  | divisor hop => exact ⟨_, Number.exactly_zero hop i⟩
  | exponent hj =>
    refine ⟨.exponent, ?_⟩
    rw [Number.exactly, if_pos]
    rw [Bool.or_eq_true, decide_eq_true_eq, decide_eq_true_eq]
    omega

/-- An operand that is not refused is computed with exactly. -/
theorem makes_of_not_refuses (hop : op.isArithmetic = true) (h : ¬ op.Refuses j) (i : Int) :
    ∃ k, op.Makes i j k ∧
      Number.exactly op i j >>= Number.toLiteral = (Number.exact k).toLiteral := by
  have hdivisor : op.hasDivisor = true → j ≠ 0 := by
    intro hdivisor hj
    exact h (hj ▸ .divisor hdivisor)
  cases op with
  | add => exact ⟨_, .add i j, rfl⟩
  | sub => exact ⟨_, .sub i j, rfl⟩
  | mul => exact ⟨_, .mul i j, rfl⟩
  | div =>
    have hj := hdivisor rfl
    refine ⟨_, .div (divided_iff.mpr ⟨hj, rfl, rfl⟩), ?_⟩
    rw [Number.exactly, if_neg (by simpa using hj)]
    rfl
  | mod =>
    have hj := hdivisor rfl
    refine ⟨_, .mod (divided_iff.mpr ⟨hj, rfl, rfl⟩), ?_⟩
    rw [Number.exactly, if_neg (by simpa using hj)]
    rfl
  | pow =>
    have hj : 0 ≤ j ∧ j < 0x100000000 := by
      by_contra hj
      exact h (.exponent hj)
    obtain ⟨n, rfl⟩ := Int.eq_ofNat_of_zero_le hj.1
    exact ⟨_, .pow i n, Number.toLiteral_exactly_pow i (by omega)⟩
  | _ => cases hop

end BinaryOp

/-- How a whole number is written: as a natural number, and as an integer if it is negative. -/
inductive Literal.Numeral : Literal → Int → Prop where
  | nat (n : UInt64) : Numeral (.nat n) n.toNat
  | negative {i : Int64} (h : i.toInt < 0) : Numeral (.int i) i.toInt

namespace Literal.Numeral

variable {v : Literal} {i : Int}

theorem ofLiteral? (h : Numeral v i) : Number.ofLiteral? v = some (.exact i) := by
  cases h with
  | nat n => rfl
  | negative h => rfl

theorem isWord (h : Numeral v i) : IsWord i := by
  cases h with
  | nat n =>
    have hlt := n.toNat_lt
    exact ⟨by omega, by omega⟩
  | @negative k h =>
    have hle := k.le_toInt
    exact ⟨by omega, by omega⟩

theorem of_toLiteral (h : (Number.exact i).toLiteral = .ok v) : Numeral v i := by
  obtain ⟨hvalue, hform⟩ := Number.of_toLiteral h
  cases v with
  | nat n =>
    cases hvalue
    exact .nat n
  | int k =>
    cases hvalue
    exact .negative (by simpa [Literal.isNat] using hform)
  | _ => cases hvalue

end Literal.Numeral

theorem Register.ofLiteral?_numeral {v : Literal} {i : Int} (h : v.Numeral i) :
    ∃ x, ofLiteral? v = some x ∧ x.toInt = i := by
  have hword := h.isWord
  cases h with
  | nat n => exact ⟨_, rfl, toInt_ofInt_word hword⟩
  | @negative k h => exact ⟨_, rfl, toInt_ofInt_word hword⟩

namespace Expr

/-- Expressions of natural numbers, negative integers, signs and arithmetic. -/
inductive Whole : Expr → Prop where
  | nat (n : UInt64) (p : Position) : Whole (.literal (.nat n) p)
  | negative {i : Int64} (h : i.toInt < 0) (p : Position) : Whole (.literal (.int i) p)
  | unary {op : UnaryOp} {e : Expr} (hop : op ≠ .not) (he : Whole e) (p : Position) :
      Whole (.unary op e p)
  | binary {op : BinaryOp} {l r : Expr} (hop : op.isArithmetic = true) (hl : Whole l)
      (hr : Whole r) (p : Position) : Whole (.binary op l r p)

/-- The whole number that an expression stands for, of whatever size. -/
inductive Denotes : Expr → Int → Prop where
  | nat (n : UInt64) (p : Position) : Denotes (.literal (.nat n) p) n.toNat
  | int (i : Int64) (p : Position) : Denotes (.literal (.int i) p) i.toInt
  | plus {e : Expr} {i : Int} (h : Denotes e i) (p : Position) : Denotes (.unary .plus e p) i
  | neg {e : Expr} {i : Int} (h : Denotes e i) (p : Position) : Denotes (.unary .neg e p) (-i)
  | binary {op : BinaryOp} {l r : Expr} {i j k : Int} (hl : Denotes l i) (hr : Denotes r j)
      (h : op.Makes i j k) (p : Position) : Denotes (.binary op l r p) k

/-- The parts of an expression, itself included. -/
inductive Within (s : Expr) : Expr → Prop where
  | self : Within s s
  | operand {e : Expr} (h : Within s e) (op : UnaryOp) (p : Position) : Within s (.unary op e p)
  | left {l : Expr} (h : Within s l) (op : BinaryOp) (r : Expr) (p : Position) :
      Within s (.binary op l r p)
  | right {r : Expr} (h : Within s r) (op : BinaryOp) (l : Expr) (p : Position) :
      Within s (.binary op l r p)
  | tested {e : Expr} (h : Within s e) (negated : Bool) (p : Position) :
      Within s (.isNull e negated p)

/-- An expression stands for a number that fits no word, or its right operand is refused. -/
inductive Flawed : Expr → Prop where
  | outside {e : Expr} {i : Int} (h : e.Denotes i) (hi : ¬ IsWord i) : Flawed e
  | refused {op : BinaryOp} {l r : Expr} {j : Int} (hr : r.Denotes j) (h : op.Refuses j)
      (p : Position) : Flawed (.binary op l r p)

variable {e l r s : Expr} {i j k : Int} {v a b : Literal} {p : Position}

theorem Denotes.unique (h : e.Denotes i) (h' : e.Denotes j) : i = j := by
  induction h generalizing j with
  | nat n p =>
    cases h'
    rfl
  | int i p =>
    cases h'
    rfl
  | plus h p ih =>
    cases h' with
    | plus h' => exact ih h'
  | neg h p ih =>
    cases h' with
    | neg h' => rw [ih h']
  | binary hl hr h p ihl ihr =>
    cases h' with
    | binary hl' hr' h' =>
      cases ihl hl'
      cases ihr hr'
      exact h.unique h'

theorem fold_neg (h : e.fold = .ok v) (hv : v.Numeral i) (p : Position) :
    (unary .neg e p).fold = (Number.exact (-i)).toLiteral := by
  rw [fold, h]
  show foldUnary .neg v = _
  rw [foldUnary, hv.ofLiteral?]

theorem fold_plus (h : e.fold = .ok v) (hv : v.Numeral i) (p : Position) :
    (unary .plus e p).fold = .ok v := by
  rw [fold, h]
  show foldUnary .plus v = _
  cases hv <;> rfl

theorem fold_operands {op : BinaryOp} (hop : op.isArithmetic = true) (l r : Expr) (p : Position) :
    (binary op l r p).fold = l.fold >>= fun a => r.fold >>= fun b => foldBinary op a b := by
  rw [fold, hop, Bool.or_true, if_pos rfl]

theorem fold_exactly {op : BinaryOp} (hop : op.isArithmetic = true) (hl : l.fold = .ok a)
    (ha : a.Numeral i) (hr : r.fold = .ok b) (hb : b.Numeral j) (p : Position) :
    (binary op l r p).fold = Number.exactly op i j >>= Number.toLiteral :=
  fold_binary hop p hl hr ha.ofLiteral? hb.ofLiteral?

/-- Folding comes to the number that an expression stands for, or meets a flaw. -/
inductive Settled (e : Expr) : Prop where
  | exact {v : Literal} {i : Int} (hfold : e.fold = .ok v) (hv : v.Numeral i) (h : e.Denotes i)
  | flawed {f : FoldFault} {s : Expr} (hfold : e.fold = .error f) (hs : s.Within e)
      (h : s.Flawed)

theorem settled_of_toLiteral (hfold : e.fold = (Number.exact i).toLiteral) (h : e.Denotes i) :
    e.Settled := by
  by_cases hi : IsWord i
  · obtain ⟨v, hv⟩ := Number.toLiteral_of_isWord hi
    exact .exact (hfold.trans hv) (.of_toLiteral hv) h
  · exact .flawed (hfold.trans (Number.toLiteral_of_not_isWord hi)) .self (.outside h hi)

theorem settled_unary {op : UnaryOp} (hop : op ≠ .not) (h : e.Settled) (p : Position) :
    (unary op e p).Settled := by
  cases h with
  | flawed hfold hs h => exact .flawed (by rw [fold, hfold]; rfl) (hs.operand op p) h
  | exact hfold hv h =>
    cases op with
    | not => exact absurd rfl hop
    | plus => exact .exact (fold_plus hfold hv p) hv (h.plus p)
    | neg => exact settled_of_toLiteral (fold_neg hfold hv p) (h.neg p)

theorem settled_binary {op : BinaryOp} (hop : op.isArithmetic = true) (hl : l.Settled)
    (hr : r.Settled) (p : Position) : (binary op l r p).Settled := by
  have hsteps := fold_operands hop l r p
  cases hl with
  | flawed hfold hs h => exact .flawed (by rw [hsteps, hfold]; rfl) (hs.left op r p) h
  | exact hfoldl ha hdenotes =>
    cases hr with
    | flawed hfold hs h => exact .flawed (by rw [hsteps, hfoldl, hfold]; rfl) (hs.right op l p) h
    | @exact b j hfoldr hb hdenotes' =>
      have hexactly := fold_exactly hop hfoldl ha hfoldr hb p
      by_cases hrefuses : op.Refuses j
      · obtain ⟨f, hf⟩ := hrefuses.exactly_eq _
        exact .flawed (by rw [hexactly, hf]; rfl) .self (.refused hdenotes' hrefuses p)
      · obtain ⟨k, hk, hliteral⟩ := BinaryOp.makes_of_not_refuses hop hrefuses _
        exact settled_of_toLiteral (hexactly.trans hliteral) (.binary hdenotes hdenotes' hk p)

theorem Whole.settled (he : e.Whole) : e.Settled := by
  induction he with
  | nat n p => exact .exact rfl (.nat n) (.nat n p)
  | @negative i h p => exact .exact rfl (.negative h) (.int i p)
  | unary hop _ p ih => exact settled_unary hop ih p
  | binary hop _ _ p ihl ihr => exact settled_binary hop ihl ihr p

theorem Whole.within (he : e.Whole) (hs : s.Within e) : s.Whole := by
  induction hs with
  | self => exact he
  | operand _ op p ih =>
    cases he with
    | unary hop he p => exact ih he
  | left _ op r p ih =>
    cases he with
    | binary hop hl hr p => exact ih hl
  | right _ op l p ih =>
    cases he with
    | binary hop hl hr p => exact ih hr
  | tested => cases he

/-- What can be folded can be folded in all its parts. -/
theorem fold_within (hs : s.Within e) (h : e.fold = .ok v) : ∃ w, s.fold = .ok w := by
  induction hs generalizing v with
  | self => exact ⟨v, h⟩
  | operand _ op p ih =>
    obtain ⟨w, hw, -⟩ := Outcome.bind_eq_ok.mp h
    exact ih hw
  | left _ op r p ih =>
    rw [fold] at h
    split at h
    · obtain ⟨w, hw, -⟩ := Outcome.bind_eq_ok.mp h
      exact ih hw
    · cases h
  | right _ op l p ih =>
    rw [fold] at h
    split at h
    · obtain ⟨a, -, h⟩ := Outcome.bind_eq_ok.mp h
      obtain ⟨w, hw, -⟩ := Outcome.bind_eq_ok.mp h
      exact ih hw
    · cases h
  | tested => cases h

theorem denotes_of_fold (he : e.Whole) (h : e.fold = .ok v) : ∃ i, e.Denotes i ∧ v.Numeral i := by
  cases he.settled with
  | exact hfold hv hdenotes =>
    rw [hfold] at h
    cases h
    exact ⟨_, hdenotes, hv⟩
  | flawed hfold =>
    rw [hfold] at h
    cases h

theorem not_flawed_of_fold (he : e.Whole) (h : e.fold = .ok v) : ¬ e.Flawed := by
  intro hflawed
  cases hflawed with
  | outside hdenotes hi =>
    obtain ⟨i, hi', hv⟩ := denotes_of_fold he h
    exact hi (hdenotes.unique hi' ▸ hv.isWord)
  | @refused op l r j hr hrefuses p =>
    cases he with
    | binary hop hl hwhole p =>
      obtain ⟨a, ha⟩ := fold_within (.left .self op r p) h
      obtain ⟨b, hb⟩ := fold_within (.right .self op l p) h
      obtain ⟨i, -, hnumeral⟩ := denotes_of_fold hl ha
      obtain ⟨j', hj', hnumeral'⟩ := denotes_of_fold hwhole hb
      cases hr.unique hj'
      obtain ⟨f, hf⟩ := hrefuses.exactly_eq i
      rw [fold_exactly hop ha hnumeral hb hnumeral' p, hf] at h
      cases h

/-- Folding with all arithmetic in registers of 128 bits. -/
def foldInRegisters : Expr → Except FoldFault Literal
  | literal v _ => .ok v
  | column id => .error (.column id.name)
  | unary op e _ => do
    let v ← e.foldInRegisters
    match op, Register.ofLiteral? v with
    | .plus, some _ => .ok v
    | .neg, some x => (-x).toLiteral
    | _, _ => .error (.notSigned v)
  | binary op l r _ => do
    let a ← l.foldInRegisters
    let b ← r.foldInRegisters
    match Register.ofLiteral? a, Register.ofLiteral? b with
    | some x, some y => do (← Register.apply op x y).toLiteral
    | _, _ => .error (.notNumbers op a b)
  | isNull _ _ _ => .error .nullTest

theorem foldInRegisters_eq (he : e.Whole) : e.foldInRegisters = e.fold := by
  induction he with
  | nat n p => rfl
  | negative h p => rfl
  | @unary op e hop he p ih =>
    rw [foldInRegisters, ih]
    cases hfold : e.fold with
    | error f => rw [fold, hfold]; rfl
    | ok v =>
      obtain ⟨i, -, hv⟩ := denotes_of_fold he hfold
      obtain ⟨x, hx, hxi⟩ := Register.ofLiteral?_numeral hv
      cases op with
      | not => exact absurd rfl hop
      | plus =>
        rw [fold_plus hfold hv p, Outcome.ok_bind, hx]
      | neg =>
        rw [fold_neg hfold hv p, Outcome.ok_bind, hx]
        show (Number.exact (-x).toInt).toLiteral = _
        rw [Register.toInt_neg_word (hxi ▸ hv.isWord), hxi]
  | @binary op l r hop hl hr p ihl ihr =>
    rw [foldInRegisters, ihl, ihr]
    have hsteps := fold_operands hop l r p
    cases hfoldl : l.fold with
    | error f => rw [hsteps, hfoldl]; rfl
    | ok a =>
      cases hfoldr : r.fold with
      | error f => rw [hsteps, hfoldl, hfoldr]; rfl
      | ok b =>
        obtain ⟨i, -, ha⟩ := denotes_of_fold hl hfoldl
        obtain ⟨j, -, hb⟩ := denotes_of_fold hr hfoldr
        obtain ⟨x, hx, hxi⟩ := Register.ofLiteral?_numeral ha
        obtain ⟨y, hy, hyj⟩ := Register.ofLiteral?_numeral hb
        rw [fold_exactly hop hfoldl ha hfoldr hb p, Outcome.ok_bind, Outcome.ok_bind, hx, hy]
        show Register.apply op x y >>= Register.toLiteral = _
        rw [Register.toLiteral_apply op (hxi ▸ ha.isWord) y, hxi, hyj]

/-- An expression of whole numbers is folded to the number that it stands for, as a natural number
or, if it is negative, as an integer.  It is not folded exactly if a part of it stands for a number
that fits no word, divides by zero, or has an exponent that is no natural number of 32 bits.  And
registers of 128 bits are enough: with all arithmetic in them the answer is the same. -/
theorem fold_exact (he : e.Whole) :
    (∀ v, e.fold = .ok v → ∃ i, e.Denotes i ∧ v.Numeral i) ∧
      ((∃ f, e.fold = .error f) ↔ ∃ s : Expr, s.Within e ∧ s.Flawed) ∧
      e.foldInRegisters = e.fold := by
  refine ⟨fun v => denotes_of_fold he, ⟨?_, ?_⟩, foldInRegisters_eq he⟩
  · rintro ⟨f, hf⟩
    cases he.settled with
    | exact hfold =>
      rw [hfold] at hf
      cases hf
    | flawed _ hs h => exact ⟨_, hs, h⟩
  · rintro ⟨s, hs, h⟩
    cases hfold : e.fold with
    | error f => exact ⟨f, rfl⟩
    | ok v =>
      obtain ⟨w, hw⟩ := fold_within hs hfold
      exact absurd h (not_flawed_of_fold (he.within hs) hw)

/-- `base ^ exponent` -/
def power (base exponent : UInt64) : Expr :=
  .binary .pow (.literal (.nat base) default) (.literal (.nat exponent) default) default

theorem whole_power (base exponent : UInt64) : (power base exponent).Whole :=
  .binary rfl (.nat base default) (.nat exponent default) default

/-- The least number of all is folded; `1 ^ 4294967296` stands for one and is not, because of its
exponent. -/
theorem fold_exact_ends :
    (∃ i, (unary .neg (power 2 63) default).Denotes i ∧
      (Literal.int (-0x8000000000000000)).Numeral i) ∧
    (unary .neg (power 2 63) default).foldInRegisters = .ok (.int (-0x8000000000000000)) ∧
    ∃ f, (power 1 0x100000000).fold = .error f := by
  have hwhole : (unary .neg (power 2 63) default).Whole :=
    .unary (by decide) (whole_power 2 63) default
  obtain ⟨hdenotes, -, hregisters⟩ := fold_exact hwhole
  have hfold : (unary .neg (power 2 63) default).fold = .ok (.int (-0x8000000000000000)) := rfl
  refine ⟨hdenotes _ hfold, hregisters.trans hfold, ?_⟩
  have hflawed : (power 1 0x100000000).Flawed :=
    .refused (.nat _ _) (.exponent (by decide)) default
  exact (fold_exact (whole_power 1 0x100000000)).2.1.mpr ⟨_, .self, hflawed⟩

end Expr
end Attest
