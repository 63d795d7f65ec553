import Attest.Expr.Fold
import Attest.Proofs.Outcome
import Mathlib.Tactic.Ring

/-!
Whole numbers in registers of 128 bits.

Sums, differences and products are checked; a negation, a quotient or a remainder is not, and would
wrap around.  A power is made of checked products, by squaring.  As long as the operands fit a word
of 64 bits, what is not checked fits a register, and what does not fit a register fits no word.  So
the answer is that of the exact computation.
-/

namespace Attest

/-- The whole numbers that a literal holds. -/
def Number.IsWord (i : Int) : Prop := -0x8000000000000000 ≤ i ∧ i < 0x10000000000000000

namespace Number

variable {i : Int}

theorem toLiteral_of_isWord (h : IsWord i) : ∃ v, (exact i).toLiteral = .ok v := by
  obtain ⟨hlow, hhigh⟩ := h
  by_cases hi : 0 ≤ i
  · exact ⟨.nat i.toNat.toUInt64, by simp [toLiteral, Literal.ofInt?, hi, hhigh]⟩
  · exact ⟨.int (Int64.ofInt i), by simp [toLiteral, Literal.ofInt?, hi, hlow]⟩

theorem toLiteral_of_not_isWord (h : ¬ IsWord i) : (exact i).toLiteral = .error .overflow := by
  have hnone : Literal.ofInt? i = none := by
    unfold Literal.ofInt?
    by_cases hi : 0 ≤ i
    · rw [if_pos hi, if_neg fun hlt => h ⟨by omega, hlt⟩]
    · rw [if_neg hi, if_neg fun hle => h ⟨hle, by omega⟩]
  simp only [toLiteral, hnone]

/-- Powers of a number that is not above one either way depend on the parity of the exponent. -/
theorem pow_of_natAbs_le_one (h : i.natAbs ≤ 1) (n : Nat) :
    i ^ n = if n = 0 then 1 else if n % 2 = 0 then i * i else i := by
  have hi : i = 0 ∨ i = 1 ∨ i = -1 := by omega
  by_cases hzero : n = 0
  · rw [if_pos hzero, hzero, pow_zero]
  · rw [if_neg hzero]
    by_cases heven : n % 2 = 0
    · rw [if_pos heven]
      rcases hi with rfl | rfl | rfl
      · exact zero_pow hzero
      · exact one_pow n
      · exact (Nat.even_iff.mpr heven).neg_one_pow
    · rw [if_neg heven]
      rcases hi with rfl | rfl | rfl
      · exact zero_pow hzero
      · exact one_pow n
      · exact (Nat.odd_iff.mpr (by omega)).neg_one_pow

theorem eq_pow_of_power? {k : Int} {n : Nat} (h : power? i n = some k) : k = i ^ n := by
  unfold power? at h
  by_cases hsmall : i.natAbs ≤ 1
  · rw [if_pos hsmall, Option.some.injEq] at h
    rw [pow_of_natAbs_le_one hsmall, ← h]
    simp only [beq_iff_eq]
  · rw [if_neg hsmall] at h
    split at h
    · cases h
      rfl
    · cases h

theorem not_isWord_of_power? {n : Nat} (h : power? i n = none) : ¬ IsWord (i ^ n) := by
  unfold power? at h
  by_cases hsmall : i.natAbs ≤ 1
  · rw [if_pos hsmall] at h
    cases h
  · rw [if_neg hsmall] at h
    split at h
    · cases h
    · next hn =>
      have hlarge : 2 ^ 128 ≤ (i ^ n).natAbs := by
        calc 2 ^ 128 ≤ 2 ^ n := Nat.pow_le_pow_right (by decide) (by omega)
          _ ≤ i.natAbs ^ n := Nat.pow_le_pow_left (by omega) n
          _ = (i ^ n).natAbs := (Int.natAbs_pow i n).symm
      intro hword
      have hlow := hword.1
      have hhigh := hword.2
      omega

/-- A power is exact, and overflows if it fits no word. -/
theorem toLiteral_exactly_pow (i : Int) {n : Nat} (hn : n < 0x100000000) :
    exactly .pow i n >>= toLiteral = (exact (i ^ n)).toLiteral := by
  have hfits : ¬ (decide ((n : Int) < 0) || decide (0x100000000 ≤ (n : Int))) = true := by
    rw [Bool.or_eq_true, decide_eq_true_eq, decide_eq_true_eq]
    omega
  rw [exactly, if_neg hfits, Int.toNat_natCast]
  cases hpower : power? i n with
  | none => exact (toLiteral_of_not_isWord (not_isWord_of_power? hpower)).symm
  | some k => rw [← eq_pow_of_power? hpower]; rfl

end Number

/-- A register of 128 bits, whose first bit is the sign. -/
abbrev Register := BitVec 128

namespace Register

open Number (IsWord)
open Outcome (FailsOnly)

/-- A result, unless it has overflowed. -/
def checked (overflows : Bool) (r : Register) : Except FoldFault Register :=
  if overflows then .error .overflow else .ok r

def times (x y : Register) : Except FoldFault Register := checked (x.smulOverflow y) (x * y)

/-- The factor of the lowest bit of an exponent. -/
def absorb (acc base : Register) (n : Nat) : Except FoldFault Register :=
  if n % 2 = 1 then times acc base else .ok acc

/-- The product of `acc` and a power, by squaring.  The first product that overflows ends it. -/
def powerFrom (acc base : Register) (n : Nat) : Except FoldFault Register :=
  if n = 0 then .ok acc
  else absorb acc base n >>= fun acc =>
    if n = 1 then .ok acc
    else times base base >>= fun square => powerFrom acc square (n / 2)
termination_by n

def apply (op : BinaryOp) (x y : Register) : Except FoldFault Register :=
  match op with
  | .add => checked (x.saddOverflow y) (x + y)
  | .sub => checked (x.ssubOverflow y) (x - y)
  | .mul => times x y
  | .div => if y = 0 then .error .divisionByZero else .ok (x.sdiv y)
  | .mod => if y = 0 then .error .divisionByZero else .ok (x.srem y)
  | .pow =>
    if y.toInt < 0 ∨ 0x100000000 ≤ y.toInt then .error .exponent
    else powerFrom 1 x y.toInt.toNat
  | op => .error (.operator op)

def ofLiteral? : Literal → Option Register
  | .nat n => some (BitVec.ofNat 128 n.toNat)
  | .int i => some (BitVec.ofInt 128 i.toInt)
  | _ => none

/-- The literal of a register, if it fits a word. -/
def toLiteral (r : Register) : Except FoldFault Literal := (Number.exact r.toInt).toLiteral

variable {i j k : Int} {x y acc base r : Register}

theorem toInt_ofInt_word (h : IsWord i) : (BitVec.ofInt 128 i).toInt = i := by
  obtain ⟨hlow, hhigh⟩ := h
  exact BitVec.toInt_ofInt_eq_self (by decide) (by omega) (by omega)

theorem toInt_neg_word (hx : IsWord x.toInt) : (-x).toInt = -x.toInt := by
  obtain ⟨hlow, hhigh⟩ := hx
  rw [BitVec.toInt_neg, Int.bmod_eq_of_le (by omega) (by omega)]

theorem natAbs_word (h : IsWord i) : i.natAbs ≤ 0x10000000000000000 := by
  obtain ⟨hlow, hhigh⟩ := h
  omega

theorem toInt_sdiv_word (hx : IsWord x.toInt) : (x.sdiv y).toInt = x.toInt.tdiv y.toInt := by
  have hle := Int.natAbs_tdiv_le_natAbs x.toInt y.toInt
  have hword := natAbs_word hx
  rw [BitVec.toInt_sdiv, Int.bmod_eq_of_le (by omega) (by omega)]

theorem toLiteral_checked {overflows : Bool} (hholds : overflows = false → r.toInt = k)
    (hover : overflows = true → ¬ IsWord k) :
    checked overflows r >>= toLiteral = (Number.exact k).toLiteral := by
  cases overflows with
  | false =>
    show (Number.exact r.toInt).toLiteral = _
    rw [hholds rfl]
  | true => exact (Number.toLiteral_of_not_isWord (hover rfl)).symm

theorem times_of_lt (h : (x.toInt * y.toInt).natAbs < 2 ^ 127) :
    times x y = .ok (x * y) ∧ (x * y).toInt = x.toInt * y.toInt := by
  have hfits : x.smulOverflow y = false := by
    simp only [BitVec.smulOverflow, Bool.or_eq_false_iff, decide_eq_false_iff_not]
    constructor <;> omega
  refine ⟨?_, BitVec.toInt_mul_of_not_smulOverflow (by simp [hfits])⟩
  rw [times, hfits]
  rfl

theorem toInt_of_times (h : times x y = .ok r) : r.toInt = x.toInt * y.toInt := by
  by_cases hover : x.smulOverflow y = true
  · rw [times, hover] at h
    cases h
  · rw [times, Bool.eq_false_iff.mpr hover] at h
    cases h
    exact BitVec.toInt_mul_of_not_smulOverflow hover

theorem toInt_of_absorb {n : Nat} (h : absorb acc base n = .ok r) :
    r.toInt = acc.toInt * base.toInt ^ (n % 2) := by
  rw [absorb] at h
  by_cases hodd : n % 2 = 1
  · rw [if_pos hodd] at h
    rw [hodd, pow_one, toInt_of_times h]
  · rw [if_neg hodd] at h
    cases h
    rw [show n % 2 = 0 by omega, pow_zero, mul_one]

theorem pow_split (b : Int) (n : Nat) : b ^ n = b ^ (n % 2) * (b * b) ^ (n / 2) := by
  rw [← pow_two, ← pow_mul, ← pow_add, Nat.mod_add_div]

/-- A power that is not given up is exact. -/
theorem toInt_of_powerFrom {n : Nat} (h : powerFrom acc base n = .ok r) :
    r.toInt = acc.toInt * base.toInt ^ n := by
  induction n using Nat.strongRecOn generalizing acc base with
  | ind n ih =>
    rw [powerFrom] at h
    by_cases hzero : n = 0
    · rw [if_pos hzero] at h
      cases h
      rw [hzero, pow_zero, mul_one]
    · rw [if_neg hzero] at h
      obtain ⟨acc', hacc, h⟩ := Outcome.bind_eq_ok.mp h
      have hacc := toInt_of_absorb hacc
      by_cases hone : n = 1
      · rw [if_pos hone] at h
        cases h
        rw [hacc, hone]
      · rw [if_neg hone] at h
        obtain ⟨square, hsquare, h⟩ := Outcome.bind_eq_ok.mp h
        rw [ih (n / 2) (by omega) h, hacc, toInt_of_times hsquare, pow_split base.toInt n,
          mul_assoc]

/-- A power that is given up overflows. -/
theorem failsOnly_powerFrom (acc base : Register) (n : Nat) :
    FailsOnly (· = .overflow) (powerFrom acc base n) := by
  have htimes : ∀ x y, FailsOnly (· = FoldFault.overflow) (times x y) := by
    intro x y
    unfold times checked
    split
    · exact .error rfl
    · exact .ok _
  induction n using Nat.strongRecOn generalizing acc base with
  | ind n ih =>
    rw [powerFrom]
    by_cases hzero : n = 0
    · rw [if_pos hzero]
      exact .ok acc
    · rw [if_neg hzero]
      refine FailsOnly.bind ?_ fun acc => ?_
      · unfold absorb
        split
        · exact htimes acc base
        · exact .ok acc
      · by_cases hone : n = 1
        · rw [if_pos hone]
          exact .ok acc
        · rw [if_neg hone]
          exact (htimes base base).bind fun square => ih (n / 2) (by omega) acc square

theorem factor_lt {a b : Int} {m n : Nat} (hn : n ≠ 0) (h : (a * b ^ n).natAbs < m) :
    (a * b).natAbs < m := by
  refine Nat.lt_of_le_of_lt ?_ h
  rw [Int.natAbs_mul, Int.natAbs_mul, Int.natAbs_pow]
  exact Nat.mul_le_mul_left _ (Nat.le_self_pow hn _)

theorem square_lt {a b : Int} {m n : Nat} (hlive : b = 0 ∨ a ≠ 0) (hn : 2 ≤ n)
    (h : (a * b ^ n).natAbs < m) : (b * b).natAbs < m := by
  by_cases hb : b = 0
  · rw [hb]
    exact Nat.lt_of_le_of_lt (Nat.zero_le _) h
  · have ha : a ≠ 0 := hlive.resolve_left hb
    refine Nat.lt_of_le_of_lt ?_ h
    rw [Int.natAbs_mul, Int.natAbs_mul, Int.natAbs_pow, ← Nat.pow_two]
    calc b.natAbs ^ 2 ≤ b.natAbs ^ n := Nat.pow_le_pow_right (by omega) hn
      _ ≤ a.natAbs * b.natAbs ^ n := Nat.le_mul_of_pos_left _ (by omega)

/-- A power whose value is small is not given up: no product on the way is larger than the last. -/
theorem powerFrom_of_lt {n : Nat} (hlive : base.toInt = 0 ∨ acc.toInt ≠ 0)
    (h : (acc.toInt * base.toInt ^ n).natAbs < 2 ^ 127) : ∃ r, powerFrom acc base n = .ok r := by
  induction n using Nat.strongRecOn generalizing acc base with
  | ind n ih =>
    rw [powerFrom]
    by_cases hzero : n = 0
    · rw [if_pos hzero]
      exact ⟨acc, rfl⟩
    rw [if_neg hzero]
    obtain ⟨acc', hacc⟩ : ∃ r, absorb acc base n = .ok r := by
      unfold absorb
      split
      · exact ⟨_, (times_of_lt (factor_lt hzero h)).1⟩
      · exact ⟨acc, rfl⟩
    rw [hacc, Outcome.ok_bind]
    by_cases hone : n = 1
    · rw [if_pos hone]
      exact ⟨acc', rfl⟩
    obtain ⟨htimes, hvalue⟩ := times_of_lt (square_lt hlive (by omega) h)
    rw [if_neg hone, htimes, Outcome.ok_bind]
    have hacc := toInt_of_absorb hacc
    apply ih (n / 2) (by omega)
    · rw [hvalue, hacc]
      by_cases hbase : base.toInt = 0
      · exact .inl (by rw [hbase, mul_zero])
      · exact .inr (mul_ne_zero (hlive.resolve_left hbase) (pow_ne_zero _ hbase))
    · rwa [hvalue, hacc, mul_assoc, ← pow_split]

theorem toLiteral_powerFrom (x : Register) (n : Nat) :
    powerFrom 1 x n >>= toLiteral = (Number.exact (x.toInt ^ n)).toLiteral := by
  cases hpower : powerFrom 1 x n with
  | ok r =>
    show (Number.exact r.toInt).toLiteral = _
    rw [toInt_of_powerFrom hpower, show (1 : Register).toInt = 1 from rfl, one_mul]
  | error e =>
    rw [failsOnly_powerFrom 1 x n e hpower]
    refine (Number.toLiteral_of_not_isWord fun hword => ?_).symm
    have hsmall := natAbs_word hword
    have hsucceeds : ∃ r, powerFrom 1 x n = .ok r := by
      refine powerFrom_of_lt (.inr (by decide)) ?_
      rw [show (1 : Register).toInt = 1 from rfl, one_mul]
      omega
    obtain ⟨r, hr⟩ := hsucceeds
    rw [hr] at hpower
    cases hpower

/-- What overflows a register fits no word. -/
theorem not_isWord_of_overflow (h : (decide (k ≥ 2 ^ 127) || decide (k < -2 ^ 127)) = true) :
    ¬ IsWord k := by
  rw [Bool.or_eq_true, decide_eq_true_eq, decide_eq_true_eq] at h
  intro hword
  have hlow := hword.1
  have hhigh := hword.2
  omega

/-- Arithmetic in registers gives the literal that exact arithmetic gives. -/
theorem toLiteral_apply (op : BinaryOp) (hx : IsWord x.toInt) (y : Register) :
    apply op x y >>= toLiteral = Number.exactly op x.toInt y.toInt >>= Number.toLiteral := by
  have hzero : y = 0 ↔ (y.toInt == 0) = true := by
    rw [beq_iff_eq, ← BitVec.toInt_inj]
    rfl
  cases op with
  | add =>
    exact toLiteral_checked (fun h => BitVec.toInt_add_of_not_saddOverflow (by simp [h]))
      not_isWord_of_overflow
  | sub =>
    exact toLiteral_checked (fun h => BitVec.toInt_sub_of_not_ssubOverflow (by simp [h]))
      not_isWord_of_overflow
  | mul =>
    exact toLiteral_checked (fun h => BitVec.toInt_mul_of_not_smulOverflow (by simp [h]))
      not_isWord_of_overflow
  | div =>
    rw [apply, Number.exactly]
    by_cases h : y = 0
    · rw [if_pos h, if_pos (hzero.mp h)]
      rfl
    · rw [if_neg h, if_neg fun h' => h (hzero.mpr h')]
      show (Number.exact (x.sdiv y).toInt).toLiteral = _
      rw [toInt_sdiv_word hx]
      rfl
  | mod =>
    rw [apply, Number.exactly]
    by_cases h : y = 0
    · rw [if_pos h, if_pos (hzero.mp h)]
      rfl
    · rw [if_neg h, if_neg fun h' => h (hzero.mpr h')]
      show (Number.exact (x.srem y).toInt).toLiteral = _
      rw [BitVec.toInt_srem]
      rfl
  | pow =>
    by_cases h : y.toInt < 0 ∨ 0x100000000 ≤ y.toInt
    · rw [apply, if_pos h, Number.exactly, if_pos (by simpa using h)]
      rfl
    · have hn : (y.toInt.toNat : Int) = y.toInt := by omega
      rw [apply, if_neg h, toLiteral_powerFrom, ← Number.toLiteral_exactly_pow _ (by omega), hn]
  | _ => rfl

end Register
end Attest
