import Attest.Double.Text
import Attest.Proofs.Double.Nearest

/-!
The shortest decimal of a number lies in its rounding interval.

The search takes a point of a grid only if it lies in the interval, so what has to be shown is that
it finds one.  On the grid of seventeen digits the unit is smaller than the interval, and then one
of the two neighbours of the number lies in it.
-/

namespace Attest

namespace Double

theorem digitsValue_eq (cs : List Char) : digitsValue cs = Nat.ofDigitChars 10 cs 0 := by
  simp only [digitsValue, Nat.ofDigitChars, Nat.mul_comm]

theorem digitsValue_append (cs ds : List Char) :
    digitsValue (cs ++ ds) = digitsValue cs * 10 ^ ds.length + digitsValue ds := by
  rw [digitsValue_eq, digitsValue_eq, digitsValue_eq, Nat.ofDigitChars_append,
    Nat.ofDigitChars_eq_ofDigitChars_zero, Nat.mul_comm]

theorem digitsValue_replicate_zero (n : Nat) : digitsValue (List.replicate n '0') = 0 := by
  rw [digitsValue_eq, Nat.ofDigitChars_replicate_zero, Nat.mul_zero]

theorem digitsValue_toDigits (n : Nat) : digitsValue (Nat.toDigits 10 n) = n := by
  rw [digitsValue_eq, Nat.ofDigitChars_ten_toDigits]

end Double

namespace Decimal

def value (d : Decimal) : ℚ :=
  Double.digitsValue d.digits * 10 ^ (d.exponent + 1 - d.digits.length)

/-- The digits are decimal ones and there is one. -/
structure Proper (d : Decimal) : Prop where
  nonempty : d.digits ≠ []
  digit : ∀ c ∈ d.digits, c.isDigit = true

end Decimal

namespace Shortest

/-- The digits of a number are its significant ones and zeros. -/
theorem toDigits_eq_significant (n : Nat) :
    Nat.toDigits 10 n = significant n ++
      List.replicate ((Nat.toDigits 10 n).length - (significant n).length) '0' := by
  have hsplit : Nat.toDigits 10 n =
      significant n ++ ((Nat.toDigits 10 n).reverse.takeWhile (· == '0')).reverse := by
    have := List.takeWhile_append_dropWhile (p := (· == '0')) (l := (Nat.toDigits 10 n).reverse)
    have := congrArg List.reverse this
    rw [List.reverse_append, List.reverse_reverse] at this
    exact this.symm
  have hzeros : ((Nat.toDigits 10 n).reverse.takeWhile (· == '0')).reverse =
      List.replicate ((Nat.toDigits 10 n).length - (significant n).length) '0' := by
    rw [List.eq_replicate_iff]
    constructor
    · have := congrArg List.length hsplit
      rw [List.length_append] at this
      omega
    · intro c hc
      have := List.mem_takeWhile_imp (List.mem_reverse.mp hc)
      simpa using this
  rw [← hzeros]
  exact hsplit

theorem value_significant (n : Nat) (unit : Int) :
    (⟨significant n, unit + ((Nat.toDigits 10 n).length : Int) - 1⟩ : Decimal).value =
      n * 10 ^ unit := by
  have hd := toDigits_eq_significant n
  have hlen : (significant n).length ≤ (Nat.toDigits 10 n).length := by
    have := congrArg List.length hd
    rw [List.length_append, List.length_replicate] at this
    omega
  have hv : n = Double.digitsValue (significant n) *
      10 ^ ((Nat.toDigits 10 n).length - (significant n).length) := by
    conv_lhs => rw [← Double.digitsValue_toDigits n, hd]
    rw [Double.digitsValue_append, Double.digitsValue_replicate_zero, List.length_replicate,
      Nat.add_zero]
  unfold Decimal.value
  conv_rhs => rw [hv]
  push_cast
  rw [mul_assoc, ← zpow_natCast, ← zpow_add₀ (by norm_num)]
  congr 2
  push_cast [Nat.cast_sub hlen]
  ring

theorem proper_significant {n : Nat} (hn : 0 < n) (e : Int) :
    (⟨significant n, e⟩ : Decimal).Proper := by
  have hd := toDigits_eq_significant n
  constructor
  · intro he
    have hv := Double.digitsValue_toDigits n
    rw [hd, show significant n = [] from he, List.nil_append,
      Double.digitsValue_replicate_zero] at hv
    omega
  · intro c hc
    refine Nat.isDigit_of_mem_toDigits (by decide) (by decide) (n := n) (b := 10) ?_
    rw [hd]
    exact List.mem_append_left _ hc

/-- A power with either sign of the exponent, split into a numerator and a denominator. -/
theorem pow_natAbs (b : Nat) (hb : 0 < b) (e : Int) :
    ((if e < 0 then 1 else Nat.pow b e.natAbs : Nat) : ℚ) =
      (b : ℚ) ^ e * (if e < 0 then Nat.pow b e.natAbs else 1 : Nat) := by
  have hb' : (b : ℚ) ≠ 0 := by exact_mod_cast Nat.ne_of_gt hb
  split
  · next he =>
    have hp : (b : ℚ) ^ e = ((b : ℚ) ^ e.natAbs)⁻¹ := by
      rw [← zpow_natCast, ← zpow_neg]
      congr 1
      omega
    rw [hp, Nat.pow_eq, Nat.cast_pow, Nat.cast_one, inv_mul_cancel₀ (pow_ne_zero _ hb')]
  · next he =>
    have hp : (b : ℚ) ^ e = b ^ e.natAbs := by
      rw [← zpow_natCast]
      congr 1
      omega
    rw [hp, Nat.pow_eq, Nat.cast_pow, Nat.cast_one, mul_one]

end Shortest

namespace Double

open BinaryFormat

/-- The significand and exponent of a number other than zero are those the format holds. -/
theorem canonical_parts {x : Double} (hz : x.isZero = false) :
    binary64.Canonical x.parts.1 x.parts.2 := by
  have hm : x.magnitude ≠ 0 := by simpa [isZero] using hz
  unfold parts
  constructor <;> dsimp only [binary64] <;> split <;> simp_all <;> omega

theorem magnitude_parts (x : Double) :
    (x.parts.2 + 1074).toNat * 2 ^ 52 + x.parts.1 = x.magnitude := by
  unfold parts
  dsimp only
  split <;> simp_all
  omega

theorem exponent_parts_le (x : Double) : x.parts.2 ≤ 972 := by
  have hm : x.magnitude < 0x8000000000000000 := Nat.mod_lt _ (by decide)
  unfold parts
  dsimp only
  split <;> simp only [] <;> omega

end Double

namespace Shortest

open BinaryFormat

section Target

variable {x : Double}

theorem scale_target_pos (x : Double) : 0 < (target x).scale := by
  unfold target
  dsimp only
  split
  · exact Nat.pow_pos (by decide)
  · decide

/-- A quarter of the unit of a number. -/
theorem quarter (q : Int) : (2 : ℚ) ^ (q - 2) = 2 ^ q / 4 := by
  rw [zpow_sub₀ (by norm_num)]
  norm_num

theorem value_target (x : Double) :
    ((target x).value : ℚ) = x.parts.1 * 2 ^ x.parts.2 * (target x).scale := by
  have hk := pow_natAbs 2 (by decide) (x.parts.2 - 2)
  rw [Nat.cast_ofNat, quarter] at hk
  unfold target
  dsimp only
  rw [Nat.cast_mul, hk]
  push_cast
  ring

theorem high_target (x : Double) :
    ((target x).high : ℚ) = (x.parts.1 + 1 / 2) * 2 ^ x.parts.2 * (target x).scale := by
  have hk := pow_natAbs 2 (by decide) (x.parts.2 - 2)
  rw [Nat.cast_ofNat, quarter] at hk
  unfold target
  dsimp only
  rw [Nat.cast_mul, hk]
  push_cast
  ring

theorem low_target (hz : x.isZero = false) :
    ((target x).low : ℚ) =
      (x.parts.1 - binary64.reach x.parts.1 x.parts.2) * 2 ^ x.parts.2 * (target x).scale := by
  have hpos := (Double.canonical_parts hz).pos
  have hk := pow_natAbs 2 (by decide) (x.parts.2 - 2)
  rw [Nat.cast_ofNat, quarter] at hk
  have hreach : (4 : ℚ) * binary64.reach x.parts.1 x.parts.2 =
      (if x.parts.1 == 0x10000000000000 && -1074 < x.parts.2 then 1 else 2 : Nat) := by
    by_cases hb : x.parts.1 = 2 ^ (binary64.precision - 1) ∧ binary64.least < x.parts.2
    · rw [reach, if_pos hb, if_pos (by simpa [binary64] using hb)]
      norm_num
    · rw [reach, if_neg hb, if_neg (by simpa [binary64] using hb)]
      norm_num
  unfold target
  dsimp only
  rw [Nat.cast_mul, hk, Nat.cast_sub (by split <;> omega), ← hreach]
  push_cast
  ring

/-- What a target holds rounds to the number. -/
theorem rounds_of_holds (hz : x.isZero = false) {num den n : Nat} (hd : 0 < den)
    (h : (target x).holds num den n = true) :
    binary64.Rounds (n * (num / den : ℚ)) x.parts.1 x.parts.2 := by
  have hs : (0 : ℚ) < (target x).scale := by exact_mod_cast scale_target_pos x
  have hdq : (0 : ℚ) < den := by exact_mod_cast hd
  have hlow := low_target hz
  have hhigh := high_target x
  set r := binary64.reach x.parts.1 x.parts.2
  set t := target x
  have hparity : t.closed = (x.parts.1 % 2 == 0) := rfl
  have hcast : (n * (num / den : ℚ)) * den * t.scale = n * num * t.scale := by
    field_simp
  -- both comparisons, cleared of the scale and the denominator
  have hle : t.low * den ≤ n * num * t.scale ↔
      (x.parts.1 - r) * 2 ^ x.parts.2 ≤ n * (num / den : ℚ) := by
    rw [← mul_le_mul_iff_left₀ (mul_pos hdq hs), ← mul_assoc, ← mul_assoc, hcast,
      mul_right_comm _ (den : ℚ), ← hlow]
    exact_mod_cast Iff.rfl
  have hlt : t.low * den < n * num * t.scale ↔
      (x.parts.1 - r) * 2 ^ x.parts.2 < n * (num / den : ℚ) := by
    rw [← mul_lt_mul_iff_left₀ (mul_pos hdq hs), ← mul_assoc, ← mul_assoc, hcast,
      mul_right_comm _ (den : ℚ), ← hlow]
    exact_mod_cast Iff.rfl
  have hge : n * num * t.scale ≤ t.high * den ↔
      n * (num / den : ℚ) ≤ (x.parts.1 + 1 / 2) * 2 ^ x.parts.2 := by
    rw [← mul_le_mul_iff_left₀ (mul_pos hdq hs), ← mul_assoc, ← mul_assoc, hcast,
      mul_right_comm _ (den : ℚ), ← hhigh]
    exact_mod_cast Iff.rfl
  have hgt : n * num * t.scale < t.high * den ↔
      n * (num / den : ℚ) < (x.parts.1 + 1 / 2) * 2 ^ x.parts.2 := by
    rw [← mul_lt_mul_iff_left₀ (mul_pos hdq hs), ← mul_assoc, ← mul_assoc, hcast,
      mul_right_comm _ (den : ℚ), ← hhigh]
    exact_mod_cast Iff.rfl
  unfold Target.holds at h
  rw [hparity] at h
  split at h
  · next heven =>
    simp only [Bool.and_eq_true, decide_eq_true_eq] at h
    refine ⟨hle.mp h.1, hge.mp h.2, fun hodd => ?_⟩
    simp only [beq_iff_eq] at heven
    omega
  · simp only [Bool.and_eq_true, decide_eq_true_eq] at h
    have h₁ := hlt.mp h.1
    have h₂ := hgt.mp h.2
    exact ⟨h₁.le, h₂.le, fun _ => ⟨h₁, h₂⟩⟩

end Target

section Grid

variable {t : Target} {tie : Tie} {num den n : Nat}

theorem holds_of_onGrid (h : t.onGrid tie num den = some n) :
    0 < n ∧ t.holds num den n = true := by
  unfold Target.onGrid at h
  generalize t.value * den / (num * t.scale) = down at h
  generalize t.value * den % (num * t.scale) = rest at h
  grind

theorem holds_of_inside (h₁ : t.low * den < n * num * t.scale)
    (h₂ : n * num * t.scale < t.high * den) : t.holds num den n = true := by
  unfold Target.holds
  split
  · simp [h₁.le, h₂.le]
  · simp [h₁, h₂]

/-- A grid whose unit is smaller than the interval, and not larger than the value, has a point in
the interval. -/
theorem onGrid_isSome (hscale : 0 < t.scale) (hnum : 0 < num) (hden : 0 < den)
    (hlow : t.low < t.value) (hhigh : t.value < t.high)
    (hle : num * t.scale ≤ t.value * den)
    (hwidth : num * t.scale + t.low * den < t.high * den) :
    (t.onGrid tie num den).isSome = true := by
  have hunit : 0 < num * t.scale := Nat.mul_pos hnum hscale
  have hlow' : t.low * den < t.value * den := Nat.mul_lt_mul_of_pos_right hlow hden
  have hhigh' : t.value * den < t.high * den := Nat.mul_lt_mul_of_pos_right hhigh hden
  have hdown : 0 < t.value * den / (num * t.scale) := Nat.div_pos hle hunit
  have hsplit := Nat.div_add_mod (t.value * den) (num * t.scale)
  have hrest := Nat.mod_lt (t.value * den) hunit
  unfold Target.onGrid
  generalize t.value * den / (num * t.scale) = down at *
  generalize t.value * den % (num * t.scale) = rest at *
  have hhere : down * num * t.scale + rest = t.value * den := by
    rw [← hsplit, Nat.mul_assoc, Nat.mul_comm down]
  have hnext : (down + 1) * num * t.scale = down * num * t.scale + num * t.scale := by ring
  by_cases hin : t.low * den < down * num * t.scale
  · have hh : t.holds num den down = true := holds_of_inside hin (by omega)
    simp only [hh, hdown, decide_true, Bool.and_self, Bool.true_and, if_true]
    split_ifs <;> rfl
  · have hne : rest ≠ 0 := by omega
    have hh : t.holds num den (down + 1) = true := holds_of_inside (by omega) (by omega)
    simp only [hh, beq_iff_eq, hne, if_false, Bool.and_true, if_true]
    split_ifs <;> rfl

end Grid

section Leading

variable {t : Target}

/-- The test of the search for the first digit, as one comparison. -/
theorem fits_iff (t : Target) (e : Int) :
    (if e < 0 then t.scale ≤ t.value * Nat.pow 10 e.natAbs
      else t.scale * Nat.pow 10 e.natAbs ≤ t.value) ↔ (10 : ℚ) ^ e * t.scale ≤ t.value := by
  have hp := pow_natAbs 10 (by decide) e
  rw [Nat.cast_ofNat] at hp
  have hpos : (0 : ℚ) < (Nat.pow 10 e.natAbs : Nat) := by
    exact_mod_cast Nat.pow_pos (by decide)
  by_cases he : e < 0
  · rw [if_pos he, if_pos he, Nat.cast_one] at hp
    rw [if_pos he, ← mul_le_mul_iff_left₀ hpos, mul_right_comm, ← hp, one_mul]
    exact_mod_cast Iff.rfl
  · rw [if_neg he, if_neg he, Nat.cast_one, mul_one] at hp
    rw [if_neg he, ← hp, mul_comm]
    exact_mod_cast Iff.rfl

/-- The search for the first digit ends at a power of ten that the value reaches, if the lowest
power tried is one. -/
theorem leading_le (n : Nat) (e : Int) (h : (10 : ℚ) ^ (e - n) * t.scale ≤ t.value) :
    (10 : ℚ) ^ t.leading n e * t.scale ≤ t.value := by
  induction n generalizing e with
  | zero => simpa [Target.leading] using h
  | succ n ih =>
    have hstep : t.leading (n + 1) e =
        if (10 : ℚ) ^ e * t.scale ≤ t.value then e else t.leading n (e - 1) :=
      if_congr (fits_iff t e) rfl rfl
    rw [hstep]
    by_cases hfits : (10 : ℚ) ^ e * t.scale ≤ t.value
    · rwa [if_pos hfits]
    · rw [if_neg hfits]
      refine ih (e - 1) (le_of_eq_of_le ?_ h)
      congr 2
      push_cast
      ring

theorem ten_pow_le_two_pow (s : Fin 1025) : 10 ^ (s.val * 30103 / 100000) ≤ 1000 * 2 ^ s.val := by
  revert s
  decide +kernel

theorem two_pow_le_ten_pow (s : Fin 1075) :
    2 ^ s.val ≤ 10 ^ ((s.val * 30103 + 99999) / 100000 + 3) := by
  revert s
  decide +kernel

/-- Three places below what the binary exponent tells, the power of ten is reached. -/
theorem estimate_le {s : Int} (hlow : -1074 ≤ s) (hhigh : s ≤ 1024) :
    (10 : ℚ) ^ (s * 30103 / 100000 + 1 - (4 : Nat)) ≤ 2 ^ s := by
  rcases le_or_gt 0 s with h | h
  · obtain ⟨n, rfl⟩ := Int.eq_ofNat_of_zero_le h
    have hn := ten_pow_le_two_pow ⟨n, by omega⟩
    have hexp : (n : Int) * 30103 / 100000 + 1 - (4 : Nat) = (n * 30103 / 100000 : Nat) - 3 := by
      push_cast
      ring
    rw [hexp, zpow_sub₀ (by norm_num), zpow_natCast, zpow_natCast]
    have hq : (10 : ℚ) ^ (n * 30103 / 100000) ≤ 1000 * 2 ^ n := by exact_mod_cast hn
    rw [div_le_iff₀ (by positivity)]
    norm_num
    linarith
  · obtain ⟨n, rfl⟩ : ∃ n : Nat, s = -n := ⟨s.natAbs, by omega⟩
    have hn := two_pow_le_ten_pow ⟨n, by omega⟩
    have hexp : -(n : Int) * 30103 / 100000 + 1 - (4 : Nat) =
        -(((n * 30103 + 99999) / 100000 + 3 : Nat) : Int) := by
      push_cast
      omega
    rw [hexp, zpow_neg, zpow_neg, zpow_natCast, zpow_natCast]
    have hq : (2 : ℚ) ^ n ≤ 10 ^ ((n * 30103 + 99999) / 100000 + 3) := by exact_mod_cast hn
    exact inv_anti₀ (by positivity) hq

end Leading

/-- The point that stands for a target on the grid of a power of ten. -/
def Target.atPower (t : Target) (tie : Tie) (unit : Int) : Option Nat :=
  t.onGrid tie (if unit < 0 then 1 else Nat.pow 10 unit.natAbs)
    (if unit < 0 then Nat.pow 10 unit.natAbs else 1)

/-- The search answers with a point of a grid, if one of the grids it tries has one. -/
theorem search_eq {t : Target} {tie : Tie} {first : Int} (fuel count c : Nat)
    (hlow : count ≤ c) (hhigh : c < count + fuel)
    (hfound : (t.atPower tie (first - (c : Int) + 1)).isSome = true) :
    ∃ (unit : Int) (n : Nat), t.atPower tie unit = some n ∧
      t.search tie first fuel count =
        ⟨significant n, unit + ((Nat.toDigits 10 n).length : Int) - 1⟩ := by
  induction fuel generalizing count with
  | zero => omega
  | succ fuel ih =>
    unfold Target.search
    dsimp only
    split
    · next n hn => exact ⟨_, n, hn, rfl⟩
    · next hnone =>
      have hne : count ≠ c := by
        rintro rfl
        have hat : t.atPower tie (first - (count : Int) + 1) = none := hnone
        rw [hat] at hfound
        cases hfound
      exact ih (count + 1) (by omega) (by omega)

/-- The significand over ten to the sixteenth is less than the width of the rounding interval. -/
theorem significand_lt_width {m : Nat} {q : Int} (hc : binary64.Canonical m q) :
    (m : ℚ) < (1 / 2 + binary64.reach m q) * 10 ^ 16 := by
  unfold reach
  split
  · next h =>
    rw [h.1]
    norm_num [binary64]
  · have hm : (m : ℚ) < (2 * 2 ^ (binary64.precision - 1) : Nat) := by exact_mod_cast hc.lt
    refine lt_trans hm ?_
    norm_num [binary64]

theorem low_lt_value {x : Double} (hz : x.isZero = false) : (target x).low < (target x).value := by
  have hs : (0 : ℚ) < (target x).scale := by exact_mod_cast scale_target_pos x
  have hreach := binary64.reach_pos x.parts.1 x.parts.2
  have : ((target x).low : ℚ) < (target x).value := by
    rw [low_target hz, value_target]
    refine mul_lt_mul_of_pos_right (mul_lt_mul_of_pos_right ?_ (by positivity)) hs
    linarith
  exact_mod_cast this

theorem value_lt_high (x : Double) : (target x).value < (target x).high := by
  have hs : (0 : ℚ) < (target x).scale := by exact_mod_cast scale_target_pos x
  have : ((target x).value : ℚ) < (target x).high := by
    rw [value_target, high_target]
    refine mul_lt_mul_of_pos_right (mul_lt_mul_of_pos_right ?_ (by positivity)) hs
    linarith
  exact_mod_cast this

/-- A unit sixteen places below a number, on the scale of its target, is less than the width. -/
theorem unit_lt_width {x : Double} (hz : x.isZero = false) {u : ℚ}
    (hu : u * 10 ^ 16 * (target x).scale ≤ (target x).value) :
    u * (target x).scale + (target x).low < (target x).high := by
  have hs : (0 : ℚ) < (target x).scale := by exact_mod_cast scale_target_pos x
  have hq : (0 : ℚ) < 2 ^ x.parts.2 := by positivity
  have hm : u * 10 ^ 16 ≤ x.parts.1 * 2 ^ x.parts.2 := by
    rw [value_target] at hu
    exact le_of_mul_le_mul_right hu hs
  have hwidth : u < (1 / 2 + binary64.reach x.parts.1 x.parts.2) * 2 ^ x.parts.2 := by
    have := mul_lt_mul_of_pos_right (significand_lt_width (Double.canonical_parts hz)) hq
    linarith
  have := mul_lt_mul_of_pos_right hwidth hs
  rw [low_target hz, high_target]
  linarith

/-- On the grid of seventeen digits there is always a point. -/
theorem atPower_isSome {x : Double} (hz : x.isZero = false) (tie : Tie) {first : Int}
    (hfirst : (10 : ℚ) ^ first * (target x).scale ≤ (target x).value) :
    ((target x).atPower tie (first - 16)).isSome = true := by
  have hs : (0 : ℚ) < (target x).scale := by exact_mod_cast scale_target_pos x
  have hunit : (10 : ℚ) ^ first = 10 ^ (first - 16) * 10 ^ 16 := by
    rw [← zpow_natCast, ← zpow_add₀ (by norm_num)]
    norm_num
  rw [hunit] at hfirst
  have hlt := unit_lt_width hz hfirst
  have hupos : (0 : ℚ) < 10 ^ (first - 16) := by positivity
  have hnum := pow_natAbs 10 (by decide) (first - 16)
  rw [Nat.cast_ofNat] at hnum
  unfold Target.atPower
  have hden : 0 < (if first - 16 < 0 then Nat.pow 10 (first - 16).natAbs else 1) := by
    split
    · exact Nat.pow_pos (by decide)
    · decide
  -- from here on the unit of the grid is any ratio
  generalize (if first - 16 < 0 then Nat.pow 10 (first - 16).natAbs else 1) = den at *
  generalize (if first - 16 < 0 then 1 else Nat.pow 10 (first - 16).natAbs) = num at *
  generalize (10 : ℚ) ^ (first - 16) = u at *
  have hdq : (0 : ℚ) < den := by exact_mod_cast hden
  have hle : u * (target x).scale ≤ (target x).value :=
    le_trans (mul_le_mul_of_nonneg_right (by linarith) hs.le) hfirst
  apply onGrid_isSome (scale_target_pos x) ?_ hden (low_lt_value hz) (value_lt_high x)
  · have : (num * (target x).scale : ℚ) ≤ (target x).value * den := by
      rw [hnum, mul_right_comm]
      exact mul_le_mul_of_nonneg_right hle hdq.le
    exact_mod_cast this
  · have : (num * (target x).scale + (target x).low * den : ℚ) < (target x).high * den := by
      rw [hnum, mul_right_comm, ← add_mul]
      exact mul_lt_mul_of_pos_right hlt hdq
    exact_mod_cast this
  · have : (0 : ℚ) < num := by rw [hnum]; exact mul_pos hupos hdq
    exact_mod_cast this

end Shortest

namespace Double

open BinaryFormat Shortest

/-- The first digit that the search starts from is one that the number reaches. -/
theorem leading_estimate {x : Double} (hz : x.isZero = false) :
    (10 : ℚ) ^ (target x).leading 4
        (((x.parts.1.log2 : Int) + x.parts.2) * 30103 / 100000 + 1) * (target x).scale ≤
      (target x).value := by
  have hc := canonical_parts hz
  have hpos := hc.pos
  have hlog : x.parts.1.log2 < 53 := by
    rw [Nat.log2_lt (by omega)]
    exact hc.lt
  have hexp := exponent_parts_le x
  have hleast : -1074 ≤ x.parts.2 := hc.least
  apply leading_le
  have hs : (0 : ℚ) < (target x).scale := by exact_mod_cast scale_target_pos x
  rw [value_target]
  refine mul_le_mul_of_nonneg_right ?_ hs.le
  calc (10 : ℚ) ^ (((x.parts.1.log2 : Int) + x.parts.2) * 30103 / 100000 + 1 - (4 : Nat))
      ≤ 2 ^ ((x.parts.1.log2 : Int) + x.parts.2) := estimate_le (by omega) (by omega)
    _ = 2 ^ x.parts.1.log2 * 2 ^ x.parts.2 := by rw [zpow_add₀ (by norm_num), zpow_natCast]
    _ ≤ x.parts.1 * 2 ^ x.parts.2 := by
        have : (2 : ℚ) ^ x.parts.1.log2 ≤ x.parts.1 := by
          exact_mod_cast Nat.log2_self_le (by omega)
        exact mul_le_mul_of_nonneg_right this (by positivity)

/-- The shortest decimal of a number rounds to the number. -/
theorem shortest_rounds {x : Double} (hz : x.isZero = false) (tie : Tie) :
    (x.shortest tie).Proper ∧
      binary64.Rounds (x.shortest tie).value x.parts.1 x.parts.2 := by
  have hshort : x.shortest tie = (target x).search tie ((target x).leading 4
      (((x.parts.1.log2 : Int) + x.parts.2) * 30103 / 100000 + 1)) 17 1 := by
    unfold shortest
    rw [if_neg (by simp [hz])]
  have hfirst := leading_estimate hz
  rw [hshort]
  generalize (target x).leading 4 _ = first at *
  have hsome : ((target x).atPower tie (first - ((17 : Nat) : Int) + 1)).isSome = true := by
    have := atPower_isSome hz tie hfirst
    rwa [show first - ((17 : Nat) : Int) + 1 = first - 16 by push_cast; ring]
  obtain ⟨unit, n, hat, hsearch⟩ := search_eq 17 1 17 (by decide) (by decide) hsome
  rw [hsearch]
  obtain ⟨hn, hholds⟩ := holds_of_onGrid hat
  refine ⟨proper_significant hn _, ?_⟩
  have hden : 0 < (if unit < 0 then Nat.pow 10 unit.natAbs else 1) := by
    split
    · exact Nat.pow_pos (by decide)
    · decide
  have hnum := pow_natAbs 10 (by decide) unit
  rw [Nat.cast_ofNat] at hnum
  have hrounds := rounds_of_holds hz hden hholds
  rwa [hnum, mul_div_assoc, div_self (by exact_mod_cast Nat.ne_of_gt hden), mul_one,
    ← value_significant] at hrounds

end Double
end Attest
