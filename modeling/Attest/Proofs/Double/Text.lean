import Attest.Proofs.Double.Shortest

/-!
The literal of a finite number reads back as the number.
-/

namespace Attest

open BinaryFormat

namespace Decimal

/-- Digits before a point and behind it, at least one on either side. -/
structure Spelled (whole fraction : List Char) : Prop where
  whole_ne : whole ≠ []
  fraction_ne : fraction ≠ []
  digit : ∀ c ∈ whole ++ fraction, c.isDigit = true

/-- The number that digits before a point and behind it spell. -/
def spelled (whole fraction : List Char) : ℚ :=
  Double.digitsValue (whole ++ fraction) * 10 ^ (-(fraction.length : Int))

theorem spelled_zeros_append (k : Nat) (ds : List Char) :
    spelled ['0'] (List.replicate k '0' ++ ds) =
      Double.digitsValue ds * 10 ^ (-(k + ds.length : Int)) := by
  have hzeros : ['0'] ++ (List.replicate k '0' ++ ds) = List.replicate (k + 1) '0' ++ ds := by
    rw [List.replicate_succ]
    rfl
  rw [spelled, hzeros, Double.digitsValue_append, Double.digitsValue_replicate_zero, Nat.zero_mul,
    Nat.zero_add, List.length_append, List.length_replicate, Nat.cast_add]

theorem spelled_append_zeros (ds : List Char) (k : Nat) :
    spelled (ds ++ List.replicate k '0') ['0'] = Double.digitsValue ds * 10 ^ (k : Int) := by
  have hzeros : ds ++ List.replicate k '0' ++ ['0'] = ds ++ List.replicate (k + 1) '0' := by
    rw [List.replicate_succ', List.append_assoc]
  rw [spelled, hzeros, Double.digitsValue_append, Double.digitsValue_replicate_zero,
    List.length_replicate, Nat.add_zero, Nat.cast_mul, mul_assoc, Nat.cast_pow, Nat.cast_ofNat,
    ← zpow_natCast, ← zpow_add₀ (by norm_num), List.length_singleton]
  congr 2
  push_cast
  omega

theorem spelled_take_drop (ds : List Char) (k : Nat) :
    spelled (ds.take k) (ds.drop k) =
      Double.digitsValue ds * 10 ^ (-((ds.length - k : Nat) : Int)) := by
  rw [spelled, List.take_append_drop, List.length_drop]

/-- Laid out with a point, a decimal keeps its value. -/
theorem positional_eq {d : Decimal} (hd : d.Proper) :
    ∃ whole fraction, Spelled whole fraction ∧ spelled whole fraction = d.value ∧
      d.positional true = String.ofList (whole ++ '.' :: fraction) := by
  have hlen : 0 < d.digits.length := List.length_pos_iff.mpr hd.nonempty
  have hzero {c : Char} {k : Nat} (hc : c ∈ List.replicate k '0') : c.isDigit = true := by
    rw [List.eq_of_mem_replicate hc]
    decide
  unfold positional value
  dsimp only
  split
  · next he =>
    refine ⟨['0'], List.replicate (d.exponent.natAbs - 1) '0' ++ d.digits,
      ⟨by simp, by simp [hd.nonempty], fun c hc => ?_⟩, ?_, ?_⟩
    · rw [List.singleton_append] at hc
      rcases List.mem_cons.mp hc with rfl | hc
      · decide
      · exact (List.mem_append.mp hc).elim hzero (hd.digit c)
    · rw [spelled_zeros_append]
      congr 2
      omega
    · rw [show "0." = String.ofList ['0', '.'] from rfl, ← String.ofList_append]
      rfl
  · split
    · next he hle =>
      refine ⟨d.digits ++ List.replicate (d.exponent + 1 - d.digits.length).toNat '0', ['0'],
        ⟨by simp [hd.nonempty], by simp, fun c hc => ?_⟩, ?_, ?_⟩
      · rw [List.append_assoc, ← List.replicate_succ'] at hc
        exact (List.mem_append.mp hc).elim (hd.digit c) hzero
      · rw [spelled_append_zeros]
        congr 2
        omega
      · rw [if_pos rfl, show ".0" = String.ofList ['.', '0'] from rfl, ← String.ofList_append]
    · next he hle =>
      refine ⟨d.digits.take (d.exponent + 1).toNat, d.digits.drop (d.exponent + 1).toNat,
        ⟨?_, ?_, ?_⟩, ?_, ?_⟩
      · rw [Ne, List.take_eq_nil_iff]
        push Not
        exact ⟨by omega, hd.nonempty⟩
      · rw [Ne, List.drop_eq_nil_iff]
        omega
      · rw [List.take_append_drop]
        exact hd.digit
      · rw [spelled_take_drop]
        congr 2
        omega
      · rw [show "." = String.ofList ['.'] from rfl, ← String.ofList_append,
          ← String.ofList_append, List.append_assoc]
        rfl

end Decimal

namespace Double

theorem exponent_parts_lt {x : Double} (hf : x.isFinite = true) : x.parts.2 < 972 := by
  have hm : x.magnitude < 0x7ff0000000000000 := of_decide_eq_true hf
  unfold parts
  dsimp only
  split <;> simp only [] <;> omega

/-- Powers of ten around a number with so many digits. -/
theorem toDigits_bounds {m : Nat} (hm : 0 < m) (e : Int) :
    (10 : ℚ) ^ (e + (Nat.toDigits 10 m).length - 1) ≤ m * 10 ^ e ∧
      (m : ℚ) * 10 ^ e < 10 ^ (e + (Nat.toDigits 10 m).length) := by
  have hpos : 0 < (Nat.toDigits 10 m).length := Nat.length_toDigits_pos
  have hlt : m < 10 ^ (Nat.toDigits 10 m).length :=
    (Nat.length_toDigits_le_iff (by decide) hpos).mp le_rfl
  have hle : 10 ^ ((Nat.toDigits 10 m).length - 1) ≤ m := by
    rcases Nat.eq_zero_or_pos ((Nat.toDigits 10 m).length - 1) with h | h
    · rw [h]
      exact hm
    · by_contra hc
      have := (Nat.length_toDigits_le_iff (by decide) h).mpr (Nat.lt_of_not_le hc)
      omega
  have hlt' : (m : ℚ) < 10 ^ (Nat.toDigits 10 m).length := by exact_mod_cast hlt
  have hle' : (10 : ℚ) ^ ((Nat.toDigits 10 m).length - 1) ≤ m := by exact_mod_cast hle
  have he : (0 : ℚ) < 10 ^ e := by positivity
  constructor
  · rw [show e + ((Nat.toDigits 10 m).length : Int) - 1 =
      (((Nat.toDigits 10 m).length - 1 : Nat) : Int) + e by omega, zpow_add₀ (by norm_num),
      zpow_natCast]
    exact mul_le_mul_of_nonneg_right hle' he.le
  · rw [add_comm, zpow_add₀ (by norm_num), zpow_natCast]
    exact mul_lt_mul_of_pos_right hlt' he

/-- What rounds to a finite number lies between the powers of ten that are answered at once. -/
theorem rounds_bounds {x : Double} (hz : x.isZero = false) (hf : x.isFinite = true) {v : ℚ}
    (h : binary64.Rounds v x.parts.1 x.parts.2) :
    (10 : ℚ) ^ (-325 : Int) < v ∧ v < 10 ^ (310 : Int) := by
  have hc := canonical_parts hz
  have hm : (1 : ℚ) ≤ x.parts.1 := by exact_mod_cast hc.pos
  have hm' : (x.parts.1 : ℚ) + 1 ≤ (2 * 2 ^ (binary64.precision - 1) : Nat) := by
    exact_mod_cast hc.lt
  have hr := binary64.reach_le x.parts.1 x.parts.2
  have hq : (0 : ℚ) < 2 ^ x.parts.2 := by positivity
  constructor
  · have hpow : (2 : ℚ) ^ 1075 < 10 ^ 325 := by
      exact_mod_cast (by decide +kernel : (2 : Nat) ^ 1075 < 10 ^ 325)
    calc (10 : ℚ) ^ (-325 : Int) < 2 ^ (-1075 : Int) := by
          rw [zpow_neg, zpow_neg]
          exact inv_strictAnti₀ (by positivity) hpow
      _ = 1 / 2 * 2 ^ (-1074 : Int) := by
          rw [show (-1075 : Int) = -1 + -1074 by norm_num, zpow_add₀ (by norm_num)]
          norm_num
      _ ≤ 1 / 2 * 2 ^ x.parts.2 :=
          mul_le_mul_of_nonneg_left (zpow_le_zpow_right₀ (by norm_num) hc.least) (by norm_num)
      _ ≤ (x.parts.1 - binary64.reach x.parts.1 x.parts.2) * 2 ^ x.parts.2 :=
          mul_le_mul_of_nonneg_right (by linarith) hq.le
      _ ≤ v := h.lower
  · have hexp := exponent_parts_lt hf
    calc v ≤ (x.parts.1 + 1 / 2) * 2 ^ x.parts.2 := h.upper
      _ ≤ (2 * 2 ^ (binary64.precision - 1) : Nat) * 2 ^ x.parts.2 :=
          mul_le_mul_of_nonneg_right (by linarith) hq.le
      _ ≤ (2 * 2 ^ (binary64.precision - 1) : Nat) * 2 ^ (971 : Int) :=
          mul_le_mul_of_nonneg_left (zpow_le_zpow_right₀ (by norm_num) (by omega)) (by positivity)
      _ < 10 ^ (310 : Int) := by
          exact_mod_cast (by decide +kernel :
            2 * 2 ^ (binary64.precision - 1) * 2 ^ 971 < 10 ^ 310)

/-- A decimal in the rounding interval of a finite number reads as its magnitude. -/
theorem ofDecimal_of_rounds {x : Double} (hz : x.isZero = false) (hf : x.isFinite = true)
    {m : Nat} {e : Int} (h : binary64.Rounds (m * 10 ^ e) x.parts.1 x.parts.2) :
    ofDecimal m e = ofBits x.magnitude := by
  obtain ⟨hlow, hhigh⟩ := rounds_bounds hz hf h
  have hm : 0 < m := by
    by_contra hm
    rw [show m = 0 by omega, Nat.cast_zero, zero_mul] at hlow
    have : (0 : ℚ) < 10 ^ (-325 : Int) := by positivity
    linarith
  obtain ⟨hge, hlt⟩ := toDigits_bounds hm e
  have hbig : e + (Nat.toDigits 10 m).length - 1 < 310 :=
    (zpow_lt_zpow_iff_right₀ (by norm_num)).mp (lt_of_le_of_lt hge hhigh)
  have hsmall : -325 < e + (Nat.toDigits 10 m).length :=
    (zpow_lt_zpow_iff_right₀ (by norm_num)).mp (lt_trans hlow hlt)
  have hbits : min ((x.parts.2 - binary64.least).toNat * 2 ^ (binary64.precision - 1) +
      x.parts.1) binary64.infinity = x.magnitude := by
    have hmag := magnitude_parts x
    have hfin : x.magnitude < infinityBits := of_decide_eq_true hf
    rw [← hmag] at hfin ⊢
    exact min_eq_left hfin.le
  have hpow := Shortest.pow_natAbs 10 (by decide) e
  rw [Nat.cast_ofNat] at hpow
  unfold ofDecimal
  rw [if_neg (by simpa using Nat.ne_of_gt hm), if_neg (by omega), if_neg (by omega)]
  split
  · next he =>
    rw [if_pos he, if_pos he] at hpow
    have hval : (m : ℚ) / (Nat.pow 10 e.natAbs : Nat) = m * 10 ^ e := by
      rw [div_eq_iff (by simp), mul_assoc, ← hpow, Nat.cast_one, mul_one]
    rw [← hval] at h
    have hden : 0 < Nat.pow 10 e.natAbs := Nat.pow_pos (by decide)
    rw [ofRatio, nearest_of_rounds hden (canonical_parts hz) h, hbits]
  · next he =>
    rw [if_neg he, if_neg he, Nat.cast_one, mul_one] at hpow
    have hval : ((m * Nat.pow 10 e.natAbs : Nat) : ℚ) / (1 : Nat) = m * 10 ^ e := by
      rw [← hpow]
      push_cast
      simp
    rw [← hval] at h
    rw [ofRatio, nearest_of_rounds (by decide) (canonical_parts hz) h, hbits]

/-- The other sign leaves the magnitude and turns the bit above it. -/
theorem toNat_bits_neg (x : Double) :
    x.neg.bits.toNat = (x.bits.toNat / 2 ^ 63 ^^^ 1) * 2 ^ 63 + x.magnitude := by
  have hbits : x.neg.bits.toNat = x.bits.toNat ^^^ 2 ^ 63 := UInt64.toNat_xor _ _
  have hdiv : (x.bits.toNat ^^^ 2 ^ 63) / 2 ^ 63 = x.bits.toNat / 2 ^ 63 ^^^ 1 := by
    rw [Nat.xor_div_two_pow, Nat.div_self (by decide)]
  have hmod : (x.bits.toNat ^^^ 2 ^ 63) % 2 ^ 63 = x.magnitude := by
    rw [Nat.xor_mod_two_pow, Nat.mod_self, Nat.xor_zero]
    rfl
  rw [hbits, ← hdiv, ← hmod, Nat.mul_comm, Nat.div_add_mod]

theorem isFinite_neg (x : Double) : x.neg.isFinite = x.isFinite := by
  have hmag : x.neg.magnitude = x.magnitude := by
    have hx : x.magnitude < 2 ^ 63 := Nat.mod_lt _ (by decide)
    rw [magnitude, toNat_bits_neg]
    exact (Nat.mul_add_mod_self_right _ _ _).trans (Nat.mod_eq_of_lt hx)
  rw [isFinite, isFinite, hmag]

theorem toNat_bits_magnitude (x : Double) :
    (ofBits x.magnitude).bits.toNat = x.magnitude := by
  have hx : x.magnitude < 2 ^ 63 := Nat.mod_lt _ (by decide)
  exact Nat.mod_eq_of_lt (by omega)

theorem magnitude_magnitude (x : Double) : (ofBits x.magnitude).magnitude = x.magnitude := by
  rw [magnitude, toNat_bits_magnitude]
  exact Nat.mod_eq_of_lt (Nat.mod_lt _ (by decide))

/-- A number is its magnitude with its sign. -/
theorem eq_ofBits_magnitude (x : Double) :
    x = if x.negative then (ofBits x.magnitude).neg else ofBits x.magnitude := by
  have hx : x.bits.toNat < 2 ^ 64 := x.bits.toNat_lt
  have hmag : x.magnitude = x.bits.toNat % 2 ^ 63 := rfl
  have hsame : ∀ y : Double, x.bits.toNat = y.bits.toNat → x = y := by
    rintro ⟨b⟩ h
    cases x
    exact congrArg _ (UInt64.toNat_inj.mp h)
  split
  · next hneg =>
    have hge : 2 ^ 63 ≤ x.bits.toNat := of_decide_eq_true hneg
    apply hsame
    rw [toNat_bits_neg, magnitude_magnitude, toNat_bits_magnitude, Nat.div_eq_of_lt (by omega),
      Nat.zero_xor]
    omega
  · next hneg =>
    have hlt : ¬ 2 ^ 63 ≤ x.bits.toNat := fun h => hneg (decide_eq_true h)
    apply hsame
    rw [toNat_bits_magnitude]
    omega

/-- The literal of a finite number is its sign and the digits of its magnitude around a point. -/
theorem literal_eq {x : Double} (hf : x.isFinite = true) :
    ∃ whole fraction, Decimal.Spelled whole fraction ∧
      ofDigits whole fraction false [] = ofBits x.magnitude ∧
      x.literal = (if x.negative then "-" else "") ++ String.ofList (whole ++ '.' :: fraction) := by
  have hnan : x.isNaN = false := by
    have hm : x.magnitude < infinityBits := of_decide_eq_true hf
    exact decide_eq_false (by omega)
  have htext : x.literal =
      (if x.negative then "-" else "") ++ (x.shortest .up).positional true := by
    unfold literal render
    simp [hnan, hf, literalLayout, plainLayout]
  rw [htext]
  by_cases hz : x.isZero = true
  · have hmag : x.magnitude = 0 := by simpa [isZero] using hz
    have hshort : x.shortest .up = ⟨['0'], 0⟩ := if_pos hz
    refine ⟨['0'], ['0'], ⟨by simp, by simp, by simp⟩, ?_, ?_⟩
    · rw [hmag]
      decide
    · rw [hshort]
      congr 1
  · have hz' : x.isZero = false := by simpa using hz
    obtain ⟨hproper, hrounds⟩ := shortest_rounds hz' .up
    obtain ⟨whole, fraction, hspelled, hvalue, hpos⟩ := Decimal.positional_eq hproper
    refine ⟨whole, fraction, hspelled, ?_, by rw [hpos]⟩
    rw [← hvalue, Decimal.spelled] at hrounds
    have := ofDecimal_of_rounds hz' hf hrounds
    unfold ofDigits
    simpa [digitsValue] using this

theorem negative_ofBits {n : Nat} (h : n ≤ infinityBits) : (ofBits n).negative = false := by
  have hbits : (ofBits n).bits.toNat = n := Nat.mod_eq_of_lt (by unfold infinityBits at h; omega)
  unfold infinityBits at h
  rw [negative, hbits]
  exact decide_eq_false (by omega)

theorem negative_ofRatio (num den : Nat) : (ofRatio num den).negative = false := by
  refine negative_ofBits ?_
  unfold nearest
  split
  · exact Nat.zero_le _
  · exact min_le_right _ _

theorem negative_ofDecimal (m : Nat) (e : Int) : (ofDecimal m e).negative = false := by
  unfold ofDecimal
  dsimp only
  split_ifs
  · decide
  · decide
  · decide
  · exact negative_ofRatio _ _
  · exact negative_ofRatio _ _

/-- The number nearest to one that fits a word is finite. -/
theorem isFinite_ofNat {n : Nat} (h : n < 2 ^ 64) : (ofNat n).isFinite = true := by
  have hbits : binary64.nearest n 1 ≤ 1087 * 2 ^ 52 := by
    rcases Nat.eq_zero_or_pos n with rfl | hn
    · decide
    obtain ⟨hleast, hlt, hge⟩ := binary64.unitOf_spec hn Nat.one_pos
    have hnearest : binary64.nearest n 1 ≤ (binary64.unitOf n 1 - binary64.least).toNat * 2 ^ 52 +
        roundQuotient (scaled n 1 (binary64.unitOf n 1)).1
          (scaled n 1 (binary64.unitOf n 1)).2 := by
      unfold nearest
      rw [if_neg (by simpa using Nat.ne_of_gt hn)]
      exact min_le_left _ _
    generalize binary64.unitOf n 1 = e at *
    have hnq : (n : ℚ) / (1 : Nat) < 2 ^ (64 : Int) := by
      rw [Nat.cast_one, div_one]
      exact_mod_cast h
    have he : e ≤ 11 := by
      rcases hge with rfl | hge
      · decide
      · have hpow : (2 : ℚ) ^ ((52 : Nat) + e) < 2 ^ (64 : Int) := by
          rw [zpow_add₀ (by norm_num), zpow_natCast]
          exact lt_of_le_of_lt hge hnq
        have := (zpow_lt_zpow_iff_right₀ (by norm_num)).mp hpow
        omega
    have hround : roundQuotient (scaled n 1 e).1 (scaled n 1 e).2 ≤ 2 ^ 53 := by
      apply roundQuotient_le (scaled_pos Nat.one_pos e)
      rw [scaled_ratio, div_lt_iff₀ (by positivity)]
      exact_mod_cast hlt
    have hle : -1074 ≤ e := hleast
    have hexp : (e - binary64.least).toNat ≤ 1085 := by
      show (e - -1074).toNat ≤ 1085
      omega
    have := Nat.mul_le_mul_right (2 ^ 52) hexp
    omega
  have hmag : (ofNat n).magnitude ≤ 1087 * 2 ^ 52 := by
    refine le_trans (Nat.mod_le _ _) (le_trans (Nat.mod_le _ _) hbits)
  exact decide_eq_true (by unfold infinityBits; omega)

end Double
end Attest
