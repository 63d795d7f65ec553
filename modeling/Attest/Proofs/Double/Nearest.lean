import Attest.Double.Round
import Mathlib

/-!
Rounding of ratios.

A ratio that lies in the rounding interval of a number rounds to that number.  The interval reaches
half a unit up, and half a unit down except below a power of two, where the unit halves and it
reaches a quarter.  Its ends belong to it if the significand is even.  Ratios and powers of two are
compared as rationals, so that one argument covers both signs of the exponent.
-/

namespace Attest
namespace BinaryFormat

/-- A quotient rounds to every whole number within a half of it, and from exactly a half only to an
even one. -/
theorem roundQuotient_eq {n d k : Nat} (hd : 0 < d) (hlow : 2 * (k * d) ≤ 2 * n + d)
    (hhigh : 2 * n ≤ 2 * (k * d) + d)
    (htie : k % 2 = 1 → 2 * (k * d) ≠ 2 * n + d ∧ 2 * n ≠ 2 * (k * d) + d) :
    roundQuotient n d = k := by
  have hn : d * (n / d) + n % d = n := Nat.div_add_mod n d
  have hr : n % d < d := Nat.mod_lt n hd
  have hle : n / d ≤ k := by
    by_contra hlt
    have : (k + 1) * d ≤ d * (n / d) := by
      rw [Nat.mul_comm d]
      exact Nat.mul_le_mul_right d (by omega)
    rw [Nat.add_mul] at this
    omega
  have hge : k ≤ n / d + 1 := by
    by_contra hlt
    have : d * (n / d + 2) ≤ k * d := by
      rw [Nat.mul_comm k]
      exact Nat.mul_le_mul_left d (by omega)
    rw [Nat.mul_add] at this
    omega
  have hk : k = n / d ∨ k = n / d + 1 := by omega
  unfold roundQuotient
  rcases hk with rfl | rfl
  · rw [if_neg]
    rw [Nat.mul_comm (n / d)] at hhigh htie
    simp only [Bool.or_eq_true, Bool.and_eq_true, decide_eq_true_eq, beq_iff_eq]
    omega
  · rw [if_pos]
    rw [Nat.add_mul, Nat.mul_comm (n / d)] at hlow htie
    simp only [Bool.or_eq_true, Bool.and_eq_true, decide_eq_true_eq, beq_iff_eq]
    omega

theorem scaled_pos {num den : Nat} (hd : 0 < den) (e : Int) : 0 < (scaled num den e).2 := by
  unfold scaled
  split
  · exact hd
  · exact Nat.mul_pos hd (Nat.pow_pos (by decide))

theorem scaled_ratio (num den : Nat) (e : Int) :
    ((scaled num den e).1 : ℚ) / (scaled num den e).2 = (num : ℚ) / den / 2 ^ e := by
  unfold scaled
  split
  · next he =>
    have hp : (2 : ℚ) ^ e = (2 ^ e.natAbs)⁻¹ := by
      rw [← zpow_natCast, ← zpow_neg]
      congr 1
      omega
    rw [hp]
    push_cast
    field_simp
    simp
  · next he =>
    have hp : (2 : ℚ) ^ e = 2 ^ e.natAbs := by
      rw [← zpow_natCast]
      congr 1
      omega
    rw [hp]
    push_cast
    rw [div_div]
    simp

/-- A rational rounds to a whole number within a half of it, and from exactly a half to an even
one. -/
theorem roundQuotient_eq_of_near {n d k : Nat} (hd : 0 < d)
    (hlow : (k : ℚ) - 1 / 2 ≤ (n : ℚ) / d) (hhigh : (n : ℚ) / d ≤ k + 1 / 2)
    (htie : k % 2 = 1 → (k : ℚ) - 1 / 2 < (n : ℚ) / d ∧ (n : ℚ) / d < k + 1 / 2) :
    roundQuotient n d = k := by
  have hdq : (0 : ℚ) < d := by exact_mod_cast hd
  apply roundQuotient_eq hd
  · rw [le_div_iff₀ hdq] at hlow
    have : (2 * (k * d) : ℚ) ≤ 2 * n + d := by linarith
    exact_mod_cast this
  · rw [div_le_iff₀ hdq] at hhigh
    have : (2 * n : ℚ) ≤ 2 * (k * d) + d := by linarith
    exact_mod_cast this
  · intro hodd
    obtain ⟨h₁, h₂⟩ := htie hodd
    rw [lt_div_iff₀ hdq] at h₁
    rw [div_lt_iff₀ hdq] at h₂
    have h₁' : (2 * (k * d) : ℚ) < 2 * n + d := by linarith
    have h₂' : (2 * n : ℚ) < 2 * (k * d) + d := by linarith
    exact ⟨Nat.ne_of_lt (by exact_mod_cast h₁'), Nat.ne_of_lt (by exact_mod_cast h₂')⟩

theorem roundQuotient_le {n d k : Nat} (hd : 0 < d) (h : (n : ℚ) / d < k) :
    roundQuotient n d ≤ k := by
  have hdq : (0 : ℚ) < d := by exact_mod_cast hd
  have hq : n / d < k := by
    rw [Nat.div_lt_iff_lt_mul hd]
    exact_mod_cast (div_lt_iff₀ hdq).mp h
  unfold roundQuotient
  dsimp only
  split <;> omega

/-- A ratio lies within a factor of two of the power that its logarithms tell. -/
theorem ratio_log2 {num den : Nat} (hn : 0 < num) (hd : 0 < den) :
    (2 : ℚ) ^ ((num.log2 : Int) - den.log2 - 1) < (num : ℚ) / den ∧
      (num : ℚ) / den < 2 ^ ((num.log2 : Int) - den.log2 + 1) := by
  have hdq : (0 : ℚ) < den := by exact_mod_cast hd
  have hn₁ : (2 : ℚ) ^ num.log2 ≤ num := by exact_mod_cast Nat.log2_self_le (by omega)
  have hn₂ : (num : ℚ) < 2 ^ (num.log2 + 1) := by exact_mod_cast Nat.lt_log2_self
  have hd₁ : (2 : ℚ) ^ den.log2 ≤ den := by exact_mod_cast Nat.log2_self_le (by omega)
  have hd₂ : (den : ℚ) < 2 ^ (den.log2 + 1) := by exact_mod_cast Nat.lt_log2_self
  constructor
  · rw [lt_div_iff₀ hdq]
    calc (2 : ℚ) ^ ((num.log2 : Int) - den.log2 - 1) * den
        < 2 ^ ((num.log2 : Int) - den.log2 - 1) * 2 ^ (den.log2 + 1) :=
          mul_lt_mul_of_pos_left hd₂ (by positivity)
      _ = 2 ^ num.log2 := by
          rw [← zpow_natCast, ← zpow_natCast, ← zpow_add₀ (by norm_num)]
          congr 1
          push_cast
          ring
      _ ≤ num := hn₁
  · rw [div_lt_iff₀ hdq]
    calc (num : ℚ) < 2 ^ (num.log2 + 1) := hn₂
      _ = 2 ^ ((num.log2 : Int) - den.log2 + 1) * 2 ^ den.log2 := by
          rw [← zpow_natCast, ← zpow_natCast, ← zpow_add₀ (by norm_num)]
          congr 1
          push_cast
          ring
      _ ≤ 2 ^ ((num.log2 : Int) - den.log2 + 1) * den :=
          mul_le_mul_of_nonneg_left hd₁ (by positivity)

/-- In its unit a ratio has as many bits as the format holds, or fewer if the unit is the least. -/
theorem unitOf_spec (f : BinaryFormat) {num den : Nat} (hn : 0 < num) (hd : 0 < den) :
    f.least ≤ f.unitOf num den ∧
      (num : ℚ) / den < 2 * 2 ^ (f.precision - 1) * 2 ^ f.unitOf num den ∧
      (f.unitOf num den = f.least ∨
        2 ^ (f.precision - 1) * 2 ^ f.unitOf num den ≤ (num : ℚ) / den) := by
  obtain ⟨hlow, hhigh⟩ := ratio_log2 hn hd
  set guess : Int := (num.log2 : Int) - den.log2 - (f.precision - 1 : Nat) with hguess
  set exact : Int :=
    if (scaled num den guess).1 / (scaled num den guess).2 < 2 ^ (f.precision - 1) then guess - 1
    else guess with hexact
  have hunit : f.unitOf num den = max exact f.least := rfl
  have hpow : ∀ a : Int, (2 : ℚ) ^ (f.precision - 1) * 2 ^ a = 2 ^ ((f.precision - 1 : Nat) + a) :=
    fun a => by rw [← zpow_natCast, ← zpow_add₀ (by norm_num)]
  -- the unit before it is held to the least: the ratio lies between two powers of two
  have hbounds : 2 ^ (f.precision - 1) * 2 ^ exact ≤ (num : ℚ) / den ∧
      (num : ℚ) / den < 2 * 2 ^ (f.precision - 1) * 2 ^ exact := by
    have hdpos : (0 : ℚ) < (scaled num den guess).2 := by exact_mod_cast scaled_pos hd guess
    have hratio := scaled_ratio num den guess
    have hg : (0 : ℚ) < 2 ^ guess := by positivity
    by_cases hc : (scaled num den guess).1 / (scaled num den guess).2 < 2 ^ (f.precision - 1)
    · rw [hexact, if_pos hc]
      have hlt : (num : ℚ) / den < 2 ^ (f.precision - 1) * 2 ^ guess := by
        rw [← div_lt_iff₀ hg, ← hratio, div_lt_iff₀ hdpos]
        have := (Nat.div_lt_iff_lt_mul (scaled_pos hd guess)).mp hc
        exact_mod_cast this
      refine ⟨?_, ?_⟩
      · rw [hpow]
        refine le_of_lt (lt_of_le_of_lt (le_of_eq ?_) hlow)
        congr 1
        omega
      · have hhalf : (2 : ℚ) ^ (guess - 1) * 2 = 2 ^ guess := by
          rw [← zpow_add_one₀ (by norm_num), sub_add_cancel]
        refine lt_of_lt_of_eq hlt ?_
        rw [← hhalf]
        ring
    · rw [hexact, if_neg hc]
      have hle : 2 ^ (f.precision - 1) * 2 ^ guess ≤ (num : ℚ) / den := by
        rw [← le_div_iff₀ hg, ← hratio, le_div_iff₀ hdpos]
        have := (Nat.le_div_iff_mul_le (scaled_pos hd guess)).mp (Nat.le_of_not_lt hc)
        exact_mod_cast this
      refine ⟨hle, lt_of_lt_of_eq hhigh ?_⟩
      rw [mul_assoc, hpow, ← zpow_one_add₀ (by norm_num)]
      congr 1
      omega
  rw [hunit]
  refine ⟨le_max_right _ _, lt_of_lt_of_le hbounds.2 ?_, ?_⟩
  · have : (2 : ℚ) ^ exact ≤ 2 ^ max exact f.least :=
      zpow_le_zpow_right₀ (by norm_num) (le_max_left _ _)
    exact mul_le_mul_of_nonneg_left this (by positivity)
  · rcases le_total exact f.least with h | h
    · left
      exact max_eq_right h
    · right
      rw [max_eq_left h]
      exact hbounds.1

/-- A significand and exponent as the format holds them: full width, or the least exponent. -/
structure Canonical (f : BinaryFormat) (m : Nat) (q : Int) : Prop where
  pos : 0 < m
  lt : m < 2 * 2 ^ (f.precision - 1)
  least : f.least ≤ q
  full : q = f.least ∨ 2 ^ (f.precision - 1) ≤ m

/-- How far below a number its rounding interval reaches, in units of its last place. -/
def reach (f : BinaryFormat) (m : Nat) (q : Int) : ℚ :=
  if m = 2 ^ (f.precision - 1) ∧ f.least < q then 1 / 4 else 1 / 2

/-- A rational lies in the rounding interval of a number. -/
structure Rounds (f : BinaryFormat) (v : ℚ) (m : Nat) (q : Int) : Prop where
  lower : ((m : ℚ) - f.reach m q) * 2 ^ q ≤ v
  upper : v ≤ ((m : ℚ) + 1 / 2) * 2 ^ q
  strict : m % 2 = 1 → ((m : ℚ) - f.reach m q) * 2 ^ q < v ∧ v < ((m : ℚ) + 1 / 2) * 2 ^ q

theorem reach_le (f : BinaryFormat) (m : Nat) (q : Int) : f.reach m q ≤ 1 / 2 := by
  unfold reach
  split <;> norm_num

theorem reach_pos (f : BinaryFormat) (m : Nat) (q : Int) : 0 < f.reach m q := by
  unfold reach
  split <;> norm_num

section Unit

variable {f : BinaryFormat} {num den m : Nat} {q : Int} (hn : 0 < num) (hd : 0 < den)
  (hc : f.Canonical m q) (h : f.Rounds ((num : ℚ) / den) m q)

include hn hd hc h

/-- In a larger unit than that of the number, the ratio would be above the rounding interval. -/
theorem unitOf_le_of_rounds : f.unitOf num den ≤ q := by
  by_contra hlt
  obtain ⟨-, -, hge⟩ := f.unitOf_spec hn hd
  have hm : (m : ℚ) + 1 ≤ 2 * 2 ^ (f.precision - 1) := by exact_mod_cast hc.lt
  set P : ℚ := 2 ^ (f.precision - 1)
  have hfull : P * 2 ^ f.unitOf num den ≤ (num : ℚ) / den := by
    have := hc.least
    exact hge.resolve_left (by omega)
  have hstep : (2 : ℚ) ^ q * 2 ≤ 2 ^ f.unitOf num den := by
    rw [← zpow_add_one₀ (by norm_num)]
    exact zpow_le_zpow_right₀ (by norm_num) (by omega)
  have hbeyond : 2 * P * 2 ^ q ≤ ((m : ℚ) + 1 / 2) * 2 ^ q := by
    calc 2 * P * 2 ^ q = P * (2 ^ q * 2) := by ring
      _ ≤ P * 2 ^ f.unitOf num den := mul_le_mul_of_nonneg_left hstep (by positivity)
      _ ≤ (num : ℚ) / den := hfull
      _ ≤ ((m : ℚ) + 1 / 2) * 2 ^ q := h.upper
  have := le_of_mul_le_mul_right hbeyond (by positivity)
  linarith

/-- In a smaller unit, the ratio is right below a power of two, which is the number. -/
theorem eq_of_unitOf_lt (hlt : f.unitOf num den < q) :
    m = 2 ^ (f.precision - 1) ∧ (num : ℚ) / den < m * 2 ^ q := by
  obtain ⟨hleast, hbound, -⟩ := f.unitOf_spec hn hd
  have hm : 2 ^ (f.precision - 1) ≤ m := hc.full.resolve_left (by omega)
  have hstep : (2 : ℚ) ^ f.unitOf num den * 2 ≤ 2 ^ q := by
    rw [← zpow_add_one₀ (by norm_num)]
    exact zpow_le_zpow_right₀ (by norm_num) (by omega)
  have hbelow : (num : ℚ) / den < 2 ^ (f.precision - 1) * 2 ^ q := by
    calc (num : ℚ) / den < 2 * 2 ^ (f.precision - 1) * 2 ^ f.unitOf num den := hbound
      _ = 2 ^ (f.precision - 1) * (2 ^ f.unitOf num den * 2) := by ring
      _ ≤ 2 ^ (f.precision - 1) * 2 ^ q := mul_le_mul_of_nonneg_left hstep (by positivity)
  have hnear : (m : ℚ) - f.reach m q < 2 ^ (f.precision - 1) :=
    lt_of_mul_lt_mul_right (lt_of_le_of_lt h.lower hbelow) (by positivity)
  have hle : m < 2 ^ (f.precision - 1) + 1 := by
    have hreach := f.reach_le m q
    have : (m : ℚ) < 2 ^ (f.precision - 1) + 1 := by linarith
    exact_mod_cast this
  have heq : m = 2 ^ (f.precision - 1) := by omega
  refine ⟨heq, ?_⟩
  rw [heq]
  exact_mod_cast hbelow

/-- Two steps down, the ratio would be less than half of what it is. -/
theorem le_unitOf_add_one_of_rounds : q ≤ f.unitOf num den + 1 := by
  by_contra hlt
  obtain ⟨hm, -⟩ := eq_of_unitOf_lt hn hd hc h (by omega)
  obtain ⟨-, hbound, -⟩ := f.unitOf_spec hn hd
  have hmP : (m : ℚ) = 2 ^ (f.precision - 1) := by exact_mod_cast hm
  set P : ℚ := 2 ^ (f.precision - 1)
  have hP : 1 ≤ P := one_le_pow₀ (by norm_num)
  have hreach := f.reach_le m q
  have hquarter : (2 : ℚ) ^ f.unitOf num den * 4 ≤ 2 ^ q := by
    have : (2 : ℚ) ^ (f.unitOf num den + 2) ≤ 2 ^ q :=
      zpow_le_zpow_right₀ (by norm_num) (by omega)
    rw [zpow_add₀ (by norm_num)] at this
    norm_num at this
    exact this
  have hhalf : (P - 1 / 2) * 2 ^ q < P / 2 * 2 ^ q := by
    calc (P - 1 / 2) * 2 ^ q ≤ ((m : ℚ) - f.reach m q) * 2 ^ q :=
          mul_le_mul_of_nonneg_right (by linarith) (by positivity)
      _ ≤ (num : ℚ) / den := h.lower
      _ < 2 * P * 2 ^ f.unitOf num den := hbound
      _ = P / 2 * (2 ^ f.unitOf num den * 4) := by ring
      _ ≤ P / 2 * 2 ^ q := mul_le_mul_of_nonneg_left hquarter (by linarith)
  have := lt_of_mul_lt_mul_right hhalf (by positivity)
  linarith

/-- The unit of a ratio in the rounding interval is that of the number, or half of it right below
a power of two. -/
theorem unitOf_of_rounds :
    f.unitOf num den = q ∨ f.unitOf num den = q - 1 ∧ f.least < q ∧ m = 2 ^ (f.precision - 1) ∧
      (num : ℚ) / den < m * 2 ^ q := by
  have hupper := unitOf_le_of_rounds hn hd hc h
  have hlower := le_unitOf_add_one_of_rounds hn hd hc h
  obtain ⟨hleast, -, -⟩ := f.unitOf_spec hn hd
  rcases hupper.eq_or_lt with heq | hlt
  · exact .inl heq
  · exact .inr ⟨by omega, by omega, eq_of_unitOf_lt hn hd hc h hlt⟩

end Unit

theorem pos_of_rounds {f : BinaryFormat} {num den m : Nat} {q : Int} (hc : f.Canonical m q)
    (h : f.Rounds ((num : ℚ) / den) m q) : 0 < num := by
  by_contra hn
  have hz : num = 0 := by omega
  have hm : (1 : ℚ) ≤ m := by exact_mod_cast hc.pos
  have hr := f.reach_le m q
  have hpos : 0 < ((m : ℚ) - f.reach m q) * 2 ^ q := mul_pos (by linarith) (by positivity)
  have hlow := h.lower
  rw [hz, Nat.cast_zero, zero_div] at hlow
  linarith

/-- In the unit of the number, a ratio of its rounding interval rounds to the significand. -/
theorem roundQuotient_of_rounds {f : BinaryFormat} {num den m : Nat} {q : Int} (hd : 0 < den)
    (h : f.Rounds ((num : ℚ) / den) m q) :
    roundQuotient (scaled num den q).1 (scaled num den q).2 = m := by
  have hq : (0 : ℚ) < 2 ^ q := by positivity
  have hr := f.reach_le m q
  apply roundQuotient_eq_of_near (scaled_pos hd q)
  · rw [scaled_ratio, le_div_iff₀ hq]
    exact le_trans (mul_le_mul_of_nonneg_right (by linarith) hq.le) h.lower
  · rw [scaled_ratio, div_le_iff₀ hq]
    exact h.upper
  · intro hodd
    obtain ⟨h₁, h₂⟩ := h.strict hodd
    rw [scaled_ratio, lt_div_iff₀ hq, div_lt_iff₀ hq]
    exact ⟨lt_of_le_of_lt (mul_le_mul_of_nonneg_right (by linarith) hq.le) h₁, h₂⟩

/-- Right below a power of two the unit is half as large, and the quotient carries. -/
theorem roundQuotient_of_rounds_carry {f : BinaryFormat} {num den m : Nat} {q : Int}
    (hd : 0 < den) (h : f.Rounds ((num : ℚ) / den) m q) (hq : f.least < q)
    (hm : m = 2 ^ (f.precision - 1)) (hlt : (num : ℚ) / den < m * 2 ^ q) :
    roundQuotient (scaled num den (q - 1)).1 (scaled num den (q - 1)).2 = 2 * m := by
  have he : (0 : ℚ) < 2 ^ (q - 1) := by positivity
  have hdouble : (2 : ℚ) ^ q = 2 ^ (q - 1) * 2 := by
    rw [← zpow_add_one₀ (by norm_num), sub_add_cancel]
  have hreach : f.reach m q = 1 / 4 := if_pos ⟨hm, hq⟩
  have hlow := h.lower
  rw [hreach, hdouble] at hlow
  rw [hdouble] at hlt
  apply roundQuotient_eq_of_near (scaled_pos hd (q - 1))
  · rw [scaled_ratio, le_div_iff₀ he]
    push_cast
    linarith
  · rw [scaled_ratio, div_le_iff₀ he]
    push_cast
    linarith
  · intro hodd
    omega

/-- A ratio in the rounding interval of a number rounds to the bits of that number. -/
theorem nearest_of_rounds {f : BinaryFormat} {num den m : Nat} {q : Int} (hd : 0 < den)
    (hc : f.Canonical m q) (h : f.Rounds ((num : ℚ) / den) m q) :
    f.nearest num den = min ((q - f.least).toNat * 2 ^ (f.precision - 1) + m) f.infinity := by
  have hn := pos_of_rounds hc h
  have hbits : f.nearest num den =
      min ((f.unitOf num den - f.least).toNat * 2 ^ (f.precision - 1) +
        roundQuotient (scaled num den (f.unitOf num den)).1
          (scaled num den (f.unitOf num den)).2) f.infinity := by
    unfold nearest
    rw [if_neg (by simpa using Nat.ne_of_gt hn)]
    rfl
  rw [hbits]
  rcases unitOf_of_rounds hn hd hc h with he | ⟨he, hq, hm, hlt⟩
  · rw [he, roundQuotient_of_rounds hd h]
  · rw [he, roundQuotient_of_rounds_carry hd h hq hm hlt]
    have hstep : (q - f.least).toNat = (q - 1 - f.least).toNat + 1 := by omega
    rw [hstep, Nat.add_mul, ← hm]
    congr 1
    omega

end BinaryFormat
end Attest
