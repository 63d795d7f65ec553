import Attest.Proofs.Wire.Value

/-!
Types that are written alike have the same values.

Bounds are compared as numbers, so two types that agree may differ in the sign of a zero.  No value
is between the one and not between the other.
-/

namespace Attest

namespace Double

variable {x y : Double}

theorem natAbs_key (x : Double) : x.key.natAbs = x.magnitude := by
  unfold key
  split <;> simp

theorem compare?_eq_some_iff {o : Ordering} :
    x.compare? y = some o ↔ x.isNaN = false ∧ y.isNaN = false ∧ compare x.key y.key = o := by
  unfold compare?
  by_cases h : (x.isNaN || y.isNaN) = true
  · rw [if_pos h]
    rcases Bool.or_eq_true_iff.mp h with hx | hy
    · simp [hx]
    · simp [hy]
  · rw [if_neg h]
    rw [Bool.or_eq_true, not_or, Bool.not_eq_true, Bool.not_eq_true] at h
    simp [h.1, h.2]

theorem same_iff : x.same y = true ↔ x.isNaN = false ∧ y.isNaN = false ∧ x.key = y.key := by
  unfold same
  rw [beq_iff_eq, compare?_eq_some_iff, Std.compare_eq_iff_eq]

theorem same_self (h : x.isFinite = true) : x.same x = true := by
  have hnan : x.isNaN = false := by
    rw [isFinite, decide_eq_true_eq] at h
    rw [isNaN, decide_eq_false_iff_not]
    omega
  exact same_iff.mpr ⟨hnan, hnan, rfl⟩

theorem isFinite_of_same (h : x.same y = true) : x.isFinite = y.isFinite := by
  obtain ⟨-, -, hkey⟩ := same_iff.mp h
  unfold isFinite
  rw [← natAbs_key, ← natAbs_key, hkey]

theorem lt_left_of_same (h : x.same y = true) (z : Double) : x.lt z = y.lt z := by
  obtain ⟨hx, hy, hkey⟩ := same_iff.mp h
  unfold lt compare?
  rw [hx, hy, hkey]

theorem lt_right_of_same (h : x.same y = true) (z : Double) : z.lt x = z.lt y := by
  obtain ⟨hx, hy, hkey⟩ := same_iff.mp h
  unfold lt compare?
  rw [hx, hy, hkey]

end Double

theorem Decision.items_of_isHolds {f : Value → Decision} {vs : List Value}
    (h : ∀ v ∈ vs, (f v).isHolds = true) (index : Nat) : ∃ es, items f index vs = .ok es := by
  induction vs generalizing index with
  | nil => exact ⟨[], rfl⟩
  | cons v vs ih =>
    obtain ⟨hv, hvs⟩ := List.forall_mem_cons.mp h
    obtain ⟨es, hes⟩ := ih hvs (index + 1)
    cases hd : f v with
    | holds e => exact ⟨e :: es, by simp only [items, hd, hes]⟩
    | fails why =>
      rw [hd] at hv
      cases hv
    | undecidable why =>
      rw [hd] at hv
      cases hv

namespace Ty

theorem isHolds_boundedNat {lo hi : UInt64} {v : Value} :
    ((boundedNat lo hi).decide v).isHolds = true ↔ (boundedNat lo hi).fault? = none ∧
      ∃ x, v = .nat x ∧ ¬ x < lo ∧ ¬ hi < x := by
  unfold decide
  cases (boundedNat lo hi).fault? with
  | some f => simp [Decision.isHolds]
  | none =>
    cases v with
    | nat x =>
      simp only [decideNat]
      split_ifs <;> simp_all [Decision.isHolds]
    | _ => simp [Decision.isHolds]

theorem isHolds_boundedFloat {lo hi : Double} {v : Value} :
    ((boundedFloat lo hi).decide v).isHolds = true ↔ (boundedFloat lo hi).fault? = none ∧
      ∃ x, v = .float x ∧ x.isNaN = false ∧ x.lt lo = false ∧ hi.lt x = false := by
  unfold decide
  cases (boundedFloat lo hi).fault? with
  | some f => simp [Decision.isHolds]
  | none =>
    cases v with
    | float x =>
      simp only [decideFloat]
      split_ifs <;> simp_all [Decision.isHolds]
    | _ => simp [Decision.isHolds]

theorem isHolds_vector {t : Ty} {n : UInt64} {v : Value} :
    ((vector t n).decide v).isHolds = true ↔ t.fault? = none ∧
      ∃ vs, v = .vector vs ∧ vs.length = n.toNat ∧ ∀ w ∈ vs, (t.decide w).isHolds = true := by
  constructor
  · intro h
    have hfault := fault?_of_isHolds h
    unfold decide at h
    rw [hfault] at h
    cases v with
    | vector vs =>
      dsimp only at h
      split at h
      · cases h
      · next hlength =>
        split at h
        · next d hd =>
          rw [Decision.isHolds_of_items_error hd] at h
          cases h
        · next es hes =>
          exact ⟨hfault, vs, rfl, by simpa using hlength, Decision.isHolds_of_items hes⟩
    | _ => cases h
  · rintro ⟨hfault, vs, rfl, hlength, hall⟩
    obtain ⟨es, hes⟩ := Decision.items_of_isHolds hall 0
    have hfault : (vector t n).fault? = none := hfault
    unfold decide
    rw [hfault]
    dsimp only
    rw [if_neg (by simpa using hlength), hes]
    dsimp only
    split <;> rfl

theorem fault?_of_same {s t : Ty} (h : s.same t = true) (hs : s.fault? = none) :
    t.fault? = none := by
  induction s generalizing t with
  | boundedFloat a b =>
    cases t with
    | boundedFloat c d =>
      rw [same, Bool.and_eq_true] at h
      unfold fault? at hs ⊢
      rw [← Double.isFinite_of_same h.1, ← Double.isFinite_of_same h.2,
        ← Double.lt_left_of_same h.2, ← Double.lt_right_of_same h.1]
      split_ifs at hs ⊢
      rfl
    | _ => cases h
  | boundedNat a b =>
    cases t with
    | boundedNat c d =>
      rw [same, Bool.and_eq_true, beq_iff_eq, beq_iff_eq] at h
      rwa [← h.1, ← h.2]
    | _ => cases h
  | vector s m ih =>
    cases t with
    | vector t n =>
      rw [same, Bool.and_eq_true] at h
      show t.fault? = none
      exact ih h.1 hs
    | _ => cases h
  | _ =>
    cases t with
    | boundedFloat c d => cases h
    | boundedNat c d => cases h
    | vector t n => cases h
    | _ => rfl

/-- Bounds that are not numbers are unlike themselves, but no type without a fault has them. -/
theorem same_self {ty : Ty} (h : ty.fault? = none) : ty.same ty = true := by
  induction ty with
  | boundedFloat lo hi =>
    unfold fault? at h
    split_ifs at h with hfinite hempty
    simp only [Bool.or_eq_true, Bool.not_eq_true', not_or, Bool.not_eq_false] at hfinite
    rw [same, Double.same_self hfinite.1, Double.same_self hfinite.2]
    rfl
  | vector element size ih =>
    rw [same, ih h]
    simp
  | _ => simp [same]

/-- A type that is written like another has its values. -/
theorem isHolds_of_same {s t : Ty} {v : Value} (h : s.same t = true)
    (hv : (s.decide v).isHolds = true) : (t.decide v).isHolds = true := by
  induction s generalizing t v with
  | boundedFloat a b =>
    cases t with
    | boundedFloat c d =>
      obtain ⟨hfault, x, hx, hnan, hlo, hhi⟩ := isHolds_boundedFloat.mp hv
      have hfault := fault?_of_same h hfault
      rw [same, Bool.and_eq_true] at h
      rw [Double.lt_right_of_same h.1] at hlo
      rw [Double.lt_left_of_same h.2] at hhi
      exact isHolds_boundedFloat.mpr ⟨hfault, x, hx, hnan, hlo, hhi⟩
    | _ => cases h
  | boundedNat a b =>
    cases t with
    | boundedNat c d =>
      rw [same, Bool.and_eq_true, beq_iff_eq, beq_iff_eq] at h
      rwa [← h.1, ← h.2]
    | _ => cases h
  | vector s m ih =>
    cases t with
    | vector t n =>
      obtain ⟨hfault, vs, hvs, hlength, hall⟩ := isHolds_vector.mp hv
      rw [same, Bool.and_eq_true, beq_iff_eq] at h
      exact isHolds_vector.mpr ⟨fault?_of_same h.1 hfault, vs, hvs, h.2 ▸ hlength,
        fun w hw => ih h.1 (hall w hw)⟩
    | _ => cases h
  | _ =>
    cases t with
    | boundedFloat c d => cases h
    | boundedNat c d => cases h
    | vector t n => cases h
    | _ => first | exact hv | cases h

end Ty
end Attest
