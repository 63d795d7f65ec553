import Attest.Proofs.Item.Levels
import Attest.Proofs.Ty.Same

/-!
When two items that agree are one item.

Items agree as their floats do, which are compared as numbers: the two zeros agree, and a float that
is no number does not agree with itself.  Among items without these nothing else is left out of the
comparison.
-/

namespace Attest

namespace Double

/-- A number other than the negative zero. -/
def isPlain (x : Double) : Bool := !x.isNaN && !(x.negative && x.isZero)

theorem eq_of_magnitude {x y : Double} (hm : x.magnitude = y.magnitude)
    (hn : x.negative = y.negative) : x = y := by
  unfold magnitude at hm
  unfold negative at hn
  rw [decide_eq_decide] at hn
  have hbits : x.bits = y.bits := by
    rw [← UInt64.toNat_inj]
    have := x.bits.toNat_lt
    have := y.bits.toNat_lt
    omega
  exact congrArg Double.mk hbits

theorem same_iff_eq {x y : Double} (hx : x.isPlain = true) (hy : y.isPlain = true) :
    x.same y = true ↔ x = y := by
  simp only [isPlain, isZero, Bool.and_eq_true, Bool.not_eq_true', Bool.and_eq_false_iff,
    beq_eq_false_iff_ne] at hx hy
  rw [same_iff]
  constructor
  · rintro ⟨-, -, hkey⟩
    have hm : x.magnitude = y.magnitude := by rw [← natAbs_key, ← natAbs_key, hkey]
    refine eq_of_magnitude hm ?_
    unfold key at hkey
    cases hxn : x.negative <;> cases hyn : y.negative <;> simp [hxn, hyn] at hkey hx hy ⊢
    -- Numbers of both signs have one place only if they are zeros.
    · omega
    · omega
  · rintro rfl
    exact ⟨hx.1, hx.1, rfl⟩

end Double

namespace Item

/-- Every float is a number other than the negative zero. -/
inductive Plain : Item → Prop where
  | unsigned (n : UInt64) : Plain (.unsigned n)
  | negative (n : UInt64) : Plain (.negative n)
  | bytes (bs : List UInt8) : Plain (.bytes bs)
  | text (s : String) : Plain (.text s)
  | array {items : List Item} (h : ∀ i ∈ items, Plain i) : Plain (.array items)
  | map {entries : List (Item × Item)} (hk : ∀ e ∈ entries, Plain e.1)
      (hv : ∀ e ∈ entries, Plain e.2) : Plain (.map entries)
  | tag (n : UInt64) {content : Item} (h : Plain content) : Plain (.tag n content)
  | bool (b : Bool) : Plain (.bool b)
  | null : Plain .null
  | float {x : Double} (h : x.isPlain = true) : Plain (.float x)

theorem sameItems_iff_eq {as bs : List Item}
    (h : ∀ a ∈ as, ∀ b ∈ bs, a.same b = true ↔ a = b) : sameItems as bs = true ↔ as = bs := by
  induction as generalizing bs with
  | nil => cases bs <;> simp [sameItems]
  | cons a as ih =>
    cases bs with
    | nil => simp [sameItems]
    | cons b bs =>
      have hhead := h a List.mem_cons_self b List.mem_cons_self
      have htail := ih fun a' ha' b' hb' =>
        h a' (List.mem_cons_of_mem a ha') b' (List.mem_cons_of_mem b hb')
      rw [sameItems, Bool.and_eq_true, hhead, htail, List.cons.injEq]

theorem sameEntries_iff_eq {as bs : List (Item × Item)}
    (h : ∀ a ∈ as, ∀ b ∈ bs,
      (a.1.same b.1 = true ↔ a.1 = b.1) ∧ (a.2.same b.2 = true ↔ a.2 = b.2)) :
    sameEntries as bs = true ↔ as = bs := by
  induction as generalizing bs with
  | nil => cases bs <;> simp [sameEntries]
  | cons a as ih =>
    cases bs with
    | nil => simp [sameEntries]
    | cons b bs =>
      have hhead := h a List.mem_cons_self b List.mem_cons_self
      have htail := ih fun a' ha' b' hb' =>
        h a' (List.mem_cons_of_mem a ha') b' (List.mem_cons_of_mem b hb')
      rw [sameEntries, Bool.and_eq_true, Bool.and_eq_true, hhead.1, hhead.2, htail, List.cons.injEq,
        Prod.ext_iff]

theorem same_iff_eq {i j : Item} (hi : i.Plain) (hj : j.Plain) : i.same j = true ↔ i = j := by
  induction hi generalizing j with
  | array _ ih =>
    cases hj with
    | array hj =>
      rw [same, array.injEq]
      exact sameItems_iff_eq fun a ha b hb => ih a ha (hj b hb)
    | _ => simp [same]
  | map _ _ ihk ihv =>
    cases hj with
    | map hjk hjv =>
      rw [same, map.injEq]
      exact sameEntries_iff_eq fun a ha b hb => ⟨ihk a ha (hjk b hb), ihv a ha (hjv b hb)⟩
    | _ => simp [same]
  | tag n _ ih =>
    cases hj with
    | tag m hj => rw [same, Bool.and_eq_true, beq_iff_eq, ih hj, tag.injEq]
    | _ => simp [same]
  | float hx =>
    cases hj with
    | float hy => rw [same, Double.same_iff_eq hx hy, float.injEq]
    | _ => simp [same]
  | _ => cases hj <;> simp [same]

end Item
end Attest
