import Attest.Uuid
import Mathlib.Tactic.Ring

/-!
An identifier reads back from its text.
-/

namespace Attest

namespace Text

theorem hexValue?_hexDigit {d : Nat} (h : d < 16) : hexValue? (hexDigit d) = some d := by
  have : ∀ d : Fin 16, hexValue? (hexDigit d) = some d.val := by decide
  exact this ⟨d, h⟩

/-- Digits of a number, the highest first, spell it. -/
theorem hexFold_digits (v acc k : Nat) :
    hexFold acc ((List.range k).map fun i => hexDigit (v / 16 ^ (k - 1 - i) % 16)) =
      some (acc * 16 ^ k + v % 16 ^ k) := by
  induction k generalizing acc with
  | zero => simp [hexFold, Nat.mod_one]
  | succ k ih =>
    have htail : (List.map Nat.succ (List.range k)).map
        (fun i => hexDigit (v / 16 ^ (k + 1 - 1 - i) % 16)) =
        (List.range k).map fun i => hexDigit (v / 16 ^ (k - 1 - i) % 16) := by
      rw [List.map_map]
      refine List.map_congr_left fun i hi => ?_
      rw [List.mem_range] at hi
      rw [Function.comp_apply, show k + 1 - 1 - i.succ = k - 1 - i by omega]
    rw [List.range_succ_eq_map, List.map_cons, htail, hexFold,
      hexValue?_hexDigit (Nat.mod_lt _ (by decide))]
    show hexFold _ _ = _
    rw [ih]
    congr 1
    have hsplit : v % 16 ^ (k + 1) = v / 16 ^ k % 16 * 16 ^ k + v % 16 ^ k := by
      rw [pow_succ, Nat.mod_mul, Nat.mul_comm, Nat.add_comm]
    rw [hsplit, Nat.sub_zero, Nat.add_sub_cancel]
    ring

end Text

namespace Uuid

theorem length_digits (u : Uuid) : u.digits.length = 32 := by
  simp [digits]

theorem ofDigits?_digits (u : Uuid) : ofDigits? u.digits = some u := by
  have hfold : Text.hexFold 0 u.digits = some u.value.toNat := by
    have hlt : u.value.toNat < 16 ^ 32 := u.value.isLt
    have := Text.hexFold_digits u.value.toNat 0 32
    rw [Nat.zero_mul, Nat.zero_add, Nat.mod_eq_of_lt hlt] at this
    exact this
  unfold ofDigits?
  rw [length_digits, hfold]
  simp

/-- Five groups with hyphens between them are read as the digits without the hyphens. -/
theorem ofGroups?_join {a b c d e : List Char} (ha : a.length = 8) (hb : b.length = 4)
    (hc : c.length = 4) (hd : d.length = 4) (he : e.length = 12) :
    ofGroups? (a ++ '-' :: b ++ '-' :: c ++ '-' :: d ++ '-' :: e) =
      ofDigits? (a ++ b ++ c ++ d ++ e) := by
  unfold ofGroups?
  simp [List.drop_append, List.drop_eq_nil_of_le, ha, hb, hc, hd, he]

theorem parse_hyphenated (u : Uuid) : parse u.hyphenated = .ok u := by
  have hlen := u.length_digits
  have hgroups := ofGroups?_join (a := u.digits.take 8) (b := (u.digits.drop 8).take 4)
    (c := (u.digits.drop 12).take 4) (d := (u.digits.drop 16).take 4) (e := u.digits.drop 20)
    (by simp [hlen]) (by simp [hlen]) (by simp [hlen]) (by simp [hlen]) (by simp [hlen])
  have hjoin : u.digits.take 8 ++ (u.digits.drop 8).take 4 ++ (u.digits.drop 12).take 4 ++
      (u.digits.drop 16).take 4 ++ u.digits.drop 20 = u.digits := by
    have hstep : ∀ n, (u.digits.drop n).take 4 ++ u.digits.drop (n + 4) = u.digits.drop n :=
      fun n => by rw [← List.drop_drop, List.take_append_drop]
    rw [List.append_assoc, List.append_assoc, List.append_assoc, hstep 16, hstep 12, hstep 8,
      List.take_append_drop]
  rw [hjoin, ofDigits?_digits] at hgroups
  have hshort : ofDigits? (u.digits.take 8 ++ '-' :: (u.digits.drop 8).take 4 ++
      '-' :: (u.digits.drop 12).take 4 ++ '-' :: (u.digits.drop 16).take 4 ++
      '-' :: u.digits.drop 20) = none := by
    unfold ofDigits?
    rw [if_neg (by simp [hlen])]
  unfold parse hyphenated
  rw [String.toList_ofList]
  dsimp only
  rw [hgroups, hshort]
  rfl

end Uuid
end Attest
