import Attest.Wire.Fields
import Attest.Proofs.ByName
import Attest.Proofs.Outcome
import Attest.Proofs.Sorting

/-!
Fields of maps that are built of fields.

A map holds its fields in the order of their names, and reading asks for them by name.  With no
name twice, a field that was put in is the one that is found.
-/

namespace Attest

namespace Item

theorem lookup_texts (name : String) (fields : List (String × Item)) :
    lookup name (fields.map fun f => (text f.1, f.2)) = fields.lookup name := by
  induction fields with
  | nil => rfl
  | cons f fields ih =>
    obtain ⟨k, i⟩ := f
    rw [List.map_cons, lookup, List.lookup_cons, ih, BEq.comm]
    cases name == k <;> rfl

@[simp] theorem field?_ofFields {fields : List (String × Item)}
    (h : (fields.map Prod.fst).Nodup) (name : String) :
    (ofFields fields).field? name = fields.lookup name := by
  have hperm := Sorting.sort_perm
    (fun a b : String × Item => keyLess (Text.utf8 a.1) (Text.utf8 b.1)) fields
  have hn := (hperm.map Prod.fst).nodup_iff.mpr h
  rw [← ByName.lookup_perm hperm hn name, ← lookup_texts]
  rfl

theorem toInt?_int (i : Int64) : (int i).toInt? = some i := by
  have hcond : i.toInt = if 2 * i.toUInt64.toNat < 2 ^ 64 then (i.toUInt64.toNat : Int)
      else (i.toUInt64.toNat : Int) - (2 ^ 64 : Nat) := BitVec.toInt_eq_toNat_cond _
  unfold int
  by_cases h : 0 ≤ i
  · have hle : 0 ≤ i.toInt := by simpa [Int64.le_iff_toInt_le] using h
    have hlt : i.toUInt64.toNat < 0x8000000000000000 := by
      have := i.toUInt64.toNat_lt
      split at hcond <;> omega
    rw [if_pos h, toInt?, if_pos hlt, Int64.toInt64_toUInt64]
  · have hneg : i.toInt < 0 := by simpa [Int64.le_iff_toInt_le] using h
    have hlt : (~~~ i.toUInt64).toNat < 0x8000000000000000 := by
      rw [UInt64.toNat_not]
      have := i.toUInt64.toNat_lt
      split at hcond <;> simp only [UInt64.size] <;> omega
    have hback : -1 - ~~~ i = i := by
      rw [Int64.not_eq_neg_add]
      grind
    rw [if_neg h, toInt?, if_pos hlt, UInt64.toInt64_not, Int64.toInt64_toUInt64, hback]

theorem required_eq_ok {i v : Item} {name : String} :
    i.required name = .ok v ↔ i.field? name = some v := by
  unfold required
  cases i.field? name <;> simp

theorem expectField_eq_ok {α : Type} {name what : String} {o : Option α} {a : α} :
    expectField name what o = .ok a ↔ o = some a := by
  cases o <;> simp [expectField]

/-- The four readers of fields find a field and look at its form. -/
theorem fieldAs_eq_ok {α : Type} {i : Item} {name what : String} {f : Item → Option α} {a : α} :
    (do expectField name what (f (← i.required name)) : Except WireError α) = .ok a ↔
      ∃ v, i.field? name = some v ∧ f v = some a := by
  rw [Outcome.bind_eq_ok]
  simp only [required_eq_ok, expectField_eq_ok]

theorem textField_eq_ok {i : Item} {name s : String} :
    i.textField name = .ok s ↔ i.field? name = some (text s) := by
  have hform : ∀ v : Item, v.toText? = some s ↔ v = text s := by
    intro v
    cases v <;> simp [toText?]
  unfold textField
  rw [fieldAs_eq_ok]
  simp [hform]

theorem wordField_eq_ok {i : Item} {name : String} {n : UInt64} :
    i.wordField name = .ok n ↔ i.field? name = some (unsigned n) := by
  have hform : ∀ v : Item, v.toWord? = some n ↔ v = unsigned n := by
    intro v
    cases v <;> simp [toWord?]
  unfold wordField
  rw [fieldAs_eq_ok]
  simp [hform]

theorem boolField_eq_ok {i : Item} {name : String} {b : Bool} :
    i.boolField name = .ok b ↔ i.field? name = some (bool b) := by
  have hform : ∀ v : Item, v.toBool? = some b ↔ v = bool b := by
    intro v
    cases v <;> simp [toBool?]
  unfold boolField
  rw [fieldAs_eq_ok]
  simp [hform]

theorem arrayField_eq_ok {i : Item} {name : String} {items : List Item} :
    i.arrayField name = .ok items ↔ i.field? name = some (array items) := by
  have hform : ∀ v : Item, v.toArray? = some items ↔ v = array items := by
    intro v
    cases v <;> simp [toArray?]
  unfold arrayField
  rw [fieldAs_eq_ok]
  simp [hform]

/-- What a name stands for among candidates with names of their own. -/
theorem named_eq_ok {α : Type} {field : String} {candidates : List α} {name : α → String}
    (h : (candidates.map name).Nodup) {a : α} (ha : a ∈ candidates) :
    named field candidates name (name a) = .ok a := by
  have hfind : candidates.find? (fun b => name b == name a) = some a := by
    induction candidates with
    | nil => cases ha
    | cons b candidates ih =>
      rw [List.map_cons, List.nodup_cons] at h
      rw [List.find?_cons]
      rcases List.mem_cons.mp ha with rfl | hmem
      · simp
      · have hne : (name b == name a) = false := by
          rw [beq_eq_false_iff_ne]
          exact fun heq => h.1 (heq ▸ List.mem_map_of_mem hmem)
        rw [hne]
        exact ih h.2 hmem
  unfold named
  rw [hfind]

end Item
end Attest
