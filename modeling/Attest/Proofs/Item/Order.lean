import Attest.Item.Document
import Attest.Proofs.Item.Fields
import Attest.Proofs.Text.Utf8

/-!
The order of keys.

Keys are ordered by their length and then by their bytes, so different keys never compare equal,
and the fields of a map come in one order only.  Items that are built of fields are regular: every
format can hold them, if it can hold their floats.
-/

namespace Attest
namespace Item

instance : Std.TransCmp keyOrder :=
  inferInstanceAs (Std.TransCmp (compareLex (compareOn List.length) (compare (α := List UInt8))))

theorem keyLess_asymm (a b : List UInt8) (h : keyLess a b = true) : keyLess b a = false := by
  unfold keyLess at *
  rw [Std.OrientedCmp.gt_of_lt (eq_of_beq h)]
  rfl

theorem keyLess_eq_false {a b : List UInt8} : keyLess a b = false ↔ (keyOrder a b).isGE := by
  unfold keyLess
  cases keyOrder a b <;> decide

theorem keyLess_trans (a b c : List UInt8) (hab : keyLess a b = false) (hbc : keyLess b c = false) :
    keyLess a c = false := by
  rw [keyLess_eq_false] at *
  exact Std.TransCmp.isGE_trans hab hbc

/-- Keys of which neither is smaller are the same. -/
theorem eq_of_keyLess {a b : List UInt8} (hab : keyLess a b = false) (hba : keyLess b a = false) :
    a = b := by
  have heq : keyOrder a b = .eq := by
    rw [keyLess_eq_false] at *
    have hswap : keyOrder b a = (keyOrder a b).swap := Std.OrientedCmp.eq_swap
    rw [hswap] at hba
    cases h : keyOrder a b <;> simp [h] at hab hba ⊢
  unfold keyOrder at heq
  rw [Ordering.then_eq_eq] at heq
  exact Std.LawfulEqOrd.eq_of_compare heq.2

def fieldLess (f g : String × Item) : Bool := keyLess (Text.utf8 f.1) (Text.utf8 g.1)

theorem ofFields_eq (fields : List (String × Item)) :
    ofFields fields = map ((Sorting.sort fieldLess fields).map fun f => (text f.1, f.2)) := rfl

theorem fieldLess_asymm (f g : String × Item) (h : fieldLess f g = true) : fieldLess g f = false :=
  keyLess_asymm (Text.utf8 f.1) (Text.utf8 g.1) h

theorem fieldLess_trans (f g k : String × Item) (hfg : fieldLess f g = false)
    (hgk : fieldLess g k = false) : fieldLess f k = false :=
  keyLess_trans (Text.utf8 f.1) (Text.utf8 g.1) (Text.utf8 k.1) hfg hgk

theorem rising_fields (fields : List (String × Item)) :
    Sorting.Rising fieldLess (Sorting.sort fieldLess fields) :=
  Sorting.rising_sort fieldLess_asymm fieldLess_trans fields

/-- With no name twice, only the fields matter and not their order. -/
theorem ofFields_perm {fields fields' : List (String × Item)} (h : fields.Perm fields')
    (hn : (fields'.map Prod.fst).Nodup) : ofFields fields = ofFields fields' := by
  have hsort : Sorting.sort fieldLess fields = Sorting.sort fieldLess fields' := by
    refine Sorting.sort_eq_of_perm fieldLess_asymm fieldLess_trans h fun f hf g hg hfg hgf => ?_
    exact List.inj_on_of_nodup_map hn hf hg (Text.utf8_injective (eq_of_keyLess hfg hgf))
  rw [ofFields_eq, ofFields_eq, hsort]

theorem ofFields_of_rising {fields : List (String × Item)}
    (h : Sorting.Rising fieldLess fields) :
    ofFields fields = map (fields.map fun f => (text f.1, f.2)) := by
  rw [ofFields_eq, Sorting.sort_of_rising h]

/-- Items whose maps are all made of fields. -/
inductive Built : Item → Prop where
  | unsigned (n : UInt64) : Built (.unsigned n)
  | negative (n : UInt64) : Built (.negative n)
  | bytes (bs : List UInt8) : Built (.bytes bs)
  | text (s : String) : Built (.text s)
  | array {items : List Item} (h : ∀ i ∈ items, Built i) : Built (.array items)
  | map {fields : List (String × Item)} (h : ∀ f ∈ fields, Built f.2) : Built (ofFields fields)
  | tag (n : UInt64) {content : Item} (h : Built content) : Built (.tag n content)
  | bool (b : Bool) : Built (.bool b)
  | null : Built .null
  | float (x : Double) : Built (.float x)

/-- Items of integers with 64 bits, texts, floats with a property, and maps with names for keys, in
order, none of which is the member that names a tag. -/
inductive Regular (P : Double → Prop) : Item → Prop where
  | unsigned (n : UInt64) : Regular P (.unsigned n)
  | int (i : Int64) : Regular P (int i)
  | text (s : String) : Regular P (.text s)
  | bool (b : Bool) : Regular P (.bool b)
  | null : Regular P .null
  | float {x : Double} (h : P x) : Regular P (.float x)
  | array {items : List Item} (h : ∀ i ∈ items, Regular P i) : Regular P (.array items)
  | map {fields : List (String × Item)} (hr : Sorting.Rising fieldLess fields)
      (hn : (fields.map Prod.fst).Nodup) (ht : tagMember ∉ fields.map Prod.fst)
      (h : ∀ f ∈ fields, Regular P f.2) : Regular P (.map (fields.map fun f => (.text f.1, f.2)))
  | tag {fields : List (String × Item)} (t : Tag) (hr : Sorting.Rising fieldLess fields)
      (hn : (fields.map Prod.fst).Nodup) (ht : tagMember ∉ fields.map Prod.fst)
      (h : ∀ f ∈ fields, Regular P f.2) :
      Regular P (.tag t.value (.map (fields.map fun f => (.text f.1, f.2))))

theorem Regular.built {P : Double → Prop} {i : Item} (h : Regular P i) : Built i := by
  induction h with
  | int i =>
    unfold Item.int
    split
    · exact .unsigned _
    · exact .negative _
  | array h ih => exact .array ih
  | map hr hn ht h ih => exact ofFields_of_rising hr ▸ .map ih
  | tag t hr hn ht h ih => exact .tag _ (ofFields_of_rising hr ▸ .map ih)
  | _ => constructor

section Fields

variable {P : Double → Prop} (t : Tag) {fields : List (String × Item)}
  (hn : (fields.map Prod.fst).Nodup) (ht : tagMember ∉ fields.map Prod.fst)
  (h : fields.Forall fun f => Regular P f.2)

include hn ht h

theorem regular_ofFields : Regular P (ofFields fields) := by
  have hperm := Sorting.sort_perm fieldLess fields
  rw [ofFields_eq]
  refine .map (rising_fields fields) ((hperm.map Prod.fst).nodup_iff.mpr hn) ?_ ?_
  · rwa [(hperm.map Prod.fst).mem_iff]
  · exact fun f hf => List.forall_iff_forall_mem.mp h f (hperm.mem_iff.mp hf)

theorem regular_tag : Regular P (.tag t.value (ofFields fields)) := by
  have hperm := Sorting.sort_perm fieldLess fields
  rw [ofFields_eq]
  refine .tag t (rising_fields fields) ((hperm.map Prod.fst).nodup_iff.mpr hn) ?_ ?_
  · rwa [(hperm.map Prod.fst).mem_iff]
  · exact fun f hf => List.forall_iff_forall_mem.mp h f (hperm.mem_iff.mp hf)

end Fields

theorem regular_optional {P : Double → Prop} {o : Option Item} (h : ∀ i ∈ o, Regular P i) :
    Regular P (optional o) := by
  cases o with
  | none => exact .null
  | some i => exact h i rfl

end Item
end Attest
