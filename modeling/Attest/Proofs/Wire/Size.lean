import Attest.Proofs.Cbor.RoundTrip
import Attest.Wire.Node
import Mathlib.Algebra.Order.BigOperators.Group.List

/-!
How many bytes conditions take.

An operator adds a bounded number of bytes to those of its operands.
-/

namespace Attest
namespace Cbor

theorem length_head_le (m : Major) (n : Nat) : (head m n).length ≤ 9 := by
  unfold head
  split_ifs <;> simp [length_bigEndian]

theorem length_encode_text_le (s : String) :
    (encode (.text s)).length ≤ s.utf8ByteSize + 9 := by
  have hhead := length_head_le .text s.utf8ByteSize
  rw [encode, List.length_append, Text.length_utf8]
  omega

def fieldSize (f : String × Item) : Nat := (encode (.text f.1)).length + (encode f.2).length

/-- Their order does not change how many bytes fields take. -/
theorem length_encode_ofFields (fields : List (String × Item)) :
    (encode (.ofFields fields)).length =
      (head .map fields.length).length + (fields.map fieldSize).sum := by
  have hperm := (Sorting.sort_perm entryLess _).trans
    ((Sorting.sort_perm Item.fieldLess fields).map fun f => (Item.text f.1, f.2))
  have hsize : (fun f : String × Item => (encodeEntry (.text f.1, f.2)).length) = fieldSize := by
    funext f
    rw [encodeEntry, List.length_append, fieldSize]
  rw [Item.ofFields_eq, encode_map, List.length_append, List.length_map,
    (Sorting.sort_perm Item.fieldLess fields).length_eq,
    (hperm.flatMap_right encodeEntry).length_eq, List.flatMap_map, List.length_flatMap, hsize]

/-- Fields with short names take little more than their items. -/
theorem length_encode_ofFields_le {fields : List (String × Item)}
    (h : (fields.all fun f => f.1.utf8ByteSize ≤ 7) = true) :
    (encode (.ofFields fields)).length ≤
      (fields.map fun f => (encode f.2).length + 16).sum + 9 := by
  have hhead := length_head_le .map fields.length
  have hsum : (fields.map fieldSize).sum ≤ (fields.map fun f => (encode f.2).length + 16).sum := by
    refine List.sum_le_sum fun f hf => ?_
    have hname := of_decide_eq_true (List.all_eq_true.mp h f hf)
    have htext := length_encode_text_le f.1
    unfold fieldSize
    omega
  rw [length_encode_ofFields]
  omega

end Cbor

/-- Room that is enough for the bytes of a condition. -/
def Predicate.room : Predicate → Nat
  | column c => c.name.utf8ByteSize + c.ty.render.utf8ByteSize + 128
  | literal v => (Cbor.encode (v.toItem (Certificate.ofValue v))).length + 128
  | unary _ p => p.room + 128
  | binary _ l r => l.room + r.room + 128
  | isNull p _ => p.room + 128

namespace Cbor

theorem length_encode_predicate_le (p : Predicate) : (encode p.toItem).length ≤ p.room := by
  have hop : ∀ s : String, s.utf8ByteSize ≤ 7 → (encode (.text s)).length ≤ 16 :=
    fun s hs => Nat.le_trans (length_encode_text_le s) (Nat.add_le_add_right hs 9)
  induction p with
  | column c =>
    have hname := length_encode_text_le c.name
    have hty := length_encode_text_le c.ty.render
    have hop := hop "column" (by decide)
    refine Nat.le_trans (length_encode_ofFields_le rfl) ?_
    simp only [List.map_cons, List.map_nil, List.sum_cons, List.sum_nil, Predicate.room]
    omega
  | literal v =>
    have hop := hop "literal" (by decide)
    refine Nat.le_trans (length_encode_ofFields_le rfl) ?_
    simp only [List.map_cons, List.map_nil, List.sum_cons, List.sum_nil, Predicate.room]
    omega
  | unary op p ih =>
    have hop := hop op.name (by cases op <;> decide)
    refine Nat.le_trans (length_encode_ofFields_le rfl) ?_
    simp only [List.map_cons, List.map_nil, List.sum_cons, List.sum_nil, Predicate.room]
    omega
  | binary op l r ihl ihr =>
    have hop := hop op.name (by cases op <;> decide)
    refine Nat.le_trans (length_encode_ofFields_le rfl) ?_
    simp only [List.map_cons, List.map_nil, List.sum_cons, List.sum_nil, Predicate.room]
    omega
  | isNull p negated ih =>
    have hop := hop "is_null" (by decide)
    have hnegated : (encode (.bool negated)).length = 1 := rfl
    refine Nat.le_trans (length_encode_ofFields_le rfl) ?_
    simp only [List.map_cons, List.map_nil, List.sum_cons, List.sum_nil, Predicate.room]
    omega

/-- A node takes the bytes that it takes without its condition and those of the condition. -/
theorem length_encode_node_le {n : Node} {p : Predicate} (hp : n.predicate = some p) :
    (encode n.toItem).length ≤ (encode { n with predicate := none }.toItem).length + p.room := by
  have hroom := length_encode_predicate_le p
  simp only [Node.toItem, length_encode_ofFields, List.map_cons, List.map_nil, List.sum_cons,
    List.sum_nil, List.length_cons, List.length_nil, fieldSize, hp, Option.map_some,
    Option.map_none, Item.optional, Option.getD_some, Option.getD_none]
  omega

end Cbor
end Attest
