import Attest.Item

/-!
How deep items nest, and how long they are.
-/

namespace Attest
namespace Item

/-- What holds of an item if it holds of all that it is made of holds of all items. -/
@[elab_as_elim]
theorem inductionOn {P : Item → Prop} (i : Item) (unsigned : ∀ n, P (unsigned n))
    (negative : ∀ n, P (negative n)) (bytes : ∀ bs, P (bytes bs)) (text : ∀ s, P (text s))
    (array : ∀ items, (∀ i ∈ items, P i) → P (array items))
    (map : ∀ entries, (∀ e ∈ entries, P e.1 ∧ P e.2) → P (map entries))
    (tag : ∀ n content, P content → P (tag n content)) (bool : ∀ b, P (bool b)) (null : P null)
    (float : ∀ x, P (float x)) : P i := by
  induction hsize : sizeOf i using Nat.strongRecOn generalizing i with
  | ind size ih =>
    subst hsize
    cases i with
    | array items =>
      refine array items fun j hj => ih _ ?_ j rfl
      have := List.sizeOf_lt_of_mem hj
      simp only [Item.array.sizeOf_spec]
      omega
    | map entries =>
      refine map entries fun e he => ?_
      have := List.sizeOf_lt_of_mem he
      obtain ⟨k, v⟩ := e
      rw [Prod.mk.sizeOf_spec] at this
      constructor
      · refine ih _ ?_ k rfl
        simp only [Item.map.sizeOf_spec]
        omega
      · refine ih _ ?_ v rfl
        simp only [Item.map.sizeOf_spec]
        omega
    | tag n content =>
      refine tag n content (ih _ ?_ content rfl)
      simp only [Item.tag.sizeOf_spec]
      omega
    | unsigned n => exact unsigned n
    | negative n => exact negative n
    | bytes bs => exact bytes bs
    | text s => exact text s
    | bool b => exact bool b
    | null => exact null
    | float x => exact float x

mutual

/-- The number of items on the longest way from an item to one that holds no other. -/
def levels : Item → Nat
  | .array items => levelsOf items + 1
  | .map entries => levelsOfEntries entries + 1
  | .tag _ content => levels content + 1
  | _ => 1

def levelsOf : List Item → Nat
  | [] => 0
  | i :: rest => max (levels i) (levelsOf rest)

def levelsOfEntries : List (Item × Item) → Nat
  | [] => 0
  | (k, v) :: rest => max (max (levels k) (levels v)) (levelsOfEntries rest)

end

theorem levelsOf_le {items : List Item} {d : Nat} :
    levelsOf items ≤ d ↔ ∀ i ∈ items, i.levels ≤ d := by
  induction items with
  | nil => simp [levelsOf]
  | cons i items ih => rw [levelsOf, Nat.max_le, ih, List.forall_mem_cons]

theorem levelsOfEntries_le {entries : List (Item × Item)} {d : Nat} :
    levelsOfEntries entries ≤ d ↔ ∀ e ∈ entries, e.1.levels ≤ d ∧ e.2.levels ≤ d := by
  induction entries with
  | nil => simp [levelsOfEntries]
  | cons e entries ih => rw [levelsOfEntries, Nat.max_le, Nat.max_le, ih, List.forall_mem_cons]

theorem levels_pos (i : Item) : 0 < i.levels := by
  cases i <;> simp [levels]

/-- Every length in an item is a word, as those of a machine are. -/
inductive Sized : Item → Prop where
  | unsigned (n : UInt64) : Sized (.unsigned n)
  | negative (n : UInt64) : Sized (.negative n)
  | bytes {bs : List UInt8} (h : bs.length < 0x10000000000000000) : Sized (.bytes bs)
  | text {s : String} (h : s.utf8ByteSize < 0x10000000000000000) : Sized (.text s)
  | array {items : List Item} (hn : items.length < 0x10000000000000000)
      (h : ∀ i ∈ items, Sized i) : Sized (.array items)
  | map {entries : List (Item × Item)} (hn : entries.length < 0x10000000000000000)
      (hk : ∀ e ∈ entries, Sized e.1) (hv : ∀ e ∈ entries, Sized e.2) : Sized (.map entries)
  | tag (n : UInt64) {content : Item} (h : Sized content) : Sized (.tag n content)
  | bool (b : Bool) : Sized (.bool b)
  | null : Sized .null
  | float (x : Double) : Sized (.float x)

end Item
end Attest
