import Attest.Proofs.Cbor.RoundTrip
import Attest.Proofs.Item.Same
import Attest.Proofs.Sorting.Stable

/-!
What the bytes of an item keep of it.

Reading gives the entries of every map in the order of their written keys, and entries of one key in
the order in which they stood.  Maps of fields are in that order when they are made, since the order
of texts is that of their bytes.

Nothing but that order is lost.  An item can be read back at any depth by a reader that is allowed
as many levels, so two items with the same bytes are the same once their maps are in order, and
bytes behind an item never belong to it.  Bytes tell items apart as they are written, so the two
zeros differ in them and a float that is no number is equal to itself.  Among items without these it
is no other comparison than that of their values.
-/

namespace Attest
namespace Cbor

/-- The entries of a map in the order of their written keys, where two entries that are in that
order keep their places. -/
structure InKeyOrder (entries sorted : List (Item × Item)) : Prop where
  perm : sorted.Perm entries
  rising : Sorting.Rising entryLess sorted
  stable : ∀ a b, entryLess b a = false → [a, b].Sublist entries → [a, b].Sublist sorted

theorem inKeyOrder_sort (entries : List (Item × Item)) :
    InKeyOrder entries (Sorting.sort entryLess entries) where
  perm := Sorting.sort_perm entryLess entries
  rising := Sorting.rising_sort (fun a b => Item.keyLess_asymm (encode a.1) (encode b.1))
    (fun a b c => Item.keyLess_trans (encode a.1) (encode b.1) (encode c.1)) entries
  stable := fun _ _ => Sorting.pair_sublist_sort

/-- An item whose lengths are words reads back from its bytes with the entries of its maps in order
and nothing else changed, if it nests no deeper than the limit.  If it does, its bytes are
refused. -/
theorem decode_encode_canon {i : Item} (h : i.Sized) :
    (i.levels ≤ maxDepth → decode (encode i) = .ok (canon i)) ∧
      (maxDepth < i.levels → ∃ e, decode (encode i) = .error e) ∧
      (i.Built → canon i = i) ∧
      ∀ entries, ∃ sorted, InKeyOrder entries sorted ∧
        canon (.map entries) = .map (sorted.map fun e => (canon e.1, canon e.2)) := by
  refine ⟨decode_of_sized h, decode_of_sized_error h, canon_of_built, fun entries => ?_⟩
  exact ⟨_, inKeyOrder_sort entries, canon_map fun e _ => encode_canon e.1⟩

/-- Keys of three kinds, the last two of which are the same. -/
def mixedKeys : Item :=
  .map [(.text "bb", .null), (.unsigned 300, .float .nan), (.bool true, .unsigned 1),
    (.bool true, .array [.map [(.text "z", .negative 0), (.text "", .bytes [7])]])]

/-- A null in so many tags. -/
def tagged : Nat → Item
  | 0 => .null
  | k + 1 => .tag 24 (tagged k)

theorem sized_tagged (k : Nat) : (tagged k).Sized := by
  induction k with
  | zero => exact .null
  | succ k ih => exact .tag 24 ih

theorem levels_tagged (k : Nat) : (tagged k).levels = k + 1 := by
  induction k with
  | zero => rfl
  | succ k ih => rw [tagged, Item.levels, ih]

theorem decode_encode_mixedKeys :
    decode (encode mixedKeys) = .ok (.map
        [(.bool true, .unsigned 1),
          (.bool true, .array [.map [(.text "", .bytes [7]), (.text "z", .negative 0)]]),
          (.unsigned 300, .float .nan), (.text "bb", .null)]) ∧
      ∃ e, decode (encode (tagged 128)) = .error e := by
  have hsized : mixedKeys.Sized := sized_of_length_encode (by decide)
  have hcanon : canon mixedKeys = .map
      [(.bool true, .unsigned 1),
        (.bool true, .array [.map [(.text "", .bytes [7]), (.text "z", .negative 0)]]),
        (.unsigned 300, .float .nan), (.text "bb", .null)] := rfl
  constructor
  · rw [← hcanon]
    exact (decode_encode_canon hsized).1 (by decide)
  · refine (decode_encode_canon (sized_tagged 128)).2.1 ?_
    rw [levels_tagged]
    decide

theorem weakOrder_entryLess : Sorting.WeakOrder (fun _ => True) entryLess where
  asymm a b _ _ := Item.keyLess_asymm (encode a.1) (encode b.1)
  trans a b c _ _ _ := Item.keyLess_trans (encode a.1) (encode b.1) (encode c.1)

/-- What follows two items does not matter to which of them was written. -/
theorem canon_eq_of_append {a b : Item} (ha : a.Sized) (hb : b.Sized) {s t : List UInt8}
    (h : encode a ++ s = encode b ++ t) : canon a = canon b ∧ s = t := by
  have hreada := (decodes ha (max a.levels b.levels)).takes (Nat.le_max_left _ _) 0 s
  have hreadb := (decodes hb (max a.levels b.levels)).takes (Nat.le_max_right _ _) 0 t
  rw [h, hreadb] at hreada
  simp only [Except.ok.injEq, Prod.mk.injEq, Input.mk.injEq] at hreada
  exact ⟨hreada.1.symm, hreada.2.2.symm⟩

theorem plain_canon {i : Item} (h : i.Plain) : (canon i).Plain := by
  induction h with
  | array _ ih =>
    rw [canon, canonItems_eq_map]
    exact .array (List.forall_mem_map.mpr ih)
  | @map entries _ _ ihk ihv =>
    have hmem : ∀ e ∈ Sorting.sort entryLess entries, e ∈ entries :=
      fun e he => (Sorting.sort_perm entryLess entries).mem_iff.mp he
    rw [canon_map fun e _ => encode_canon e.1]
    exact .map (List.forall_mem_map.mpr fun e he => ihk e (hmem e he))
      (List.forall_mem_map.mpr fun e he => ihv e (hmem e he))
  | tag n _ ih => exact .tag n ih
  | float h => exact .float h
  | _ => constructor

/-- Two items have the same bytes exactly if they are the same with the entries of all their maps
stably sorted by the written keys, and the bytes of one never begin those of another. -/
theorem encode_eq_iff_canon {a b : Item} (ha : a.Sized) (hb : b.Sized) :
    (encode a = encode b ↔ canon a = canon b) ∧
      (a.Plain → b.Plain → (encode a = encode b ↔ (canon a).same (canon b) = true)) ∧
      (encode a <+: encode b → encode a = encode b) ∧
      ∀ entries, ∃ sorted, (∀ l, Sorting.StablySorted entryLess entries l ↔ l = sorted) ∧
        canon (.map entries) = .map (sorted.map fun e => (canon e.1, canon e.2)) := by
  have hiff : encode a = encode b ↔ canon a = canon b := by
    constructor
    · intro h
      have happend : encode a ++ [] = encode b ++ [] := by rw [h]
      exact (canon_eq_of_append ha hb happend).1
    · intro h
      rw [← encode_canon a, h, encode_canon b]
  refine ⟨hiff, fun hpa hpb => ?_, fun h => ?_, fun entries => ?_⟩
  · rw [hiff, Item.same_iff_eq (plain_canon hpa) (plain_canon hpb)]
  · obtain ⟨s, hs⟩ := h
    have happend : encode a ++ s = encode b ++ [] := by rw [hs, List.append_nil]
    rw [← hs, (canon_eq_of_append ha hb happend).2, List.append_nil]
  · refine ⟨Sorting.sort entryLess entries, fun l => ?_, canon_map fun e _ => encode_canon e.1⟩
    exact Sorting.stablySorted_iff weakOrder_entryLess fun _ _ => trivial

/-- A map for a key, with two entries of one key and one of another between them. -/
def inKey (first second : String) : Item :=
  .map [(.map [(.unsigned 9, .text first), (.null, .bool true), (.unsigned 9, .text second)],
    .float .nan)]

/-- The same with the two entries together. -/
def inKeySorted (first second : String) : Item :=
  .map [(.map [(.unsigned 9, .text first), (.unsigned 9, .text second), (.null, .bool true)],
    .float .nan)]

theorem encode_inKey :
    encode (inKey "a" "b") = encode (inKeySorted "a" "b") ∧
      encode (inKey "a" "b") ≠ encode (inKeySorted "b" "a") ∧
      (Item.float .zero).same (.float Double.zero.neg) = true ∧
      encode (.float .zero) ≠ encode (.float Double.zero.neg) := by
  have hkey : (inKey "a" "b").Sized := sized_of_length_encode (by decide)
  have hsorted : (inKeySorted "a" "b").Sized := sized_of_length_encode (by decide)
  have hswapped : (inKeySorted "b" "a").Sized := sized_of_length_encode (by decide)
  refine ⟨(encode_eq_iff_canon hkey hsorted).1.mpr rfl, fun h => ?_, rfl, fun h => ?_⟩
  · have hcanon : inKeySorted "a" "b" = inKeySorted "b" "a" :=
      (encode_eq_iff_canon hkey hswapped).1.mp h
    simp [inKeySorted] at hcanon
  · have hcanon : Item.float .zero = .float Double.zero.neg :=
      (encode_eq_iff_canon (.float _) (.float _)).1.mp h
    exact absurd (Item.float.inj hcanon) (by decide)

end Cbor
end Attest
