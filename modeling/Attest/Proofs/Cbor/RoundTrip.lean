import Attest.Proofs.Cbor.Head
import Attest.Proofs.Item.Levels
import Attest.Proofs.Item.Order

/-!
Encoded items read back.

What is read from the bytes of an item is the item with the entries of its maps in order, as long
as it nests no deeper than the limit.  An item that nests deeper is refused.
-/

namespace Attest
namespace Cbor

def entryLess (a b : Item × Item) : Bool := Item.keyLess (encode a.1) (encode b.1)

def encodeEntry (e : Item × Item) : List UInt8 := encode e.1 ++ encode e.2

mutual

/-- An item with the entries of every map in order. -/
def canon : Item → Item
  | .array items => .array (canonItems items)
  | .map entries => .map (Sorting.sort entryLess (canonEntries entries))
  | .tag n content => .tag n (canon content)
  | i => i

def canonItems : List Item → List Item
  | [] => []
  | i :: rest => canon i :: canonItems rest

def canonEntries : List (Item × Item) → List (Item × Item)
  | [] => []
  | (k, v) :: rest => (canon k, canon v) :: canonEntries rest

end

theorem canonItems_eq_map (items : List Item) : canonItems items = items.map canon := by
  induction items with
  | nil => rfl
  | cons i items ih => rw [canonItems, ih, List.map_cons]

theorem canonEntries_eq_map (entries : List (Item × Item)) :
    canonEntries entries = entries.map fun e => (canon e.1, canon e.2) := by
  induction entries with
  | nil => rfl
  | cons e entries ih => rw [canonEntries, ih, List.map_cons]

theorem encodeItems_eq_flatMap (items : List Item) : encodeItems items = items.flatMap encode := by
  induction items with
  | nil => rfl
  | cons i items ih => rw [encodeItems, ih, List.flatMap_cons]

theorem encodeEntries_eq_map (entries : List (Item × Item)) :
    encodeEntries entries = entries.map fun e => (encode e.1, encode e.2) := by
  induction entries with
  | nil => rfl
  | cons e entries ih => rw [encodeEntries, ih, List.map_cons]

theorem encode_map (entries : List (Item × Item)) :
    encode (.map entries) =
      head .map entries.length ++ (Sorting.sort entryLess entries).flatMap encodeEntry := by
  rw [encode, encodeEntries_eq_map, sortEntries, Sorting.sort_map, joinEntries, List.flatMap_map]
  rfl

theorem length_sort (entries : List (Item × Item)) :
    (Sorting.sort entryLess entries).length = entries.length :=
  (Sorting.sort_perm entryLess entries).length_eq

/-- The entries of a map in order, each with its parts in order, if that keeps the keys' bytes. -/
theorem canon_map {entries : List (Item × Item)}
    (h : ∀ e ∈ entries, encode (canon e.1) = encode e.1) :
    canon (.map entries) =
      .map ((Sorting.sort entryLess entries).map fun e => (canon e.1, canon e.2)) := by
  have hless : ∀ a ∈ entries, ∀ b ∈ entries,
      entryLess (canon a.1, canon a.2) (canon b.1, canon b.2) = entryLess a b := by
    intro a ha b hb
    rw [entryLess, h a ha, h b hb]
    rfl
  rw [canon, canonEntries_eq_map, Sorting.sort_map, Sorting.sort_congr hless]

/-- Order does not change the bytes. -/
theorem encode_canon (i : Item) : encode (canon i) = encode i := by
  induction i using Item.inductionOn with
  | array items ih =>
    rw [canon, encode, encode, canonItems_eq_map, encodeItems_eq_flatMap, encodeItems_eq_flatMap,
      List.length_map, List.flatMap_map]
    congr 1
    exact List.flatMap_congr ih
  | map entries ih =>
    have hrising : Sorting.Rising entryLess (Sorting.sort entryLess (canonEntries entries)) :=
      Sorting.rising_sort (fun a b => Item.keyLess_asymm (encode a.1) (encode b.1))
        (fun a b c => Item.keyLess_trans (encode a.1) (encode b.1) (encode c.1)) _
    have hcanon := canon_map fun e he => (ih e he).1
    rw [canon, Item.map.injEq] at hcanon
    rw [canon, encode_map, Sorting.sort_of_rising hrising, hcanon, List.length_map, length_sort,
      encode_map, List.flatMap_map]
    congr 1
    -- Keys keep their bytes, so the entries come in the same order on both sides.
    refine List.flatMap_congr fun e he => ?_
    obtain ⟨hk, hv⟩ := ih e ((Sorting.sort_perm entryLess entries).mem_iff.mp he)
    rw [encodeEntry, encodeEntry, hk, hv]
  | tag n content ih => rw [canon, encode, encode, ih]
  | _ => rfl

theorem length_encode_pos (i : Item) : 0 < (encode i).length := by
  have hhead : ∀ (m : Major) (n : Nat) (bs : List UInt8), 0 < (head m n ++ bs).length := by
    intro m n bs
    rw [List.length_append]
    exact Nat.add_pos_left (length_head_pos m n) _
  cases i with
  | unsigned n => exact length_head_pos _ _
  | negative n => exact length_head_pos _ _
  | bool b => exact Nat.succ_pos 0
  | null => exact Nat.succ_pos 0
  | float x => exact Nat.succ_pos _
  | _ => exact hhead _ _ _

/-- A reader takes some bytes for something, whatever follows. -/
def Takes {α : Type} (read : Input → Except WireError (α × Input)) (bs : List UInt8) (a : α) :
    Prop :=
  ∀ o rest, read ⟨o, bs ++ rest⟩ = .ok (a, ⟨o + bs.length, rest⟩)

/-- A reader refuses some bytes, whatever follows. -/
def Rejects {α : Type} (read : Input → Except WireError (α × Input)) (bs : List UInt8) : Prop :=
  ∀ o rest, ∃ e, read ⟨o, bs ++ rest⟩ = .error e

section Many

variable {read : Input → Except WireError (Item × Input)}

theorem takes_readMany {items : List Item} (h : ∀ i ∈ items, Takes read (encode i) (canon i)) :
    Takes (readMany read items.length) (items.flatMap encode) (items.map canon) := by
  induction items with
  | nil => exact fun o rest => rfl
  | cons i items ih =>
    intro o rest
    have hrest := ih fun j hj => h j (List.mem_cons_of_mem i hj)
    rw [List.length_cons, readMany, List.flatMap_cons, List.append_assoc,
      h i List.mem_cons_self o, Outcome.ok_bind]
    dsimp only
    rw [hrest, Outcome.ok_bind, List.length_append, Nat.add_assoc]
    rfl

theorem not_rejects_of_takes {α : Type} {read : Input → Except WireError (α × Input)}
    {bs : List UInt8} {a : α} (h : Takes read bs a) : ¬ Rejects read bs := by
  intro hrejects
  obtain ⟨e, he⟩ := hrejects 0 []
  rw [h] at he
  cases he

/-- The first item that is refused ends the reading. -/
theorem rejects_readMany {items : List Item}
    (h : ∀ i ∈ items, Takes read (encode i) (canon i) ∨ Rejects read (encode i))
    (hex : ∃ i ∈ items, Rejects read (encode i)) :
    Rejects (readMany read items.length) (items.flatMap encode) := by
  induction items with
  | nil =>
    obtain ⟨i, hi, -⟩ := hex
    cases hi
  | cons i items ih =>
    intro o rest
    rw [List.length_cons, readMany, List.flatMap_cons, List.append_assoc]
    rcases h i List.mem_cons_self with htakes | hrejects
    · have hlater : ∃ j ∈ items, Rejects read (encode j) := by
        obtain ⟨j, hj, hrejects⟩ := hex
        rcases List.mem_cons.mp hj with rfl | hj
        · exact absurd hrejects (not_rejects_of_takes htakes)
        · exact ⟨j, hj, hrejects⟩
      obtain ⟨e, he⟩ := ih (fun j hj => h j (List.mem_cons_of_mem i hj)) hlater
        (o + (encode i).length) rest
      refine ⟨e, ?_⟩
      rw [htakes o, Outcome.ok_bind]
      dsimp only
      rw [he]
      rfl
    · obtain ⟨e, he⟩ := hrejects o (items.flatMap encode ++ rest)
      exact ⟨e, by rw [he]; rfl⟩

theorem takes_readEntries {entries : List (Item × Item)}
    (h : ∀ e ∈ entries, Takes read (encode e.1) (canon e.1) ∧ Takes read (encode e.2) (canon e.2)) :
    Takes (readEntries read entries.length) (entries.flatMap encodeEntry)
      (entries.map fun e => (canon e.1, canon e.2)) := by
  induction entries with
  | nil => exact fun o rest => rfl
  | cons e entries ih =>
    intro o rest
    obtain ⟨hk, hv⟩ := h e List.mem_cons_self
    have hrest := ih fun e' he' => h e' (List.mem_cons_of_mem e he')
    rw [List.length_cons, readEntries, List.flatMap_cons, encodeEntry, List.append_assoc,
      List.append_assoc, hk o, Outcome.ok_bind]
    dsimp only
    rw [hv, Outcome.ok_bind]
    dsimp only
    rw [hrest, Outcome.ok_bind, List.length_append, List.length_append, ← Nat.add_assoc,
      ← Nat.add_assoc]
    rfl

theorem rejects_readEntries {entries : List (Item × Item)}
    (h : ∀ e ∈ entries, (Takes read (encode e.1) (canon e.1) ∨ Rejects read (encode e.1)) ∧
      (Takes read (encode e.2) (canon e.2) ∨ Rejects read (encode e.2)))
    (hex : ∃ e ∈ entries, Rejects read (encode e.1) ∨ Rejects read (encode e.2)) :
    Rejects (readEntries read entries.length) (entries.flatMap encodeEntry) := by
  induction entries with
  | nil =>
    obtain ⟨e, he, -⟩ := hex
    cases he
  | cons e entries ih =>
    intro o rest
    rw [List.length_cons, readEntries, List.flatMap_cons, encodeEntry, List.append_assoc,
      List.append_assoc]
    obtain ⟨hk | hk, hv⟩ := h e List.mem_cons_self
    · rw [hk o, Outcome.ok_bind]
      dsimp only
      rcases hv with hv | hv
      · have hlater : ∃ e' ∈ entries, Rejects read (encode e'.1) ∨ Rejects read (encode e'.2) := by
          obtain ⟨e', he', hrejects⟩ := hex
          rcases List.mem_cons.mp he' with rfl | he'
          · exact absurd hrejects (not_or.mpr ⟨not_rejects_of_takes hk, not_rejects_of_takes hv⟩)
          · exact ⟨e', he', hrejects⟩
        obtain ⟨why, hwhy⟩ := ih (fun e' he' => h e' (List.mem_cons_of_mem e he')) hlater
          (o + (encode e.1).length + (encode e.2).length) rest
        refine ⟨why, ?_⟩
        rw [hv, Outcome.ok_bind]
        dsimp only
        rw [hwhy]
        rfl
      · obtain ⟨why, hwhy⟩ := hv (o + (encode e.1).length) (entries.flatMap encodeEntry ++ rest)
        exact ⟨why, by rw [hwhy]; rfl⟩
    · obtain ⟨why, hwhy⟩ := hk o (encode e.2 ++ (entries.flatMap encodeEntry ++ rest))
      exact ⟨why, by rw [hwhy]; rfl⟩

end Many

theorem length_flatMap_encode (items : List Item) :
    items.length ≤ (items.flatMap encode).length := by
  induction items with
  | nil => exact Nat.le_refl 0
  | cons i items ih =>
    have := length_encode_pos i
    rw [List.flatMap_cons, List.length_append, List.length_cons]
    omega

theorem length_flatMap_encodeEntry (entries : List (Item × Item)) :
    entries.length * 2 ≤ (entries.flatMap encodeEntry).length := by
  induction entries with
  | nil => exact Nat.le_refl 0
  | cons e entries ih =>
    have := length_encode_pos e.1
    have := length_encode_pos e.2
    rw [List.flatMap_cons, List.length_append, List.length_cons, encodeEntry, List.length_append]
    omega

theorem length_le_flatMap {α β : Type} {f : α → List β} {as : List α} {a : α} (h : a ∈ as) :
    (f a).length ≤ (as.flatMap f).length := by
  obtain ⟨before, after, rfl⟩ := List.append_of_mem h
  rw [List.flatMap_append, List.flatMap_cons, List.length_append, List.length_append]
  omega

theorem count_eq_ok {info o least n : Nat} {i j : Input} (h : argument info o i = .ok (n, j))
    (hlen : n * least ≤ j.rest.length) : count info o least i = .ok (n, j) := by
  unfold count
  rw [h, Outcome.ok_bind]
  dsimp only
  rw [if_pos hlen]
  rfl

/-- Bytes that each thing behind a head takes at least, if the head counts any. -/
def least : Major → Nat
  | .unsigned | .negative | .tag | .simple => 0
  | .bytes | .text | .array => 1
  | .map => 2

def readBody (d : Nat) (m : Major) (n start : Nat) (i : Input) :
    Except WireError (Item × Input) :=
  match m with
  | .unsigned => return (.unsigned n.toUInt64, i)
  | .negative => return (.negative n.toUInt64, i)
  | .bytes => do
    let (bs, i) ← take n i
    return (.bytes bs, i)
  | .text => readText n start i
  | .array => do
    let (items, i) ← readMany (readItem d) n i
    return (.array items, i)
  | .map => do
    let (entries, i) ← readEntries (readItem d) n i
    return (.map entries, i)
  | .tag => do
    let (content, i) ← readItem d i
    return (.tag n.toUInt64 content, i)
  | .simple => readSimple n start i

/-- An item is read by its head and then by what is behind that. -/
theorem readItem_head {m : Major} (hm : m ≠ .simple) {d n : Nat} (h : n < 2 ^ 64) (o : Nat)
    {rest : List UInt8} (hlen : n * least m ≤ rest.length) :
    readItem (d + 1) ⟨o, head m n ++ rest⟩ =
      readBody d m n o ⟨o + (head m n).length, rest⟩ := by
  obtain ⟨byte, i, hbyte, hmajor, harg⟩ := read_head m h o rest
  have hcount := count_eq_ok harg hlen
  rw [readItem, hbyte, Outcome.ok_bind]
  dsimp only
  rw [hmajor]
  cases m with
  | simple => exact absurd rfl hm
  | unsigned | negative | tag =>
    dsimp only
    rw [harg]
    rfl
  | bytes | text | array | map =>
    dsimp only
    rw [least] at hcount
    rw [hcount]
    rfl

theorem readItem_simple {d info : Nat} (h : info < 32) (o : Nat) (rest : List UInt8) :
    readItem (d + 1) ⟨o, initial .simple info :: rest⟩ = readSimple info o ⟨o + 1, rest⟩ := by
  obtain ⟨byte, hbyte, hmajor, hmod⟩ := read_initial .simple h o rest
  rw [readItem, hbyte, Outcome.ok_bind]
  dsimp only
  rw [hmajor, hmod]

theorem takes_unsigned (n : UInt64) (d : Nat) :
    Takes (readItem (d + 1)) (encode (.unsigned n)) (.unsigned n) := by
  intro o rest
  rw [encode, readItem_head (by decide) n.toNat_lt o (Nat.zero_le _), readBody, Nat.toUInt64_eq,
    UInt64.ofNat_toNat]
  rfl

theorem takes_negative (n : UInt64) (d : Nat) :
    Takes (readItem (d + 1)) (encode (.negative n)) (.negative n) := by
  intro o rest
  rw [encode, readItem_head (by decide) n.toNat_lt o (Nat.zero_le _), readBody, Nat.toUInt64_eq,
    UInt64.ofNat_toNat]
  rfl

theorem takes_bytes {bs : List UInt8} (h : bs.length < 2 ^ 64) (d : Nat) :
    Takes (readItem (d + 1)) (encode (.bytes bs)) (.bytes bs) := by
  intro o rest
  rw [encode, List.append_assoc, readItem_head (by decide) h o (by simp [least]), readBody,
    take_append, Outcome.ok_bind, List.length_append, ← Nat.add_assoc]
  rfl

theorem takes_text {s : String} (h : s.utf8ByteSize < 2 ^ 64) (d : Nat) :
    Takes (readItem (d + 1)) (encode (.text s)) (.text s) := by
  intro o rest
  have hlen := Text.length_utf8 s
  have htake := take_append (o + (head .text s.utf8ByteSize).length) (Text.utf8 s) rest
  rw [hlen] at htake
  rw [encode, List.append_assoc, readItem_head (by decide) h o (by simp [least, hlen]), readBody,
    readText, htake, Outcome.ok_bind]
  dsimp only
  rw [Text.ofUtf8?_utf8, List.length_append, hlen, ← Nat.add_assoc]
  rfl

theorem takes_bool (b : Bool) (d : Nat) :
    Takes (readItem (d + 1)) (encode (.bool b)) (.bool b) := by
  intro o rest
  rw [encode, List.singleton_append, readItem_simple (by cases b <;> decide)]
  cases b <;> rfl

theorem takes_null (d : Nat) : Takes (readItem (d + 1)) (encode .null) .null := by
  intro o rest
  rw [encode, List.singleton_append, readItem_simple (by decide)]
  rfl

theorem takes_float (x : Double) (d : Nat) :
    Takes (readItem (d + 1)) (encode (.float x)) (.float x) := by
  intro o rest
  have hnumber := takeNumber_bigEndian (k := 8) x.bits.toNat_lt (o + 1) rest
  have hbits : Double.ofBits x.bits.toNat = x := by
    rw [Double.ofBits, Nat.toUInt64_eq, UInt64.ofNat_toNat]
  rw [encode, List.cons_append, readItem_simple (by decide)]
  show (takeNumber 8 ⟨o + 1, bigEndian 8 x.bits.toNat ++ rest⟩ >>= _) = _
  rw [hnumber, Outcome.ok_bind]
  dsimp only
  rw [hbits, List.length_cons, length_bigEndian]
  rfl

/-- Whether an item is read depends on its levels alone. -/
structure Decodes (d : Nat) (i : Item) : Prop where
  takes : i.levels ≤ d → Takes (readItem d) (encode i) (canon i)
  rejects : d < i.levels → Rejects (readItem d) (encode i)

theorem decodes_zero (i : Item) : Decodes 0 i :=
  ⟨fun hle => absurd hle (Nat.not_le.mpr i.levels_pos), fun _ _ _ => ⟨_, rfl⟩⟩

theorem decodes_leaf {d : Nat} {i : Item} (hlevels : i.levels = 1)
    (h : Takes (readItem (d + 1)) (encode i) (canon i)) : Decodes (d + 1) i :=
  ⟨fun _ => h, fun hd => absurd hd (by omega)⟩

theorem Decodes.takes_or_rejects {d : Nat} {i : Item} (h : Decodes d i) :
    Takes (readItem d) (encode i) (canon i) ∨ Rejects (readItem d) (encode i) :=
  (le_or_gt i.levels d).imp h.takes h.rejects

theorem decodes_array {d : Nat} {items : List Item} (h : items.length < 2 ^ 64)
    (hd : ∀ i ∈ items, Decodes d i) : Decodes (d + 1) (.array items) := by
  have hread : ∀ o rest, readItem (d + 1) ⟨o, encode (.array items) ++ rest⟩ = (do
      let (js, i) ← readMany (readItem d) items.length
        ⟨o + (head .array items.length).length, items.flatMap encode ++ rest⟩
      return (.array js, i)) := by
    intro o rest
    have := length_flatMap_encode items
    rw [encode, encodeItems_eq_flatMap, List.append_assoc,
      readItem_head (by decide) h o (by rw [least, List.length_append]; omega), readBody]
  constructor
  · intro hle o rest
    rw [Item.levels, Nat.add_le_add_iff_right, Item.levelsOf_le] at hle
    have hitems := takes_readMany fun i hi => (hd i hi).takes (hle i hi)
    rw [hread, hitems, Outcome.ok_bind, encode, encodeItems_eq_flatMap, List.length_append,
      ← Nat.add_assoc, canon, canonItems_eq_map]
    rfl
  · intro hlt o rest
    rw [Item.levels, Nat.add_lt_add_iff_right, ← Nat.not_le, Item.levelsOf_le] at hlt
    obtain ⟨i, hi, hdeep⟩ : ∃ i ∈ items, d < i.levels := by simpa using hlt
    obtain ⟨e, he⟩ := rejects_readMany (fun i hi => (hd i hi).takes_or_rejects)
      ⟨i, hi, (hd i hi).rejects hdeep⟩ (o + (head .array items.length).length) rest
    exact ⟨e, by rw [hread, he]; rfl⟩

theorem decodes_map {d : Nat} {entries : List (Item × Item)} (h : entries.length < 2 ^ 64)
    (hd : ∀ e ∈ entries, Decodes d e.1 ∧ Decodes d e.2) : Decodes (d + 1) (.map entries) := by
  have hmem : ∀ e ∈ Sorting.sort entryLess entries, Decodes d e.1 ∧ Decodes d e.2 :=
    fun e he => hd e ((Sorting.sort_perm entryLess entries).mem_iff.mp he)
  have hread : ∀ o rest, readItem (d + 1) ⟨o, encode (.map entries) ++ rest⟩ = (do
      let (es, i) ← readEntries (readItem d) (Sorting.sort entryLess entries).length
        ⟨o + (head .map entries.length).length,
          (Sorting.sort entryLess entries).flatMap encodeEntry ++ rest⟩
      return (.map es, i)) := by
    intro o rest
    have := length_flatMap_encodeEntry (Sorting.sort entryLess entries)
    rw [length_sort] at *
    rw [encode_map, List.append_assoc,
      readItem_head (by decide) h o (by rw [least, List.length_append]; omega), readBody]
  constructor
  · intro hle o rest
    rw [Item.levels, Nat.add_le_add_iff_right, Item.levelsOfEntries_le] at hle
    have hentries := takes_readEntries fun e he =>
      have hlevels := hle e ((Sorting.sort_perm entryLess entries).mem_iff.mp he)
      ⟨(hmem e he).1.takes hlevels.1, (hmem e he).2.takes hlevels.2⟩
    rw [hread, hentries, Outcome.ok_bind, encode_map, List.length_append, ← Nat.add_assoc,
      canon_map fun e _ => encode_canon e.1]
    rfl
  · intro hlt o rest
    rw [Item.levels, Nat.add_lt_add_iff_right, ← Nat.not_le, Item.levelsOfEntries_le] at hlt
    obtain ⟨e, he, hdeep⟩ : ∃ e ∈ entries, d < e.1.levels ∨ d < e.2.levels := by
      by_contra hall
      refine hlt fun e he => ?_
      by_contra hdeep
      exact hall ⟨e, he, by omega⟩
    have hrejects := hdeep.imp (hd e he).1.rejects (hd e he).2.rejects
    obtain ⟨why, hwhy⟩ := rejects_readEntries
      (fun e he => ⟨(hmem e he).1.takes_or_rejects, (hmem e he).2.takes_or_rejects⟩)
      ⟨e, (Sorting.sort_perm entryLess entries).mem_iff.mpr he, hrejects⟩
      (o + (head .map entries.length).length) rest
    exact ⟨why, by rw [hread, hwhy]; rfl⟩

theorem decodes_tag {d : Nat} {n : UInt64} {content : Item} (hd : Decodes d content) :
    Decodes (d + 1) (.tag n content) := by
  have hread : ∀ o rest, readItem (d + 1) ⟨o, encode (.tag n content) ++ rest⟩ = (do
      let (c, i) ← readItem d ⟨o + (head .tag n.toNat).length, encode content ++ rest⟩
      return (.tag n c, i)) := by
    intro o rest
    rw [encode, List.append_assoc, readItem_head (by decide) n.toNat_lt o (Nat.zero_le _), readBody,
      Nat.toUInt64_eq, UInt64.ofNat_toNat]
  constructor
  · intro hle o rest
    rw [hread, hd.takes (Nat.le_of_succ_le_succ hle), Outcome.ok_bind, encode, List.length_append,
      ← Nat.add_assoc]
    rfl
  · intro hlt o rest
    obtain ⟨e, he⟩ := hd.rejects (Nat.lt_of_succ_lt_succ hlt) (o + (head .tag n.toNat).length) rest
    exact ⟨e, by rw [hread, he]; rfl⟩

theorem decodes_of_succ {i : Item} (h : ∀ d, Decodes (d + 1) i) : ∀ d, Decodes d i
  | 0 => decodes_zero i
  | d + 1 => h d

/-- The bytes of an item are read if it has few enough levels, and refused otherwise. -/
theorem decodes {i : Item} (h : i.Sized) : ∀ d, Decodes d i := by
  refine decodes_of_succ fun d => ?_
  induction h generalizing d with
  | array hn _ ih => exact decodes_array (by omega) fun i hi => decodes_of_succ (ih i hi) d
  | map hn _ _ ihk ihv =>
    exact decodes_map (by omega) fun e he =>
      ⟨decodes_of_succ (ihk e he) d, decodes_of_succ (ihv e he) d⟩
  | tag n _ ih => exact decodes_tag (decodes_of_succ ih d)
  | bytes h => exact decodes_leaf rfl (takes_bytes (by omega) d)
  | text h => exact decodes_leaf rfl (takes_text (by omega) d)
  | unsigned n => exact decodes_leaf rfl (takes_unsigned n d)
  | negative n => exact decodes_leaf rfl (takes_negative n d)
  | bool b => exact decodes_leaf rfl (takes_bool b d)
  | null => exact decodes_leaf rfl (takes_null d)
  | float x => exact decodes_leaf rfl (takes_float x d)

theorem decode_of_sized {i : Item} (h : i.Sized) (hd : i.levels ≤ maxDepth) :
    decode (encode i) = .ok (canon i) := by
  have hread := (decodes h maxDepth).takes hd 0 []
  rw [List.append_nil] at hread
  rw [decode, hread]
  rfl

theorem decode_of_sized_error {i : Item} (h : i.Sized) (hd : maxDepth < i.levels) :
    ∃ e, decode (encode i) = .error e := by
  obtain ⟨e, he⟩ := (decodes h maxDepth).rejects hd 0 []
  rw [List.append_nil] at he
  exact ⟨e, by rw [decode, he]; rfl⟩

/-- No length in an item is greater than the number of its bytes. -/
theorem sized_of_length_encode {i : Item} (h : (encode i).length < 2 ^ 64) : i.Sized := by
  induction i using Item.inductionOn with
  | array items ih =>
    rw [encode, encodeItems_eq_flatMap, List.length_append] at h
    have hcount := length_flatMap_encode items
    -- A part takes no more bytes than the whole, so the bound on them passes to it.
    refine .array (by omega) fun i hi => ih i hi ?_
    have hle : (encode i).length ≤ (items.flatMap encode).length := length_le_flatMap hi
    omega
  | map entries ih =>
    rw [encode_map, List.length_append] at h
    have hcount := length_flatMap_encodeEntry (Sorting.sort entryLess entries)
    rw [length_sort] at hcount
    have hle : ∀ e ∈ entries, (encode e.1).length + (encode e.2).length ≤
        ((Sorting.sort entryLess entries).flatMap encodeEntry).length := by
      intro e he
      rw [← List.length_append]
      exact length_le_flatMap (f := encodeEntry)
        ((Sorting.sort_perm entryLess entries).mem_iff.mpr he)
    refine .map (by omega) (fun e he => (ih e he).1 ?_) fun e he => (ih e he).2 ?_
    · have := hle e he
      omega
    · have := hle e he
      omega
  | tag n content ih =>
    rw [encode, List.length_append] at h
    exact .tag n (ih (by omega))
  | bytes bs =>
    rw [encode, List.length_append] at h
    exact .bytes (by omega)
  | text s =>
    rw [encode, List.length_append, Text.length_utf8] at h
    exact .text (by omega)
  | unsigned n => exact .unsigned n
  | negative n => exact .negative n
  | bool b => exact .bool b
  | null => exact .null
  | float x => exact .float x

theorem decode_encode {i : Item} (h : (encode i).length < 2 ^ 64) (hd : i.levels ≤ maxDepth) :
    decode (encode i) = .ok (canon i) := decode_of_sized (sized_of_length_encode h) hd

theorem decode_encode_error {i : Item} (h : (encode i).length < 2 ^ 64) (hd : maxDepth < i.levels) :
    ∃ e, decode (encode i) = .error e := decode_of_sized_error (sized_of_length_encode h) hd

theorem compare_append (p x y : List UInt8) : compare (p ++ x) (p ++ y) = compare x y := by
  induction p with
  | nil => rfl
  | cons b p ih => simp [List.compare_cons_cons, ih]

/-- Encoded texts are ordered like the texts. -/
theorem keyLess_encode_text (s t : String) :
    Item.keyLess (encode (.text s)) (encode (.text t)) =
      Item.keyLess (Text.utf8 s) (Text.utf8 t) := by
  have hs := Text.length_utf8 s
  have ht := Text.length_utf8 t
  unfold Item.keyLess Item.keyOrder
  rw [encode, encode, List.length_append, List.length_append, hs, ht]
  rcases Nat.lt_trichotomy s.utf8ByteSize t.utf8ByteSize with hlt | heq | hgt
  · have hle := length_head_mono .text (Nat.le_of_lt hlt)
    rw [Nat.compare_eq_lt.mpr hlt, Nat.compare_eq_lt.mpr (by omega)]
    rfl
  · rw [heq, Nat.compare_eq_eq.mpr rfl, Nat.compare_eq_eq.mpr rfl, compare_append]
  · have hle := length_head_mono .text (Nat.le_of_lt hgt)
    rw [Nat.compare_eq_gt.mpr hgt, Nat.compare_eq_gt.mpr (by omega)]
    rfl

theorem canon_fields {fields : List (String × Item)} (hr : Sorting.Rising Item.fieldLess fields)
    (h : ∀ f ∈ fields, canon f.2 = f.2) :
    canon (.map (fields.map fun f => (.text f.1, f.2))) =
      .map (fields.map fun f => (.text f.1, f.2)) := by
  have hrising : Sorting.Rising entryLess (fields.map fun f => (Item.text f.1, f.2)) := by
    refine List.pairwise_map.mpr (hr.imp fun {f g} hfg => ?_)
    rw [entryLess, keyLess_encode_text]
    exact hfg
  rw [canon_map fun e _ => encode_canon e.1, Sorting.sort_of_rising hrising, List.map_map]
  congr 1
  refine List.map_congr_left fun f hf => ?_
  rw [Function.comp_apply, h f hf]
  rfl

/-- Items whose maps are made of fields are in order. -/
theorem canon_of_built {i : Item} (h : i.Built) : canon i = i := by
  induction h with
  | array h ih => rw [canon, canonItems_eq_map, List.map_congr_left ih, List.map_id']
  | @map fields h ih =>
    rw [Item.ofFields_eq]
    refine canon_fields (Item.rising_fields fields) fun f hf => ?_
    exact ih f ((Sorting.sort_perm Item.fieldLess fields).mem_iff.mp hf)
  | tag n h ih => rw [canon, ih]
  | _ => rfl

theorem canon_of_regular {P : Double → Prop} {i : Item} (h : i.Regular P) : canon i = i :=
  canon_of_built h.built

end Cbor
end Attest
