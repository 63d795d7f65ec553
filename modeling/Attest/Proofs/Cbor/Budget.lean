import Attest.Proofs.Cbor.Framing

/-!
What an accepted input can grow into.

Lengths in an input are claims of whoever wrote it.  A length is checked against the bytes that are
left, but the elements that it counts may be containers with lengths of their own.  What bounds the
result is that nothing is made for free: each item is paid for by the first byte of its head, and
each byte of a string by itself.  So an item has no more parts than it had bytes, and no more levels
than the reader goes down.
-/

namespace Attest

namespace Item

mutual

def nodes : Item → Nat
  | .array items => nodesOf items + 1
  | .map entries => nodesOfEntries entries + 1
  | .tag _ content => nodes content + 1
  | _ => 1

def nodesOf : List Item → Nat
  | [] => 0
  | i :: rest => nodes i + nodesOf rest

def nodesOfEntries : List (Item × Item) → Nat
  | [] => 0
  | (k, v) :: rest => nodes k + nodes v + nodesOfEntries rest

end

mutual

def stringBytes : Item → Nat
  | .bytes bs => bs.length
  | .text s => s.utf8ByteSize
  | .array items => stringBytesOf items
  | .map entries => stringBytesOfEntries entries
  | .tag _ content => stringBytes content
  | _ => 0

def stringBytesOf : List Item → Nat
  | [] => 0
  | i :: rest => stringBytes i + stringBytesOf rest

def stringBytesOfEntries : List (Item × Item) → Nat
  | [] => 0
  | (k, v) :: rest => stringBytes k + stringBytes v + stringBytesOfEntries rest

end

/-- What an item costs: one for each item in it and for each byte of its strings. -/
def cost (i : Item) : Nat := i.nodes + i.stringBytes

def costOf (items : List Item) : Nat := nodesOf items + stringBytesOf items

def costOfEntries (entries : List (Item × Item)) : Nat :=
  nodesOfEntries entries + stringBytesOfEntries entries

theorem costOf_cons (i : Item) (items : List Item) :
    costOf (i :: items) = i.cost + costOf items := by
  simp only [costOf, cost, nodesOf, stringBytesOf]
  omega

theorem costOfEntries_cons (k v : Item) (entries : List (Item × Item)) :
    costOfEntries ((k, v) :: entries) = k.cost + v.cost + costOfEntries entries := by
  simp only [costOfEntries, cost, nodesOfEntries, stringBytesOfEntries]
  omega

theorem cost_array (items : List Item) : (array items).cost = costOf items + 1 := by
  simp only [costOf, cost, nodes, stringBytes]
  omega

theorem cost_map (entries : List (Item × Item)) :
    (map entries).cost = costOfEntries entries + 1 := by
  simp only [costOfEntries, cost, nodes, stringBytes]
  omega

theorem cost_tag (n : UInt64) (content : Item) : (tag n content).cost = content.cost + 1 := by
  simp only [cost, nodes, stringBytes]
  omega

end Item

namespace Cbor

variable {α β : Type}

/-- With so much paid already, a reader gives nothing that costs more than this and the bytes it
takes, and nothing without a property. -/
def Affords (paid : Nat) (read : Input → Except WireError (α × Input)) (cost : α → Nat)
    (P : α → Prop) : Prop :=
  ∀ i a j, read i = .ok (a, j) → cost a + j.rest.length ≤ paid + i.rest.length ∧ P a

namespace Affords

variable {paid : Nat} {read : Input → Except WireError (α × Input)} {cost : α → Nat}
  {P : α → Prop} {next : α → Input → Except WireError (β × Input)} {cost' : β → Nat}
  {Q : β → Prop}

theorem pure {a : α} (hcost : cost a ≤ paid) (h : P a) :
    Affords paid (fun i => .ok (a, i)) cost P := by
  intro i b j hread
  cases hread
  exact ⟨Nat.add_le_add_right hcost _, h⟩

theorem error (e : Input → WireError) : Affords paid (fun i => .error (e i)) cost P := by
  intro i a j hread
  cases hread

/-- What a first reader gives and leaves over pays for what comes next. -/
theorem bind (h : Affords paid read cost P)
    (hnext : ∀ a, P a → Affords (cost a) (next a) cost' Q) :
    Affords paid (fun i => read i >>= fun p => next p.1 p.2) cost' Q := by
  intro i b k hread
  obtain ⟨⟨a, j⟩, ha, hb⟩ := Outcome.bind_eq_ok.mp hread
  obtain ⟨hfirst, hP⟩ := h i a j ha
  obtain ⟨hrest, hQ⟩ := hnext a hP j b k hb
  exact ⟨Nat.le_trans hrest hfirst, hQ⟩

theorem map (h : Affords paid read cost P) (f : α → β) (hcost : ∀ a, cost' (f a) ≤ cost a)
    (hQ : ∀ a, P a → Q (f a)) :
    Affords paid (fun i => read i >>= fun p => .ok (f p.1, p.2)) cost' Q :=
  h.bind fun a ha => pure (hcost a) (hQ a ha)

/-- What was paid for something else stays. -/
theorem keep (h : Affords paid read cost P) (n : Nat) :
    Affords (paid + n) read (fun a => cost a + n) P := by
  intro i a j hread
  obtain ⟨hle, hP⟩ := h i a j hread
  refine ⟨?_, hP⟩
  dsimp only
  omega

end Affords

/-- A reader that takes so many bytes pays so much. -/
theorem Delimits.affords {n : Nat} {read : Nat → Input → Except WireError (α × Input)}
    (h : Delimits n read) (start paid : Nat) :
    Affords paid (read start) (fun _ => paid + n) fun _ => True := by
  intro i a j hread
  obtain ⟨bs, hrest, hlen, -⟩ := h start i a j hread
  rw [hrest, List.length_append]
  refine ⟨?_, trivial⟩
  dsimp only
  omega

theorem affords_take (n paid : Nat) :
    Affords paid (take n) (fun bs => bs.length + paid) fun _ => True := by
  intro i bs j hread
  unfold take at hread
  by_cases hlen : i.rest.length < n
  · rw [if_pos hlen] at hread
    cases hread
  · rw [if_neg hlen] at hread
    cases hread
    refine ⟨?_, trivial⟩
    dsimp only
    rw [List.length_take, List.length_drop]
    omega

theorem affords_count (info start least paid : Nat) :
    Affords paid (count info start least) (fun _ => paid) fun _ => True := by
  intro i n j hread
  exact (delimits_argument info).affords start paid i n j (count_inv hread).1

section Items

variable {item : Input → Except WireError (Item × Input)} {P : Item → Prop}
  (hitem : Affords 0 item Item.cost P)

include hitem

theorem affords_readMany (n paid : Nat) :
    Affords paid (readMany item n) (fun items => Item.costOf items + paid)
      fun items => ∀ i ∈ items, P i := by
  -- For the items that are left, those read before are paid: the induction is for every amount.
  induction n generalizing paid with
  | zero => exact .pure (Nat.le_of_eq (Nat.zero_add paid)) (List.forall_mem_nil P)
  | succ n ih =>
    have hfirst := hitem.keep paid
    rw [Nat.zero_add] at hfirst
    refine hfirst.bind fun x hx => (ih _).map (x :: ·) (fun xs => ?_) fun xs hxs => ?_
    · rw [Item.costOf_cons]
      omega
    · exact List.forall_mem_cons.mpr ⟨hx, hxs⟩

theorem affords_readEntries (n paid : Nat) :
    Affords paid (readEntries item n) (fun entries => Item.costOfEntries entries + paid)
      fun entries => ∀ e ∈ entries, P e.1 ∧ P e.2 := by
  induction n generalizing paid with
  | zero => exact .pure (Nat.le_of_eq (Nat.zero_add paid)) (List.forall_mem_nil _)
  | succ n ih =>
    have hone (m : Nat) := hitem.keep m
    simp only [Nat.zero_add] at hone
    refine (hone paid).bind fun k hk => (hone _).bind fun v hv =>
      (ih _).map ((k, v) :: ·) (fun es => ?_) fun es hes => ?_
    · rw [Item.costOfEntries_cons]
      omega
    · exact List.forall_mem_cons.mpr ⟨⟨hk, hv⟩, hes⟩

end Items

/-- A reader gives items that cost no more than one and the bytes it takes, with so many levels. -/
abbrev AffordsItem (d : Nat) (read : Input → Except WireError (Item × Input)) : Prop :=
  Affords 1 read Item.cost fun i => i.levels ≤ d

theorem affords_readText (d n start : Nat) : AffordsItem (d + 1) (readText n start) := by
  intro i x j hread
  obtain ⟨⟨raw, k⟩, htake, hread⟩ := Outcome.bind_eq_ok.mp hread
  obtain ⟨hle, -⟩ := affords_take n 1 i raw k htake
  dsimp only at hread hle
  cases htext : Text.ofUtf8? raw with
  | none =>
    rw [htext] at hread
    cases hread
  | some s =>
    rw [htext] at hread
    cases hread
    have hsize := Text.utf8ByteSize_le_of_ofUtf8? htext
    refine ⟨?_, Nat.le_add_left 1 d⟩
    show 1 + s.utf8ByteSize + j.rest.length ≤ 1 + i.rest.length
    omega

theorem affords_readSimple (d info start : Nat) :
    AffordsItem (d + 1) (readSimple info start) := by
  have hlevels : 1 ≤ d + 1 := Nat.le_add_left 1 d
  have hwide : ∀ (k : Nat) (f : Nat → Double), AffordsItem (d + 1) fun i =>
      takeNumber k i >>= fun p => .ok (.float (f p.1), p.2) := by
    intro k f
    have hpaid := (delimits_takeNumber k).affords start 1
    exact hpaid.map (fun n => Item.float (f n)) (fun _ => Nat.le_add_right 1 k) fun _ _ => hlevels
  unfold readSimple
  split_ifs
  · exact .pure (Nat.le_refl 1) hlevels
  · exact .pure (Nat.le_refl 1) hlevels
  · exact .pure (Nat.le_refl 1) hlevels
  · exact hwide 2 ofHalf
  · exact hwide 4 ofSingle
  · exact hwide 8 Double.ofBits
  · exact .error _
  · exact .error _

/-- What stands behind a head is paid for by its own bytes, and the head by its first. -/
theorem affords_readBody {d : Nat}
    (hitem : Affords 0 (readItem d) Item.cost fun i => i.levels ≤ d) (m : Major) (n start : Nat) :
    AffordsItem (d + 1) (readBody d m n start) := by
  have hlevels : 1 ≤ d + 1 := Nat.le_add_left 1 d
  cases m with
  | unsigned => exact .pure (Nat.le_refl 1) hlevels
  | negative => exact .pure (Nat.le_refl 1) hlevels
  | bytes =>
    refine (affords_take n 1).map Item.bytes (fun bs => ?_) fun _ _ => hlevels
    exact Nat.le_of_eq (Nat.add_comm 1 bs.length)
  | text => exact affords_readText d n start
  | array =>
    refine (affords_readMany hitem n 1).map Item.array (fun items => ?_) fun items h => ?_
    · exact Nat.le_of_eq (Item.cost_array items)
    · exact Nat.succ_le_succ (Item.levelsOf_le.mpr h)
  | map =>
    refine (affords_readEntries hitem n 1).map Item.map (fun entries => ?_) fun entries h => ?_
    · exact Nat.le_of_eq (Item.cost_map entries)
    · exact Nat.succ_le_succ (Item.levelsOfEntries_le.mpr h)
  | tag =>
    refine (hitem.keep 1).map (Item.tag n.toUInt64) (fun content => ?_) fun content h => ?_
    · exact Nat.le_of_eq (Item.cost_tag _ content)
    · exact Nat.succ_le_succ h
  | simple => exact affords_readSimple d n start

theorem affords_readBehind {d : Nat}
    (hitem : Affords 0 (readItem d) Item.cost fun i => i.levels ≤ d) (byte start : Nat) :
    AffordsItem (d + 1) (readBehind d byte start) := by
  unfold readBehind
  split_ifs
  · exact affords_readSimple d _ start
  · exact (affords_count _ start _ 1).bind fun n _ => affords_readBody hitem _ n start

theorem affords_readItem (d : Nat) : Affords 0 (readItem d) Item.cost fun i => i.levels ≤ d := by
  induction d with
  | zero => exact .error _
  | succ d ih =>
    intro i x j hread
    rw [readItem_succ] at hread
    have hfirst := (delimits_takeNumber 1).affords i.offset 0
    exact hfirst.bind (fun byte _ => affords_readBehind ih byte i.offset) i x j hread

/-- Decoding does not amplify: there are no more items and bytes of strings in what is read than
bytes in the input, and no more than 128 levels. -/
theorem decode_within {bs : List UInt8} {item : Item} (h : decode bs = .ok item) :
    item.nodes + item.stringBytes ≤ bs.length ∧ item.levels ≤ 128 := by
  obtain ⟨⟨x, j⟩, hread, h⟩ := Outcome.bind_eq_ok.mp h
  obtain ⟨hcost, hlevels⟩ := affords_readItem maxDepth _ _ _ hread
  dsimp only at h
  split at h
  · cases h
    exact ⟨by rw [Nat.zero_add] at hcost; exact Nat.le_of_add_right_le hcost, hlevels⟩
  · cases h

/-- A map from a string to a tagged array of another and of a number that could have a shorter
head. -/
def taggedPair : List UInt8 := [0xa1, 0x41, 0x6b, 0xc1, 0x82, 0x42, 0xff, 0x00, 0x18, 0x05]

def taggedPairItem : Item :=
  .map [(.bytes [0x6b], .tag 1 (.array [.bytes [0xff, 0x00], .unsigned 5]))]

theorem decode_within_taggedPair :
    decode taggedPair = .ok taggedPairItem ∧
      taggedPairItem.nodes + taggedPairItem.stringBytes ≤ 10 ∧ taggedPairItem.levels ≤ 128 := by
  have hdecode : decode taggedPair = .ok taggedPairItem := rfl
  exact ⟨hdecode, decode_within hdecode⟩

example : taggedPairItem.nodes = 6 ∧ taggedPairItem.stringBytes = 3 ∧ taggedPairItem.levels = 4 :=
  ⟨rfl, rfl, rfl⟩

end Cbor
end Attest
