import Attest.Proofs.Cbor.RoundTrip

/-!
Where an encoded item ends.

Accepted bytes tell by themselves where they end, in canonical form or not.  A length is checked
against all that is left of the input, so bytes behind an item take part in such a check; but what a
length counts has no fewer bytes than the check asks for, so they never decide it.  Hence bytes that
follow an item are found at its end, and an item of which the end is cut off is refused for want of
bytes and for nothing else.
-/

namespace Attest

def WireError.isShort : WireError → Bool
  | truncated _ _ => true
  | malformedLength _ (.tooLong _ _) => true
  | _ => false

namespace Cbor

variable {α β : Type}

/-- A reader takes just these bytes for something: what follows them is left, and if some of their
end is missing, there are too few.  The reader is given the offset where its item began, which it
may name in errors. -/
structure Spans (read : Nat → Input → Except WireError (α × Input)) (bs : List UInt8) (a : α) :
    Prop where
  takes : ∀ start, Takes (read start) bs a
  short : ∀ start o cs ds, bs = cs ++ ds → ds ≠ [] →
    ∃ e, read start ⟨o, cs⟩ = .error e ∧ e.isShort = true

/-- A reader that finds the end of what it reads, and takes at least so many bytes. -/
def Delimits (n : Nat) (read : Nat → Input → Except WireError (α × Input)) : Prop :=
  ∀ start i a j, read start i = .ok (a, j) →
    ∃ bs, i.rest = bs ++ j.rest ∧ n ≤ bs.length ∧ Spans read bs a

section Readers

variable {read : Nat → Input → Except WireError (α × Input)}
  {next : α → Nat → Input → Except WireError (β × Input)} {m n : Nat}

theorem Delimits.mono (h : Delimits n read) (hmn : m ≤ n) : Delimits m read := by
  intro start i a j hread
  obtain ⟨bs, hrest, hlen, hspans⟩ := h start i a j hread
  exact ⟨bs, hrest, Nat.le_trans hmn hlen, hspans⟩

theorem delimits_pure (a : α) : Delimits 0 fun _ i => .ok (a, i) := by
  intro start i b j h
  cases h
  refine ⟨[], rfl, Nat.le_refl 0, fun _ _ _ => rfl, ?_⟩
  intro _ _ cs ds hsplit hds
  exact absurd (List.append_eq_nil_iff.mp hsplit.symm).2 hds

theorem delimits_error (n : Nat) (e : Nat → Input → WireError) :
    Delimits (α := α) n fun start i => .error (e start i) := by
  intro start i a j h
  cases h

/-- A cut through two pieces is in the second, or ends before the first does. -/
theorem append_cut {bs cs us vs : List UInt8} (h : bs ++ cs = us ++ vs) :
    (∃ ws, us = bs ++ ws ∧ cs = ws ++ vs) ∨ ∃ ws, bs = us ++ ws ∧ ws ≠ [] := by
  rcases List.append_eq_append_iff.mp h with ⟨ws, hus, hcs⟩ | ⟨ws, hbs, hvs⟩
  · exact .inl ⟨ws, hus, hcs⟩
  · by_cases hnil : ws = []
    · rw [hnil, List.append_nil] at hbs
      rw [hnil, List.nil_append] at hvs
      exact .inl ⟨[], by rw [hbs, List.append_nil], hvs.symm⟩
    · exact .inr ⟨ws, hbs, hnil⟩

theorem Spans.bind {bs cs : List UInt8} {a : α} {b : β} (h : Spans read bs a)
    (hnext : Spans (next a) cs b) :
    Spans (fun start i => read start i >>= fun p => next p.1 start p.2) (bs ++ cs) b := by
  constructor
  · intro start o rest
    dsimp only
    rw [List.append_assoc, h.takes start, Outcome.ok_bind, hnext.takes start, List.length_append,
      Nat.add_assoc]
  · intro start o us vs hsplit hvs
    rcases append_cut hsplit with ⟨ws, hus, hcs⟩ | ⟨ws, hbs, hws⟩
    · obtain ⟨e, he, hshort⟩ := hnext.short start (o + bs.length) ws vs hcs hvs
      exact ⟨e, by rw [hus, h.takes start, Outcome.ok_bind, he], hshort⟩
    · obtain ⟨e, he, hshort⟩ := h.short start o us ws hbs hws
      exact ⟨e, by rw [he]; rfl, hshort⟩

theorem Delimits.bind (h : Delimits m read) (hnext : ∀ a, Delimits n (next a)) :
    Delimits (m + n) fun start i => read start i >>= fun p => next p.1 start p.2 := by
  intro start i b j hread
  obtain ⟨⟨a, k⟩, ha, hb⟩ := Outcome.bind_eq_ok.mp hread
  obtain ⟨bs, hi, hm, hbs⟩ := h start i a k ha
  obtain ⟨cs, hk, hn, hcs⟩ := hnext a start k b j hb
  refine ⟨bs ++ cs, ?_, ?_, hbs.bind hcs⟩
  · rw [hi, hk, List.append_assoc]
  · rw [List.length_append]
    omega

theorem Delimits.map (h : Delimits n read) (f : α → β) :
    Delimits n fun start i => read start i >>= fun p => .ok (f p.1, p.2) :=
  h.bind fun a => delimits_pure (f a)

end Readers

theorem delimits_take (n : Nat) : Delimits n fun _ => take n := by
  intro start i a j (h : take n i = .ok (a, j))
  unfold take at h
  by_cases hlen : i.rest.length < n
  · rw [if_pos hlen] at h
    cases h
  · rw [if_neg hlen] at h
    cases h
    have hn : (i.rest.take n).length = n := by rw [List.length_take]; omega
    refine ⟨i.rest.take n, (List.take_append_drop n i.rest).symm, by omega, ?_, ?_⟩
    · intro _ o rest
      have htake := take_append o (i.rest.take n) rest
      rw [hn] at htake
      rw [htake, hn]
    · intro _ o cs ds hsplit hds
      have hcs : cs.length < n := by
        have := List.length_pos_iff.mpr hds
        rw [hsplit, List.length_append] at hn
        omega
      exact ⟨_, if_pos hcs, rfl⟩

theorem delimits_takeNumber (n : Nat) : Delimits n fun _ => takeNumber n :=
  (delimits_take n).map ofBigEndian

theorem delimits_argument (info : Nat) : Delimits 0 (argument info) := by
  have hwide : ∀ k, Delimits 0 fun _ => takeNumber k :=
    fun k => (delimits_takeNumber k).mono (Nat.zero_le k)
  unfold argument
  split_ifs
  · exact delimits_pure info
  · exact hwide 1
  · exact hwide 2
  · exact hwide 4
  · exact hwide 8
  · exact delimits_error 0 _
  · exact delimits_error 0 _

theorem count_inv {info start least n : Nat} {i j : Input}
    (h : count info start least i = .ok (n, j)) :
    argument info start i = .ok (n, j) ∧ n * least ≤ j.rest.length := by
  obtain ⟨⟨k, i'⟩, harg, h⟩ := Outcome.bind_eq_ok.mp h
  dsimp only at h
  by_cases hle : k * least ≤ i'.rest.length
  · rw [if_pos hle] at h
    cases h
    exact ⟨harg, hle⟩
  · rw [if_neg hle] at h
    cases h

theorem count_zero (info start : Nat) (i : Input) :
    count info start 0 i = argument info start i := by
  cases harg : argument info start i with
  | error e => rw [count, harg]; rfl
  | ok p => exact count_eq_ok harg (Nat.zero_le _)

/-- A length is checked against what is left, but what it counts takes that many bytes anyway. -/
theorem delimits_count {least info : Nat} {next : Nat → Nat → Input → Except WireError (α × Input)}
    (h : ∀ n, Delimits (n * least) (next n)) :
    Delimits 0 fun start i => count info start least i >>= fun p => next p.1 start p.2 := by
  intro start i a j hread
  obtain ⟨⟨n, k⟩, hcount, ha⟩ := Outcome.bind_eq_ok.mp hread
  obtain ⟨bs, hi, -, hbs⟩ := delimits_argument info start i n k (count_inv hcount).1
  obtain ⟨cs, hk, hn, hcs⟩ := h n start k a j ha
  have hpass : ∀ start o us, n * least ≤ us.length →
      count info start least ⟨o, bs ++ us⟩ = .ok (n, ⟨o + bs.length, us⟩) :=
    fun start o us hus => count_eq_ok (hbs.takes start o us) hus
  refine ⟨bs ++ cs, by rw [hi, hk, List.append_assoc], Nat.zero_le _, ?_, ?_⟩
  · intro start o rest
    dsimp only
    rw [List.append_assoc, hpass start o _ (by rw [List.length_append]; omega), Outcome.ok_bind,
      hcs.takes start, List.length_append, Nat.add_assoc]
  · intro start o us vs hsplit hvs
    rcases append_cut hsplit with ⟨ws, hus, hws⟩ | ⟨ws, hws, hne⟩
    · rw [hus]
      by_cases hle : n * least ≤ ws.length
      · obtain ⟨e, he, hshort⟩ := hcs.short start (o + bs.length) ws vs hws hvs
        exact ⟨e, by rw [hpass start o ws hle, Outcome.ok_bind, he], hshort⟩
      · refine ⟨.malformedLength start (.tooLong n ws.length), ?_, rfl⟩
        rw [count, hbs.takes start, Outcome.ok_bind]
        dsimp only
        rw [if_neg hle]
        rfl
    · obtain ⟨e, he, hshort⟩ := hbs.short start o us ws hws hne
      exact ⟨e, by rw [count, he]; rfl, hshort⟩

section Items

variable {item : Input → Except WireError (Item × Input)} (hitem : Delimits 1 fun _ => item)

include hitem

theorem delimits_readMany (n : Nat) : Delimits n fun _ => readMany item n := by
  induction n with
  | zero => exact delimits_pure []
  | succ n ih =>
    have hcons := hitem.bind fun x => ih.map (x :: ·)
    rw [Nat.add_comm] at hcons
    exact hcons

theorem delimits_readEntries (n : Nat) : Delimits (n * 2) fun _ => readEntries item n := by
  induction n with
  | zero => exact delimits_pure []
  | succ n ih =>
    have hcons := hitem.bind fun k => hitem.bind fun v => ih.map ((k, v) :: ·)
    exact hcons.mono (by omega)

end Items

theorem delimits_readText (n : Nat) : Delimits n (readText n) := by
  intro start i a j h
  obtain ⟨⟨raw, k⟩, htake, h⟩ := Outcome.bind_eq_ok.mp h
  obtain ⟨bs, hi, hlen, hbs⟩ := delimits_take n start i raw k htake
  dsimp only at h
  cases htext : Text.ofUtf8? raw with
  | none =>
    rw [htext] at h
    cases h
  | some s =>
    rw [htext] at h
    cases h
    -- What the bytes say is looked at when all of them are there.
    refine ⟨bs, hi, hlen, ?_, ?_⟩
    · intro start o rest
      rw [readText, hbs.takes start, Outcome.ok_bind]
      dsimp only
      rw [htext]
      rfl
    · intro start o cs ds hsplit hds
      obtain ⟨e, he, hshort⟩ := hbs.short start o cs ds hsplit hds
      exact ⟨e, by rw [readText, he]; rfl, hshort⟩

theorem delimits_readSimple (info : Nat) : Delimits 0 (readSimple info) := by
  have hwide : ∀ (k : Nat) (f : Nat → Item),
      Delimits 0 fun _ i => takeNumber k i >>= fun p => .ok (f p.1, p.2) :=
    fun k f => ((delimits_takeNumber k).map f).mono (Nat.zero_le k)
  unfold readSimple
  split_ifs
  · exact delimits_pure _
  · exact delimits_pure _
  · exact delimits_pure _
  · exact hwide 2 fun n => .float (ofHalf n)
  · exact hwide 4 fun n => .float (ofSingle n)
  · exact hwide 8 fun n => .float (Double.ofBits n)
  · exact delimits_error 0 _
  · exact delimits_error 0 _

/-- What is behind a head takes at least the bytes that the head is checked for. -/
theorem delimits_readBody {d : Nat} (hitem : Delimits 1 fun _ => readItem d) (m : Major) (n : Nat) :
    Delimits (n * least m) (readBody d m n) := by
  cases m with
  | unsigned => exact delimits_pure _
  | negative => exact delimits_pure _
  | bytes =>
    rw [least, Nat.mul_one]
    exact (delimits_take n).map Item.bytes
  | text =>
    rw [least, Nat.mul_one]
    exact delimits_readText n
  | array =>
    rw [least, Nat.mul_one]
    exact (delimits_readMany hitem n).map Item.array
  | map => exact (delimits_readEntries hitem n).map Item.map
  | tag => exact (hitem.map (Item.tag n.toUInt64)).mono (Nat.zero_le 1)
  | simple => exact delimits_readSimple n

def readBehind (d byte start : Nat) (i : Input) : Except WireError (Item × Input) :=
  if Major.ofNumber (byte / 32) = .simple then readSimple (byte % 32) start i
  else
    count (byte % 32) start (least (Major.ofNumber (byte / 32))) i >>= fun p =>
      readBody d (Major.ofNumber (byte / 32)) p.1 start p.2

theorem readItem_succ (d : Nat) (i : Input) :
    readItem (d + 1) i = takeNumber 1 i >>= fun p => readBehind d p.1 i.offset p.2 := by
  rw [readItem]
  congr 1
  funext p
  obtain ⟨byte, j⟩ := p
  dsimp only
  unfold readBehind
  cases Major.ofNumber (byte / 32) with
  | simple => rfl
  | unsigned | negative | tag =>
    dsimp only [least]
    rw [count_zero]
    rfl
  | bytes | text | array | map => rfl

theorem delimits_readBehind {d : Nat} (hitem : Delimits 1 fun _ => readItem d) (byte : Nat) :
    Delimits 0 (readBehind d byte) := by
  unfold readBehind
  split_ifs
  · exact delimits_readSimple _
  · exact delimits_count fun n => delimits_readBody hitem _ n

theorem delimits_readItem (d : Nat) : Delimits 1 fun _ => readItem d := by
  induction d with
  | zero => exact delimits_error 1 _
  | succ d ih =>
    intro _ i a j hread
    dsimp only at hread
    rw [readItem_succ] at hread
    obtain ⟨bs, hi, hlen, hbs⟩ :=
      (delimits_takeNumber 1).bind (delimits_readBehind ih) i.offset i a j hread
    refine ⟨bs, hi, hlen, ?_, ?_⟩
    · intro _ o rest
      rw [readItem_succ]
      exact hbs.takes o o rest
    · intro _ o cs ds hsplit hds
      rw [readItem_succ]
      exact hbs.short o o cs ds hsplit hds

theorem spans_of_decode {bs : List UInt8} {i : Item} (h : decode bs = .ok i) :
    Spans (fun _ => readItem maxDepth) bs i := by
  obtain ⟨⟨x, j⟩, hread, h⟩ := Outcome.bind_eq_ok.mp h
  dsimp only at h
  by_cases hempty : j.rest.isEmpty = true
  · rw [if_pos hempty] at h
    cases h
    obtain ⟨cs, hrest, -, hcs⟩ := delimits_readItem maxDepth 0 _ _ _ hread
    rw [List.isEmpty_iff.mp hempty, List.append_nil] at hrest
    rwa [← hrest] at hcs
  · rw [if_neg hempty] at h
    cases h

/-- No accepted bytes begin others that are accepted.  With more bytes behind them they are refused,
and the error tells where those begin and how many they are; with some of their end cut off they are
refused too, since bytes are missing. -/
theorem decode_prefix_free {bs : List UInt8} {i : Item} (h : decode bs = .ok i) :
    (∀ more, more ≠ [] → decode (bs ++ more) = .error (.trailing bs.length more.length)) ∧
      ∀ cs, cs <+: bs → cs ≠ bs → ∃ e, decode cs = .error e ∧ e.isShort = true := by
  have hspans := spans_of_decode h
  constructor
  · intro more hmore
    have hempty : more.isEmpty = false := List.isEmpty_eq_false_iff.mpr hmore
    rw [decode, hspans.takes 0, Outcome.ok_bind]
    dsimp only
    rw [hempty, Nat.zero_add]
    rfl
  · intro cs hcs hne
    obtain ⟨ds, hsplit⟩ := hcs
    have hds : ds ≠ [] := by
      intro hnil
      rw [hnil, List.append_nil] at hsplit
      exact hne hsplit
    obtain ⟨e, he, hshort⟩ := hspans.short 0 0 cs ds hsplit.symm hds
    exact ⟨e, by rw [decode, he]; rfl, hshort⟩

/-- A map of one entry, with its count and a number in more bytes than they need and a float of half
width. -/
def wideHeads : List UInt8 := [0xb9, 0, 1, 0x41, 0x6b, 0x82, 0xf9, 0x7c, 0, 0x18, 5]

theorem decode_wideHeads :
    decode wideHeads = .ok (.map [(.bytes [0x6b], .array [.float .infinity, .unsigned 5])]) ∧
      decode (wideHeads ++ [0xb9, 0]) = .error (.trailing 11 2) ∧
      ∃ e, decode (wideHeads.take 8) = .error e ∧ e.isShort = true := by
  have hdecode : decode wideHeads =
      .ok (.map [(.bytes [0x6b], .array [.float .infinity, .unsigned 5])]) := rfl
  obtain ⟨hmore, hcut⟩ := decode_prefix_free hdecode
  exact ⟨hdecode, hmore [0xb9, 0] (by decide),
    hcut _ ⟨_, List.take_append_drop 8 wideHeads⟩ (by decide)⟩

end Cbor
end Attest
