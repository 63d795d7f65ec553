import Attest.Text.Utf8
import Mathlib.Tactic.SplitIfs

/-!
UTF-8 reads back.

A step takes exactly the bytes of one scalar, so a text is what is read from its bytes, and has no
more bytes than it is read from.
-/

namespace Attest
namespace Text

theorem toNat_byte {n : Nat} (h : n < 256) : (UInt8.ofNat n).toNat = n := by
  rw [UInt8.toNat_ofNat', Nat.mod_eq_of_lt h]

theorem byte_lt {n : Nat} (h : n < 256) (b : UInt8) : UInt8.ofNat n < b ↔ n < b.toNat := by
  rw [UInt8.lt_iff_toNat_lt, toNat_byte h]

theorem le_byte {n : Nat} (h : n < 256) (b : UInt8) : b ≤ UInt8.ofNat n ↔ b.toNat ≤ n := by
  rw [UInt8.le_iff_toNat_le, toNat_byte h]

theorem byte_beq {n : Nat} (h : n < 256) (b : UInt8) :
    (UInt8.ofNat n == b) = true ↔ n = b.toNat := by
  rw [beq_iff_eq, ← UInt8.toNat_inj, toNat_byte h]

/-- A byte that begins a scalar of several bytes. -/
theorem leads_byte {n : Nat} (hlow : 0xC2 ≤ n) (hhigh : n < 0xF5) :
    ¬ (UInt8.ofNat n < 0x80) ∧ ¬ (UInt8.ofNat n < 0xC2 || 0xF5 ≤ UInt8.ofNat n) = true := by
  have hn : n < 256 := Nat.lt_trans hhigh (by decide)
  rw [Bool.or_eq_true, decide_eq_true_eq, decide_eq_true_eq, byte_lt hn, byte_lt hn, le_byte hn]
  constructor
  · exact Nat.not_lt.mpr (Nat.le_trans (by decide) hlow)
  · rintro (h | h)
    · exact Nat.not_lt.mpr hlow h
    · exact Nat.not_lt.mpr h hhigh

/-- A continuation byte carries six bits. -/
theorem isContinuation_byte {n : Nat} (h : n < 64) :
    isContinuation (UInt8.ofNat (n + 128)) = true := by
  have hn : n + 128 < 256 := by omega
  simp only [isContinuation, Bool.and_eq_true, decide_eq_true_eq, le_byte hn, byte_lt hn]
  exact ⟨Nat.le_add_left 128 n, Nat.add_lt_add_right h 128⟩

theorem low6_byte {n : Nat} (h : n < 64) : low6 (UInt8.ofNat (n + 128)) = n := by
  rw [low6, toNat_byte (by omega)]
  omega

/-- Which bytes come second, by the numbers that they carry. -/
theorem mayFollow_byte {a n : Nat} (ha : a < 256) (hn : n < 64) (h0 : a = 0xE0 → 32 ≤ n)
    (hd : a = 0xED → n < 32) (hf : a = 0xF0 → 16 ≤ n) (h4 : a = 0xF4 → n < 16) :
    mayFollow (UInt8.ofNat a) (UInt8.ofNat (n + 128)) = true := by
  have hn' : n + 128 < 256 := by omega
  unfold mayFollow
  simp only [byte_beq ha, le_byte hn', byte_lt hn']
  split_ifs with ha0 had haf ha4
  · have := h0 ha0
    simpa [le_byte hn', byte_lt hn'] using by omega
  · have := hd had
    simpa [le_byte hn', byte_lt hn'] using by omega
  · have := hf haf
    simpa [le_byte hn', byte_lt hn'] using by omega
  · have := h4 ha4
    simpa [le_byte hn', byte_lt hn'] using by omega
  · exact isContinuation_byte hn

theorem utf8Step_two {a n : Nat} (ha : 2 ≤ a ∧ a < 32) (hn : n < 64) (rest : List UInt8) :
    utf8Step (UInt8.ofNat (a + 192)) (UInt8.ofNat (n + 128) :: rest) =
      (some (Char.ofNat (a * 64 + n)), rest) := by
  have ha' : a + 192 < 256 := by omega
  have hfollow : mayFollow (UInt8.ofNat (a + 192)) (UInt8.ofNat (n + 128)) = true :=
    mayFollow_byte ha' hn (by omega) (by omega) (by omega) (by omega)
  have hlead := leads_byte (n := a + 192) (by omega) (by omega)
  have hlow : (a + 192) % 32 = a := by omega
  unfold utf8Step
  rw [if_neg hlead.1, if_neg hlead.2]
  dsimp only
  rw [hfollow, if_neg (by decide), if_pos (by rw [byte_lt ha']; simp; omega), toNat_byte ha', hlow,
    low6_byte hn]

theorem utf8Step_three {a n m : Nat} (ha : a < 16) (hn : n < 64) (hm : m < 64)
    (hlong : a = 0 → 32 ≤ n) (hsurrogate : a = 13 → n < 32) (rest : List UInt8) :
    utf8Step (UInt8.ofNat (a + 224)) (UInt8.ofNat (n + 128) :: UInt8.ofNat (m + 128) :: rest) =
      (some (Char.ofNat ((a * 64 + n) * 64 + m)), rest) := by
  have ha' : a + 224 < 256 := by omega
  have hfollow : mayFollow (UInt8.ofNat (a + 224)) (UInt8.ofNat (n + 128)) = true :=
    mayFollow_byte ha' hn (by omega) (by omega) (by omega) (by omega)
  have hlead := leads_byte (n := a + 224) (by omega) (by omega)
  have hlow : (a + 224) % 16 = a := by omega
  unfold utf8Step
  rw [if_neg hlead.1, if_neg hlead.2]
  dsimp only
  rw [hfollow, if_neg (by decide), if_neg (by rw [byte_lt ha']; simp), isContinuation_byte hm,
    if_neg (by decide), if_pos (by rw [byte_lt ha']; simp; omega), toNat_byte ha', hlow,
    low6_byte hn, low6_byte hm]

theorem utf8Step_four {a n m k : Nat} (ha : a < 5) (hn : n < 64) (hm : m < 64) (hk : k < 64)
    (hlong : a = 0 → 16 ≤ n) (hlast : a = 4 → n < 16) (rest : List UInt8) :
    utf8Step (UInt8.ofNat (a + 240)) (UInt8.ofNat (n + 128) :: UInt8.ofNat (m + 128) ::
        UInt8.ofNat (k + 128) :: rest) =
      (some (Char.ofNat (((a * 64 + n) * 64 + m) * 64 + k)), rest) := by
  have ha' : a + 240 < 256 := by omega
  have hfollow : mayFollow (UInt8.ofNat (a + 240)) (UInt8.ofNat (n + 128)) = true :=
    mayFollow_byte ha' hn (by omega) (by omega) (by omega) (by omega)
  have hlead := leads_byte (n := a + 240) (by omega) (by omega)
  have hlow : (a + 240) % 8 = a := by omega
  unfold utf8Step
  rw [if_neg hlead.1, if_neg hlead.2]
  dsimp only
  rw [hfollow, if_neg (by decide), if_neg (by rw [byte_lt ha']; simp), isContinuation_byte hm,
    if_neg (by decide), if_neg (by rw [byte_lt ha']; simp), isContinuation_byte hk,
    if_neg (by decide), toNat_byte ha', hlow, low6_byte hn, low6_byte hm, low6_byte hk]

/-- A step takes the bytes of a scalar, whatever follows. -/
theorem utf8Scalars_encodeChar (c : Char) (rest : List UInt8) :
    utf8Scalars (String.utf8EncodeChar c ++ rest) = some c :: utf8Scalars rest := by
  have hvalid : c.toNat < 0xD800 ∨ 0xDFFF < c.toNat ∧ c.toNat < 0x110000 := c.valid
  have hval : c.val.toNat = c.toNat := rfl
  have hback : ∀ {n : Nat}, n = c.toNat → Char.ofNat n = c := fun h => h ▸ Char.ofNat_toNat c
  unfold String.utf8EncodeChar
  rw [hval]
  dsimp only
  split_ifs with h1 h2 h3
  · have hb : UInt8.ofNat c.toNat < 0x80 := (byte_lt (by omega) _).mpr (Nat.lt_succ_of_le h1)
    have hstep : utf8Step (UInt8.ofNat c.toNat) rest = (some c, rest) := by
      unfold utf8Step
      rw [if_pos hb, toNat_byte (by omega), hback rfl]
    rw [List.singleton_append, utf8Scalars, hstep]
  · rw [List.cons_append, List.cons_append, List.nil_append, utf8Scalars,
      utf8Step_two (by omega) (by omega), hback (by omega)]
  · rw [List.cons_append, List.cons_append, List.cons_append, List.nil_append, utf8Scalars,
      utf8Step_three (by omega) (by omega) (by omega) (by omega) (by omega), hback (by omega)]
  · rw [List.cons_append, List.cons_append, List.cons_append, List.cons_append, List.nil_append,
      utf8Scalars, utf8Step_four (by omega) (by omega) (by omega) (by omega) (by omega) (by omega),
      hback (by omega)]

theorem ofUtf8?_utf8 (s : String) : ofUtf8? (utf8 s) = some s := by
  have hscalars : ∀ cs : List Char,
      utf8Scalars (cs.flatMap String.utf8EncodeChar) = cs.map some := by
    intro cs
    induction cs with
    | nil => rw [List.flatMap_nil, utf8Scalars, List.map_nil]
    | cons c cs ih => rw [List.flatMap_cons, utf8Scalars_encodeChar, ih, List.map_cons]
  have hall : ∀ cs : List Char, (cs.map some).mapM id = some cs := by
    intro cs
    induction cs with
    | nil => rfl
    | cons c cs ih => simp [ih]
  unfold ofUtf8? utf8
  rw [hscalars, hall, Option.map_some, String.ofList_toList]

theorem utf8_injective {s t : String} (h : utf8 s = utf8 t) : s = t := by
  have := congrArg ofUtf8? h
  rw [ofUtf8?_utf8, ofUtf8?_utf8] at this
  exact Option.some.inj this

theorem length_utf8 (s : String) : (utf8 s).length = s.utf8ByteSize := by
  rw [← String.size_toByteArray, ← String.utf8Encode_toList, List.utf8Encode,
    List.size_toByteArray]
  rfl

theorem toNat_ofNat_le (n : Nat) : (Char.ofNat n).toNat ≤ n := by
  by_cases h : n.isValidChar
  · have hn : Char.ofNat n = Char.ofNatAux n h := dif_pos h
    rw [hn]
    exact Nat.le_refl n
  · have hn : Char.ofNat n = _ := dif_neg h
    rw [hn]
    exact Nat.zero_le n

/-- How many bytes a scalar takes at most, by its number. -/
theorem utf8Size_ofNat_le (n : Nat) : (Char.ofNat n).utf8Size ≤
    if n < 0x80 then 1 else if n < 0x800 then 2 else if n < 0x10000 then 3 else 4 := by
  have hval : (Char.ofNat n).val.toNat ≤ n := toNat_ofNat_le n
  unfold Char.utf8Size
  simp only [UInt32.le_iff_toNat_le, UInt32.toNat_ofNatLT]
  split_ifs <;> omega

theorem low6_lt (b : UInt8) : low6 b < 64 := Nat.mod_lt _ (by decide)

/-- A step takes at least the bytes of the scalar that it gives. -/
theorem utf8Size_add_length_le (b : UInt8) (rest : List UInt8) (c : Char) :
    (utf8Step b rest).1 = some c → c.utf8Size + (utf8Step b rest).2.length ≤ rest.length + 1 := by
  fun_cases utf8Step b rest with
  | case1 _ hb =>
    intro hc
    obtain rfl := Option.some.inj hc
    have hlow : b.toNat < 0x80 := UInt8.lt_iff_toNat_lt.mp hb
    have hsize := utf8Size_ofNat_le b.toNat
    rw [if_pos hlow] at hsize
    dsimp only
    omega
  | case5 _ _ d rest =>
    intro hc
    obtain rfl := Option.some.inj hc
    have hsize := utf8Size_ofNat_le (b.toNat % 32 * 64 + low6 d)
    have hd := low6_lt d
    rw [List.length_cons]
    split_ifs at hsize <;> dsimp only <;> omega
  | case8 _ _ d _ _ e rest =>
    intro hc
    obtain rfl := Option.some.inj hc
    have hsize := utf8Size_ofNat_le ((b.toNat % 16 * 64 + low6 d) * 64 + low6 e)
    have hd := low6_lt d
    have he := low6_lt e
    simp only [List.length_cons]
    split_ifs at hsize <;> omega
  | case11 =>
    intro hc
    have hsize := Char.utf8Size_le_four c
    simp only [List.length_cons]
    omega
  | _ =>
    intro hc
    cases hc

/-- A text has no more bytes than it was read from. -/
theorem utf8ByteSize_le_of_ofUtf8? {bs : List UInt8} {s : String} (h : ofUtf8? bs = some s) :
    s.utf8ByteSize ≤ bs.length := by
  have hscalars : ∀ (bs : List UInt8) (cs : List Char), (utf8Scalars bs).mapM id = some cs →
      (cs.flatMap String.utf8EncodeChar).length ≤ bs.length := by
    intro bs
    induction bs using utf8Scalars.induct with
    | case1 =>
      intro cs h
      rw [utf8Scalars] at h
      cases h
      exact Nat.le_refl 0
    | case2 b rest ih =>
      intro cs h
      rw [utf8Scalars, List.mapM_cons] at h
      obtain ⟨c, hc, h⟩ := Option.bind_eq_some_iff.mp h
      obtain ⟨cs', hcs, h⟩ := Option.bind_eq_some_iff.mp h
      cases h
      have hstep := utf8Size_add_length_le b rest c hc
      have hrest := ih cs' hcs
      rw [List.flatMap_cons, List.length_append, String.length_utf8EncodeChar, List.length_cons]
      omega
  obtain ⟨cs, hcs, rfl⟩ := Option.map_eq_some_iff.mp h
  have := hscalars bs cs hcs
  rwa [← length_utf8, utf8, String.toList_ofList]

end Text
end Attest
