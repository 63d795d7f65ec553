import Attest.Proofs.Certificate
import Attest.Proofs.Text.Utf8
import Attest.Proofs.Value.Order
import Attest.Proofs.Value.Text

/-!
What a fingerprint is taken of identifies the value.

The text of a type ends where the bar begins, and given the type the text of a value shows the
value.  So two values that share a fingerprint without being the same are told apart by the bytes
that are hashed, and confused by the hash or by the digits that are kept of it.
-/

namespace Attest

open Text (Tells Ended closes)

namespace Ty

/-- What ends the name of a category: the parenthesis of its arguments, or what ends the type. -/
def endsName (c : Char) : Bool := c == '(' || closes c

theorem tells_name (c d : Category) :
    Tells endsName (c = d) c.name.toList d.name.toList := by
  have hrun : ∀ c : Category, ∀ k ∈ c.name.toList, endsName k = false := by
    intro c k hk
    have hall : c.name.toList.all (fun k => !endsName k) = true := by
      cases c <;> decide
    simpa using List.all_eq_true.mp hall k hk
  refine .run (hrun c) (hrun d) fun heq => ?_
  have hname := String.toList_inj.mp heq
  cases c <;> cases d <;> simp [Category.name] at hname ⊢

/-- The text of a type begins with the name of its category, and what follows ends the name. -/
theorem exists_toList_append (t : Ty) {tail : List Char} (htail : Ended closes tail) :
    ∃ rest, Ended endsName rest ∧
      t.render.toList ++ tail = t.category.name.toList ++ rest := by
  cases t with
  | boundedNat lo hi =>
    rw [toList_boundedNat, List.append_assoc]
    exact ⟨_, Text.ended_cons rfl _, rfl⟩
  | boundedFloat lo hi =>
    rw [toList_boundedFloat, List.append_assoc]
    exact ⟨_, Text.ended_cons rfl _, rfl⟩
  | vector t n =>
    rw [toList_vector, List.append_assoc]
    exact ⟨_, Text.ended_cons rfl _, rfl⟩
  | _ =>
    refine ⟨tail, fun k hk => ?_, rfl⟩
    rw [endsName, htail k hk, Bool.or_true]

/-- Only types of one category can have texts that agree. -/
theorem tells_of_category {s t : Ty} {P : Prop}
    (h : s.category = t.category → Tells closes P s.render.toList t.render.toList) :
    Tells closes P s.render.toList t.render.toList := by
  intro tail tail' htail htail' heq
  obtain ⟨rest, hrest, hs⟩ := s.exists_toList_append htail
  obtain ⟨rest', hrest', ht⟩ := t.exists_toList_append htail'
  have hcategory := (tells_name _ _ rest rest' hrest hrest' (hs ▸ ht ▸ heq)).1
  exact h hcategory tail tail' htail htail' heq

theorem tells_pair (c : Category) {P Q : Prop} {x y x' y' : List Char} (h : Tells closes P x y)
    (h' : Tells closes Q x' y') :
    Tells closes (P ∧ Q) (c.name.toList ++ '(' :: (x ++ ',' :: ' ' :: (x' ++ [')'])))
      (c.name.toList ++ '(' :: (y ++ ',' :: ' ' :: (y' ++ [')']))) :=
  ((h.chain rfl ((h'.close rfl []).behind [' '])).behind ['(']).behind _

theorem tells_render {s t : Ty} (hs : s.BoundsFinite) (ht : t.BoundsFinite) :
    Tells closes (s = t) s.render.toList t.render.toList := by
  induction s generalizing t with
  | boundedNat lo hi =>
    refine tells_of_category fun hcategory => ?_
    cases t with
    | boundedNat lo' hi' =>
      rw [toList_boundedNat, toList_boundedNat]
      exact (tells_pair .boundedNat (Text.tells_nat lo lo') (Text.tells_nat hi hi')).imp
        fun ⟨hlo, hhi⟩ => by rw [hlo, hhi]
    | _ => cases hcategory
  | boundedFloat lo hi =>
    refine tells_of_category fun hcategory => ?_
    cases t with
    | boundedFloat lo' hi' =>
      have hnan := @Double.isNaN_of_isFinite
      rw [toList_boundedFloat, toList_boundedFloat]
      exact (tells_pair .boundedFloat (Double.tells_literal (hnan hs.1) (hnan ht.1))
        (Double.tells_literal (hnan hs.2) (hnan ht.2))).imp fun ⟨hlo, hhi⟩ => by rw [hlo, hhi]
    | _ => cases hcategory
  | vector s n ih =>
    refine tells_of_category fun hcategory => ?_
    cases t with
    | vector t n' =>
      rw [toList_vector, toList_vector]
      exact (tells_pair .vector (ih (t := t) hs ht) (Text.tells_nat n n')).imp
        fun ⟨hst, hn⟩ => by rw [hst, hn]
    | _ => cases hcategory
  | _ =>
    -- nothing but its name is left of such a type
    refine tells_of_category fun hcategory => ?_
    cases t <;> cases hcategory
    exact .same rfl _

end Ty

namespace TypedValue

theorem identity_inj {v w : TypedValue} (hv : v.value.Floats (·.isNaN = false))
    (hw : w.value.Floats (·.isNaN = false)) (h : v.identity = w.identity) : v = w := by
  have hfinite : ∀ v : TypedValue, v.ty.BoundsFinite := fun v =>
    Ty.boundsFinite_of_fault? (Ty.fault?_of_isHolds v.fits)
  have htext : ∀ v : TypedValue,
      v.identity.toList = v.ty.render.toList ++ '|' :: v.value.render.toList := by
    intro v
    simp [identity]
  have heq := congrArg String.toList h
  rw [htext, htext] at heq
  obtain ⟨hty, hrest⟩ := Ty.tells_render (hfinite v) (hfinite w) _ _ (Text.ended_cons rfl _)
    (Text.ended_cons rfl _) heq
  have hvalue := Value.tells_render v.fits (hty ▸ w.fits) hv hw
  exact ext hty (hvalue.of_eq (List.cons.inj hrest).2)

end TypedValue

namespace Text

theorem hexByte_inj {a b : UInt8} (h : hexByte a = hexByte b) : a = b := by
  have hdigit : ∀ {m n : Nat}, m < 16 → n < 16 → hexDigit m = hexDigit n → m = n := by
    intro m n hm hn heq
    have hvalue := hexValue?_hexDigit hm
    rw [heq, hexValue?_hexDigit hn] at hvalue
    exact (Option.some.inj hvalue).symm
  have ha : a.toNat < 256 := a.toNat_lt
  have hb : b.toNat < 256 := b.toNat_lt
  obtain ⟨hhigh, hrest⟩ := List.cons.inj h
  have hhigh := hdigit (by omega) (by omega) hhigh
  have hlow := hdigit (by omega) (by omega) (List.cons.inj hrest).1
  apply UInt8.toNat_inj.mp
  omega

theorem take_flatMap_hexByte (bs : List UInt8) (k : Nat) :
    (bs.flatMap hexByte).take (2 * k) = (bs.take k).flatMap hexByte := by
  induction k generalizing bs with
  | zero => rfl
  | succ k ih =>
    cases bs with
    | nil => rfl
    | cons b bs =>
      show hexByte b ++ (bs.flatMap hexByte).take (2 * k) = hexByte b ++ (bs.take k).flatMap hexByte
      rw [ih]

theorem flatMap_hexByte_inj {as bs : List UInt8} (h : as.flatMap hexByte = bs.flatMap hexByte) :
    as = bs := by
  induction as generalizing bs with
  | nil =>
    cases bs with
    | nil => rfl
    | cons b bs => cases h
  | cons a as ih =>
    cases bs with
    | nil => cases h
    | cons b bs =>
      rw [List.flatMap_cons, List.flatMap_cons] at h
      obtain ⟨hbyte, hrest⟩ := List.append_inj h rfl
      rw [hexByte_inj hbyte, ih hrest]

end Text

namespace Blake3

def Collide (m n : List UInt8) : Prop := m ≠ n ∧ hash m = hash n

/-- Two hashes that differ, but not in their first `k` bytes. -/
def AgreeUpTo (k : Nat) (m n : List UInt8) : Prop :=
  hash m ≠ hash n ∧ (hash m).take k = (hash n).take k

end Blake3

namespace TypedValue

theorem fingerprint_eq_iff {v w : TypedValue} :
    v.fingerprint = w.fingerprint ↔
      (Blake3.hash (Text.utf8 v.identity)).take 8 =
        (Blake3.hash (Text.utf8 w.identity)).take 8 := by
  have hdigits : ∀ v : TypedValue, v.fingerprint.toList =
      ((Blake3.hash (Text.utf8 v.identity)).flatMap Text.hexByte).take (2 * 8) := by
    intro v
    rw [fingerprint, String.toList_ofList, Text.hex, String.toList_ofList]
  rw [← String.toList_inj, hdigits, hdigits, Text.take_flatMap_hexByte,
    Text.take_flatMap_hexByte]
  exact ⟨Text.flatMap_hexByte_inj, congrArg _⟩

end TypedValue

namespace Certificate

/-- Two values without a NaN are hashed from the same text only if they are the same, in type and
value and every float in its bits.  So the certificate of one passes for the other exactly if they
are of one category and are the same, or are hashed to the same, or to hashes that differ only
behind the bytes that a fingerprint shows. -/
theorem mint_identifies {v w : TypedValue} (hv : v.value.Floats (·.isNaN = false))
    (hw : w.value.Floats (·.isNaN = false)) :
    (v.identity = w.identity ↔ v = w) ∧
      ∀ method evidence, (mint method evidence v).mismatch? w = none ↔
        v.ty.category = w.ty.category ∧
          (v = w ∨ Blake3.Collide (Text.utf8 v.identity) (Text.utf8 w.identity) ∨
            Blake3.AgreeUpTo 8 (Text.utf8 v.identity) (Text.utf8 w.identity)) := by
  have hinj := TypedValue.identity_inj hv hw
  refine ⟨⟨hinj, congrArg _⟩, fun method evidence => ?_⟩
  have hrecorded := (mismatch?_eq_none_iff.mp (mismatch?_mint method evidence v)).2
  rw [mismatch?_eq_none_iff, hrecorded, Option.some_inj, TypedValue.fingerprint_eq_iff]
  refine and_congr_right fun _ => ⟨fun hbytes => ?_, ?_⟩
  · by_cases hsame : v = w
    · exact .inl hsame
    have hmessage : Text.utf8 v.identity ≠ Text.utf8 w.identity := fun heq =>
      hsame (hinj (Text.utf8_injective heq))
    by_cases hhash : Blake3.hash (Text.utf8 v.identity) = Blake3.hash (Text.utf8 w.identity)
    · exact .inr (.inl ⟨hmessage, hhash⟩)
    · exact .inr (.inr ⟨hhash, hbytes⟩)
  · rintro (rfl | ⟨-, hhash⟩ | ⟨-, hbytes⟩)
    · rfl
    · rw [hhash]
    · exact hbytes

/-- A vector of a zero and an infinity. -/
def zeroAnd (zero : Double) : TypedValue :=
  ⟨.vector .float 2, .vector [.float zero, .float Double.infinity.neg], rfl⟩

/-- The two zeros are the same number, and yet only the hash can make the certificate of one pass
for the other. -/
theorem mint_identifies_zeros :
    (zeroAnd .zero).same (zeroAnd Double.zero.neg) = true ∧
      (zeroAnd .zero).identity ≠ (zeroAnd Double.zero.neg).identity ∧
      ∀ method evidence,
        (mint method evidence (zeroAnd .zero)).mismatch? (zeroAnd Double.zero.neg) = none →
          Blake3.Collide (Text.utf8 (zeroAnd .zero).identity)
              (Text.utf8 (zeroAnd Double.zero.neg).identity) ∨
            Blake3.AgreeUpTo 8 (Text.utf8 (zeroAnd .zero).identity)
              (Text.utf8 (zeroAnd Double.zero.neg).identity) := by
  have hfloats : ∀ zero : Double, zero.isNaN = false →
      (zeroAnd zero).value.Floats (·.isNaN = false) := by
    intro zero hzero
    refine .vector fun v hv => ?_
    rcases List.mem_pair.mp hv with rfl | rfl
    · exact .float hzero
    · exact .float (by decide)
  have hne : zeroAnd .zero ≠ zeroAnd Double.zero.neg := by
    intro heq
    have hvalue := congrArg TypedValue.value heq
    simp only [zeroAnd, Value.vector.injEq, List.cons.injEq, Value.float.injEq] at hvalue
    exact absurd hvalue.1 (by decide)
  have hidentifies :=
    mint_identifies (hfloats .zero (by decide)) (hfloats Double.zero.neg (by decide))
  refine ⟨by decide, fun heq => hne (hidentifies.1.mp heq), fun method evidence hpasses => ?_⟩
  exact ((hidentifies.2 method evidence).mp hpasses).2.resolve_left hne

end Certificate
end Attest
