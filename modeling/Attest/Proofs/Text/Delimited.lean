import Attest.Proofs.Token.Lexing

/-!
Texts that show where they end.

A text is put together from parts, with marks between them that the parts themselves may hold as
well.  That it still shows its parts is stated of two texts at a time: if they agree when anything
follows that may follow, then the parts agree, and so does what follows.
-/

namespace Attest
namespace Text

/-- Nothing follows, or one of these characters does. -/
def Ended (ends : Char → Bool) (tail : List Char) : Prop := ∀ c ∈ tail.head?, ends c = true

/-- Two texts, followed by what ends them, agree only if `P` holds and the same follows. -/
def Tells (ends : Char → Bool) (P : Prop) (x y : List Char) : Prop :=
  ∀ s t, Ended ends s → Ended ends t → x ++ s = y ++ t → P ∧ s = t

variable {ends : Char → Bool} {P Q : Prop} {x y z : List Char}

theorem ended_nil : Ended ends [] := by
  intro c hc
  cases hc

theorem ended_cons {c : Char} (h : ends c = true) (tail : List Char) : Ended ends (c :: tail) := by
  rintro _ ⟨⟩
  exact h

namespace Tells

theorem of_eq (h : Tells ends P x y) (heq : x = y) : P :=
  (h [] [] ended_nil ended_nil (by rw [heq])).1

theorem imp (h : Tells ends P x y) (hPQ : P → Q) : Tells ends Q x y :=
  fun s t hs ht heq => (h s t hs ht heq).imp_left hPQ

theorem same (h : P) (x : List Char) : Tells ends P x x :=
  fun _ _ _ _ heq => ⟨h, List.append_cancel_left heq⟩

/-- What both begin with can be left out. -/
theorem behind (front : List Char) (h : Tells ends P x y) :
    Tells ends P (front ++ x) (front ++ y) := by
  intro s t hs ht heq
  rw [List.append_assoc, List.append_assoc] at heq
  exact h s t hs ht (List.append_cancel_left heq)

/-- Two texts that begin with different characters never agree. -/
theorem clash {c d : Char} (h : c ≠ d) : Tells ends P (c :: x) (d :: y) := by
  intro s t _ _ heq
  exact absurd (List.cons.inj heq).1 h

/-- Texts without a character that ends them stop where the first one follows. -/
theorem run (hx : ∀ c ∈ x, ends c = false) (hy : ∀ c ∈ y, ends c = false) (h : x = y → P) :
    Tells ends P x y := by
  have hsplit : ∀ {u tail : List Char}, (∀ c ∈ u, ends c = false) → Ended ends tail →
      (u ++ tail).takeWhile (fun c => !ends c) = u ∧
        (u ++ tail).dropWhile (fun c => !ends c) = tail := by
    intro u tail hu htail
    apply Lexer.takeWhile_run
    · simpa using hu
    · intro c hc
      rw [htail c hc]
      rfl
  intro s t hs ht heq
  obtain ⟨hleft, hrest⟩ := hsplit hx hs
  rw [heq] at hleft hrest
  obtain ⟨hleft', hrest'⟩ := hsplit hy ht
  exact ⟨h (hleft.symm.trans hleft'), hrest.symm.trans hrest'⟩

/-- One part behind another, with a character between them that ends the first. -/
theorem chain {c : Char} {x' y' : List Char} (h : Tells ends P x y) (hc : ends c = true)
    (h' : Tells ends Q x' y') : Tells ends (P ∧ Q) (x ++ c :: x') (y ++ c :: y') := by
  intro s t hs ht heq
  rw [List.append_assoc, List.append_assoc, List.cons_append, List.cons_append] at heq
  obtain ⟨hP, hrest⟩ := h _ _ (ended_cons hc _) (ended_cons hc _) heq
  obtain ⟨hQ, htail⟩ := h' s t hs ht (List.cons.inj hrest).2
  exact ⟨⟨hP, hQ⟩, htail⟩

/-- A part and what always stands behind it. -/
theorem close {c : Char} (h : Tells ends P x y) (hc : ends c = true) (rest : List Char) :
    Tells ends P (x ++ c :: rest) (y ++ c :: rest) :=
  (h.chain hc (same trivial rest)).imp And.left

/-- Equally many parts with commas between them. -/
theorem joined {α : Type} {text : α → List Char} (hcomma : ends ',' = true) {as bs : List α}
    (hlength : as.length = bs.length)
    (h : ∀ a ∈ as, ∀ b ∈ bs, Tells ends (a = b) (text a) (text b)) :
    Tells ends (as = bs) ([',', ' '].intercalate (as.map text))
      ([',', ' '].intercalate (bs.map text)) := by
  induction as generalizing bs with
  | nil =>
    obtain rfl := List.eq_nil_of_length_eq_zero hlength.symm
    exact same rfl _
  | cons a as ih =>
    cases bs with
    | nil => cases hlength
    | cons b bs =>
      have hhead := h a List.mem_cons_self b List.mem_cons_self
      have htail := ih (Nat.succ.inj hlength) fun a' ha' b' hb' =>
        h a' (List.mem_cons_of_mem a ha') b' (List.mem_cons_of_mem b hb')
      cases as with
      | nil =>
        obtain rfl := List.eq_nil_of_length_eq_zero (Nat.succ.inj hlength).symm
        simpa [List.intercalate] using hhead
      | cons a' as =>
        cases bs with
        | nil => cases Nat.succ.inj hlength
        | cons b' bs =>
          have hall := hhead.chain hcomma (htail.behind [' '])
          have hjoin : ∀ c c' : α, ∀ cs : List α,
              [',', ' '].intercalate ((c :: c' :: cs).map text) =
                text c ++ ',' :: ([' '] ++ [',', ' '].intercalate ((c' :: cs).map text)) := by
            intro c c' cs
            simp [List.intercalate]
          rw [hjoin, hjoin]
          exact hall.imp fun ⟨hab, hcs⟩ => by rw [hab, hcs]

end Tells

/-- The digits of a number with zeros before them. -/
def zeroed (k n : Nat) : List Char := List.replicate k '0' ++ Nat.toDigits 10 n

theorem isDigit_of_mem_zeroed {k n : Nat} {c : Char} (h : c ∈ zeroed k n) : c.isDigit = true := by
  rcases List.mem_append.mp h with h | h
  · rw [List.eq_of_mem_replicate h]
    decide
  · exact Nat.isDigit_of_mem_toDigits (by decide) (by decide) h

theorem digitsValue_zeroed (k n : Nat) : Double.digitsValue (zeroed k n) = n := by
  rw [zeroed, Double.digitsValue_append, Double.digitsValue_replicate_zero,
    Double.digitsValue_toDigits, Nat.zero_mul, Nat.zero_add]

/-- Digits show their number, however many zeros stand before them. -/
theorem tells_zeroed (hends : ∀ c, c.isDigit = true → ends c = false) (k l m n : Nat) :
    Tells ends (m = n) (zeroed k m) (zeroed l n) := by
  refine .run (fun c hc => hends c (isDigit_of_mem_zeroed hc))
    (fun c hc => hends c (isDigit_of_mem_zeroed hc)) fun heq => ?_
  rw [← digitsValue_zeroed k m, heq, digitsValue_zeroed]

/-- Digits with a sign before them, or with none, show both. -/
theorem tells_signed (hends : ∀ c, c.isDigit = true → ends c = false) {sign sign' : List Char}
    (hsign : ∀ c ∈ sign, c.isDigit = false) (hsign' : ∀ c ∈ sign', c.isDigit = false)
    (k l m n : Nat) :
    Tells ends (sign = sign' ∧ m = n) (sign ++ zeroed k m) (sign' ++ zeroed l n) := by
  have hstart : ∀ (k n : Nat) (tail : List Char), Ended Char.isDigit (zeroed k n ++ tail) := by
    intro k n tail c hc
    cases hdigits : zeroed k n with
    | nil => exact absurd (List.append_eq_nil_iff.mp hdigits).2 Nat.toDigits_ne_nil
    | cons d ds =>
      rw [hdigits] at hc
      cases hc
      exact isDigit_of_mem_zeroed (hdigits ▸ List.mem_cons_self)
  intro s t hs ht heq
  rw [List.append_assoc, List.append_assoc] at heq
  -- the signs are runs that the first digit ends
  have hsigns : Tells Char.isDigit (sign = sign') sign sign' := .run hsign hsign' id
  obtain ⟨hsame, hrest⟩ := hsigns _ _ (hstart k m s) (hstart l n t) heq
  obtain ⟨hmn, htail⟩ := tells_zeroed hends k l m n s t hs ht hrest
  exact ⟨⟨hsame, hmn⟩, htail⟩

end Text
end Attest
