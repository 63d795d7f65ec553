import Attest.Proofs.Text.Uuid
import Attest.Proofs.Token.Lexing

/-!
A quoted text is read as the text.

Every character stands between the quotes in a form of its own: as itself, as one of the short
escapes, or by its code.  The scan passes each form in one go and has then read that character.
-/

namespace Attest

namespace Text

theorem hexFold_append (acc : Nat) (ds : List Char) (c : Char) :
    hexFold acc (ds ++ [c]) = (hexFold acc ds).bind fun v => (hexValue? c).map (v * 16 + ·) := by
  induction ds generalizing acc with
  | nil =>
    show (hexValue? c).bind _ = _
    cases hexValue? c <;> rfl
  | cons d ds ih =>
    show (hexValue? d).bind _ = ((hexValue? d).bind _).bind _
    cases hexValue? d with
    | none => rfl
    | some v => exact ih _

/-- The digits of a number spell it. -/
theorem hexFold_toDigits (n : Nat) : hexFold 0 (Nat.toDigits 16 n) = some n := by
  induction n using Nat.strongRecOn with
  | ind n ih =>
    by_cases hn : n < 16
    · rw [Nat.toDigits_of_lt_base hn]
      show (hexValue? (hexDigit n)).bind _ = _
      rw [hexValue?_hexDigit hn]
      exact congrArg some (Nat.zero_add n)
    · rw [Nat.toDigits_of_base_le (by decide) (by omega), hexFold_append, ih _ (by omega)]
      show (hexValue? (hexDigit (n % 16))).map _ = _
      rw [hexValue?_hexDigit (Nat.mod_lt _ (by decide)), Option.map_some]
      exact congrArg some (Nat.div_add_mod' n 16)

theorem isHexDigit_of_mem_toDigits {n : Nat} {c : Char} (hc : c ∈ Nat.toDigits 16 n) :
    isHexDigit c = true := by
  have hdigit : ∀ d < 16, isHexDigit d.digitChar = true := by decide
  induction n using Nat.strongRecOn with
  | ind n ih =>
    by_cases hn : n < 16
    · rw [Nat.toDigits_of_lt_base hn, List.mem_singleton] at hc
      rw [hc]
      exact hdigit n hn
    · rw [Nat.toDigits_of_base_le (by decide) (by omega), List.mem_append, List.mem_singleton] at hc
      rcases hc with hc | rfl
      · exact ih _ (by omega) hc
      · exact hdigit _ (Nat.mod_lt _ (by decide))

end Text

namespace Lexer

theorem scalarOf_toDigits (c : Char) : scalarOf (Nat.toDigits 16 c.toNat) = some c := by
  have hvalid : c.toNat.isValidChar := c.valid
  rw [scalarOf, Text.hexFold_toDigits, Option.bind_some, if_pos hvalid, Char.ofNat_toNat]

theorem length_toDigits_le (c : Char) : (Nat.toDigits 16 c.toNat).length ≤ 6 := by
  rw [Nat.length_toDigits_le_iff (by decide) (by decide)]
  have hvalid : c.toNat.isValidChar := c.valid
  rcases hvalid with h | h <;> omega

theorem textFrom_digits {start n : Nat} {value read ds : List Char} (rest : List Char)
    (hds : ∀ c ∈ ds, Text.isHexDigit c = true) :
    textFrom (.digits start read) n value (ds ++ rest) =
      textFrom (.digits start (ds.reverse ++ read)) (n + ds.length) value rest := by
  induction ds generalizing n read with
  | nil => rfl
  | cons d ds ih =>
    obtain ⟨hd, hds⟩ := List.forall_mem_cons.mp hds
    rw [List.cons_append, textFrom, if_pos hd, ih hds, List.reverse_cons, List.append_assoc,
      List.length_cons]
    congr 1
    omega

theorem textFrom_codeEscape (n : Nat) (value : List Char) (c : Char) (rest : List Char) :
    textFrom .plain n value (Text.codeEscape c ++ rest) =
      textFrom .plain (n + (Text.codeEscape c).length) (c :: value) rest := by
  have hne : (Nat.toDigits 16 c.toNat).reverse.isEmpty = false := by simp
  have hopen : textFrom .plain n value (Text.codeEscape c ++ rest) =
      textFrom (.digits n []) (n + 3) value (Nat.toDigits 16 c.toNat ++ '\x7d' :: rest) := by
    simp [Text.codeEscape, textFrom]
  have hclose : textFrom (.digits n (Nat.toDigits 16 c.toNat).reverse)
      (n + 3 + (Nat.toDigits 16 c.toNat).length) value ('\x7d' :: rest) =
      textFrom .plain (n + 3 + (Nat.toDigits 16 c.toNat).length + 1) (c :: value) rest := by
    have hlength := length_toDigits_le c
    have hhex : Text.isHexDigit '\x7d' = false := by decide
    rw [textFrom, if_neg (by simp [hhex]), if_neg (by simp [hne, hlength]), List.reverse_reverse,
      scalarOf_toDigits]
  rw [hopen, textFrom_digits _ fun _ => Text.isHexDigit_of_mem_toDigits, List.append_nil, hclose]
  congr 1
  simp [Text.codeEscape]
  omega

/-- A character is read from the form it has between quotes. -/
theorem textFrom_escapeChar (n : Nat) (value : List Char) (c : Char) (rest : List Char) :
    textFrom .plain n value (Text.escapeChar '"' c ++ rest) =
      textFrom .plain (n + (Text.escapeChar '"' c).length) (c :: value) rest := by
  by_cases hquote : c = '"'
  · subst hquote
    rfl
  by_cases hbackslash : c = '\\'
  · subst hbackslash
    rfl
  by_cases hnewline : c = '\n'
  · subst hnewline
    rfl
  by_cases hreturn : c = '\r'
  · subst hreturn
    rfl
  by_cases htab : c = '\t'
  · subst htab
    rfl
  by_cases hzero : c.toNat = 0
  · rw [show c = Char.ofNat 0 by rw [← hzero, Char.ofNat_toNat]]
    rfl
  by_cases hshown : Text.isShown c = true
  · have hself : Text.escapeChar '"' c = [c] := by
      simp [Text.escapeChar, hquote, hbackslash, hnewline, hreturn, htab, hzero, hshown]
    rw [hself]
    simp [textFrom, hquote, hbackslash]
  · have hcode : Text.escapeChar '"' c = Text.codeEscape c := by
      simp [Text.escapeChar, hquote, hbackslash, hnewline, hreturn, htab, hzero, hshown]
    rw [hcode, textFrom_codeEscape]

theorem textFrom_quoted (n : Nat) (value cs tail : List Char) :
    textFrom .plain n value (cs.flatMap (Text.escapeChar '"') ++ '"' :: tail) =
      .ok (.text (String.ofList (value.reverse ++ cs)),
        n + (cs.flatMap (Text.escapeChar '"')).length) := by
  induction cs generalizing n value with
  | nil => simp [textFrom]
  | cons c cs ih =>
    rw [List.flatMap_cons, List.append_assoc, textFrom_escapeChar, ih, List.reverse_cons,
      List.append_assoc, List.length_append, Nat.add_assoc]
    rfl

theorem reads_quote (s : String) {tail : List Char} {kinds : List TokenKind}
    (h : Reads tail kinds) : Reads ((Text.quote s).toList ++ tail) (.text s :: kinds) := by
  have hscan : scan '"' (s.toList.flatMap (Text.escapeChar '"') ++ '"' :: tail) =
      .ok (.text s, 1 + (s.toList.flatMap (Text.escapeChar '"')).length) := by
    show textFrom .plain 1 [] _ = _
    rw [textFrom_quoted]
    simp
  have htext : (Text.quote s).toList ++ tail =
      '"' :: (s.toList.flatMap (Text.escapeChar '"') ++ '"' :: tail) := by
    simp [Text.quote, Text.quoteChars]
  rw [htext]
  refine reads_scan (by decide) hscan rfl (by simp) ?_
  rw [Nat.add_comm, ← List.drop_drop, List.drop_left]
  exact h

end Lexer
end Attest
