import Attest.Token.Lexer
import Attest.Token.Stream
import Attest.Proofs.Double.Text

/-!
The tokens of a text, one token at a time.

A parser that succeeds has looked at the kinds of tokens only, so that is all that is said about
them here.
A text is read from its front: if it begins with a token, its kinds are that of the token and those
of what follows.
-/

namespace Attest
namespace Lexer

/-- The kinds of the tokens of a text are these, wherever the text begins. -/
def Reads (cs : List Char) (kinds : List TokenKind) : Prop :=
  ∀ p, ∃ ts last, tokensFrom false ⟨cs, p⟩ = (ts ++ [last], none) ∧ ts.map (·.kind) = kinds ∧
    last.kind = .eof ∧ ∀ k ∈ kinds, k.isComment = false

theorem next_congr {keep : Bool} {c c' : Cursor} (h : c.skipSpace = c'.skipSpace) :
    next keep c = next keep c' := by
  conv_lhs => rw [next]
  conv_rhs => rw [next]
  generalize c.skipSpace = here at h
  subst h
  rfl

theorem skipSpace_cons_of_space {c : Char} (hc : Text.isSpace c = true) (rest : List Char)
    (p : Position) :
    (⟨c :: rest, p⟩ : Cursor).skipSpace = (⟨rest, p.next c⟩ : Cursor).skipSpace := by
  simp [Cursor.skipSpace, Cursor.skip, hc, Position.after]

theorem skipSpace_cons {c : Char} (hc : Text.isSpace c = false) (rest : List Char)
    (p : Position) : (⟨c :: rest, p⟩ : Cursor).skipSpace = ⟨c :: rest, p⟩ := by
  simp [Cursor.skipSpace, Cursor.skip, hc, Position.after]

theorem next_cons {c : Char} {rest : List Char} {kind : TokenKind} {extra : Nat}
    (hc : Text.isSpace c = false) (h : scan c rest = .ok (kind, extra))
    (hk : kind.isComment = false) (p : Position) :
    next false ⟨c :: rest, p⟩ = .ok
      (⟨kind, String.ofList ((c :: rest).take (extra + 1)), p⟩,
        (⟨c :: rest, p⟩ : Cursor).skip (extra + 1)) := by
  have hhere := skipSpace_cons hc rest p
  rw [next]
  generalize (⟨c :: rest, p⟩ : Cursor).skipSpace = here at hhere
  subst hhere
  simp only [h, hk, Bool.false_and, Bool.false_eq_true, if_false]

theorem reads_nil : Reads [] [] := by
  intro p
  refine ⟨[], ⟨.eof, "", p⟩, ?_, rfl, rfl, by simp⟩
  have hnext : next false ⟨[], p⟩ = .ok (⟨.eof, "", p⟩, ⟨[], p⟩) := by
    rw [next]
    rfl
  rw [tokensFrom, hnext]
  rfl

theorem reads_space {c : Char} {cs : List Char} {kinds : List TokenKind}
    (hc : Text.isSpace c = true) (h : Reads cs kinds) : Reads (c :: cs) kinds := by
  intro p
  have hnext : next false ⟨c :: cs, p⟩ = next false ⟨cs, p.next c⟩ :=
    next_congr (skipSpace_cons_of_space hc cs p)
  obtain ⟨ts, last, htokens, hrest⟩ := h (p.next c)
  refine ⟨ts, last, ?_, hrest⟩
  rw [← htokens, tokensFrom, tokensFrom, hnext]

theorem reads_scan {c : Char} {rest : List Char} {kind : TokenKind} {extra : Nat}
    {kinds : List TokenKind} (hc : Text.isSpace c = false)
    (hscan : scan c rest = .ok (kind, extra)) (hk : kind.isComment = false) (he : kind ≠ .eof)
    (h : Reads (rest.drop extra) kinds) : Reads (c :: rest) (kind :: kinds) := by
  intro p
  obtain ⟨ts, last, htokens, hkinds, hlast, hcomment⟩ := h (p.after ((c :: rest).take (extra + 1)))
  refine ⟨⟨kind, String.ofList ((c :: rest).take (extra + 1)), p⟩ :: ts, last, ?_, ?_, hlast, ?_⟩
  · have hcursor : (⟨c :: rest, p⟩ : Cursor).skip (extra + 1) =
        ⟨rest.drop extra, p.after ((c :: rest).take (extra + 1))⟩ := rfl
    have hend :
        (⟨kind, String.ofList ((c :: rest).take (extra + 1)), p⟩ : Token).isEnd = false := by
      simpa [Token.isEnd] using he
    rw [tokensFrom, next_cons hc hscan hk, hcursor]
    simp only [hend, Bool.false_eq_true, dif_neg, not_false_eq_true, htokens]
    rfl
  · rw [List.map_cons, hkinds]
  · intro k hmem
    rcases List.mem_cons.mp hmem with rfl | hmem
    · exact hk
    · exact hcomment k hmem

/-- What follows a number and does not go on with it. -/
def EndsNumber (tail : List Char) : Prop :=
  ∀ c ∈ tail.head?, c.isDigit = false ∧ c ≠ '.' ∧ c ≠ 'e' ∧ c ≠ 'E'

/-- A run of a class of characters ends where something else follows. -/
theorem takeWhile_run {p : Char → Bool} {cs tail : List Char} (hcs : ∀ c ∈ cs, p c = true)
    (htail : ∀ c ∈ tail.head?, p c = false) :
    (cs ++ tail).takeWhile p = cs ∧ (cs ++ tail).dropWhile p = tail := by
  rw [List.takeWhile_append_of_pos hcs, List.dropWhile_append_of_pos hcs]
  cases tail with
  | nil => simp
  | cons c rest =>
    have hc : p c = false := htail c rfl
    simp [hc]

theorem exponentOf_eq_none {tail : List Char} (h : EndsNumber tail) : exponentOf tail = none := by
  cases tail with
  | nil => rfl
  | cons c rest =>
    obtain ⟨-, -, he, hE⟩ := h c rfl
    simp [exponentOf, he, hE]

theorem fractionOf_eq_nil {tail : List Char} (h : EndsNumber tail) : fractionOf tail = [] := by
  cases tail with
  | nil => rfl
  | cons c rest =>
    obtain ⟨-, hpoint, -, -⟩ := h c rfl
    unfold fractionOf
    split
    · next heq => exact absurd (List.cons.inj heq).1 hpoint
    · rfl

theorem number_nat {ds tail : List Char} (hds : ∀ c ∈ ds, c.isDigit = true)
    (htail : EndsNumber tail) (hrange : Double.digitsValue ds < 0x10000000000000000) :
    number (ds ++ tail) = .ok (.nat (Double.digitsValue ds).toUInt64, ds.length - 1) := by
  obtain ⟨htake, hdrop⟩ := takeWhile_run hds fun c hc => (htail c hc).1
  unfold number
  simp only [htake, hdrop, fractionOf_eq_nil htail, List.isEmpty_nil, if_true, List.drop_zero,
    exponentOf_eq_none htail, Option.getD_none, Option.isNone_none, Bool.and_self, hrange,
    Nat.add_zero, List.length_nil]

theorem number_float {whole fraction tail : List Char} (h : Decimal.Spelled whole fraction)
    (htail : EndsNumber tail)
    (hfinite : (Double.ofDigits whole fraction false []).isFinite = true) :
    number (whole ++ '.' :: (fraction ++ tail)) =
      .ok (.float (Double.ofDigits whole fraction false []),
        whole.length + (fraction.length + 1) - 1) := by
  have hwhole : ∀ c ∈ whole, c.isDigit = true := fun c hc =>
    h.digit c (List.mem_append_left _ hc)
  have hfraction : ∀ c ∈ fraction, c.isDigit = true := fun c hc =>
    h.digit c (List.mem_append_right _ hc)
  have hpoint : ∀ c ∈ ('.' :: (fraction ++ tail)).head?, c.isDigit = false := by
    rintro _ ⟨⟩
    decide
  obtain ⟨htake, hdrop⟩ := takeWhile_run hwhole hpoint
  have hfrac : fractionOf ('.' :: (fraction ++ tail)) = fraction :=
    (takeWhile_run hfraction fun c hc => (htail c hc).1).1
  have hempty : fraction.isEmpty = false := by simpa using h.fraction_ne
  have hexponent : exponentOf (('.' :: (fraction ++ tail)).drop (fraction.length + 1)) = none := by
    rw [List.drop_succ_cons, List.drop_left]
    exact exponentOf_eq_none htail
  unfold number
  simp only [htake, hdrop, hfrac, hempty, Bool.false_eq_true, if_false, hexponent,
    Option.getD_none, Bool.false_and, hfinite, if_true, Nat.add_zero, List.length_nil]

theorem ne_of_isDigit {c d : Char} (hc : c.isDigit = true) (hd : d.isDigit = false) :
    (c == d) = false := by
  rw [beq_eq_false_iff_ne]
  rintro rfl
  rw [hc] at hd
  cases hd

theorem isSpace_of_isDigit {c : Char} (h : c.isDigit = true) : Text.isSpace c = false := by
  have hrange : 48 ≤ c.toNat ∧ c.toNat ≤ 57 := Char.isDigit_iff_toNat.mp h
  simp [Text.isSpace, Text.inRanges, Text.whiteSpaceRanges]
  omega

theorem scan_digit {c : Char} (hc : c.isDigit = true) (rest : List Char) :
    scan c rest = number (c :: rest) := by
  unfold scan
  simp only [ne_of_isDigit hc (show '-'.isDigit = false by decide),
    ne_of_isDigit hc (show '/'.isDigit = false by decide),
    ne_of_isDigit hc (show '"'.isDigit = false by decide), Bool.false_and, Bool.false_eq_true,
    if_false, hc, if_true]

theorem reads_nat (n : UInt64) {tail : List Char} {kinds : List TokenKind}
    (htail : EndsNumber tail) (h : Reads tail kinds) :
    Reads ((toString n).toList ++ tail) (.nat n :: kinds) := by
  have htext : (toString n).toList = Nat.toDigits 10 n.toNat := Nat.toList_repr
  have hds : ∀ c ∈ Nat.toDigits 10 n.toNat, c.isDigit = true := fun c hc =>
    Nat.isDigit_of_mem_toDigits (by decide) (by decide) hc
  have hvalue := Double.digitsValue_toDigits n.toNat
  have hnumber := number_nat hds htail (by rw [hvalue]; exact n.toNat_lt)
  rw [hvalue, show n.toNat.toUInt64 = n from UInt64.ofNat_toNat] at hnumber
  rw [htext]
  cases hcs : Nat.toDigits 10 n.toNat with
  | nil => exact absurd hcs Nat.toDigits_ne_nil
  | cons c cs =>
    rw [hcs] at hds
    rw [hcs, List.cons_append, List.length_cons, Nat.add_sub_cancel] at hnumber
    have hc : c.isDigit = true := hds c List.mem_cons_self
    rw [List.cons_append]
    refine reads_scan (isSpace_of_isDigit hc) ((scan_digit hc _).trans hnumber) rfl (by simp) ?_
    rw [List.drop_left]
    exact h

theorem reads_float {whole fraction tail : List Char} {kinds : List TokenKind}
    (hspelled : Decimal.Spelled whole fraction)
    (hfinite : (Double.ofDigits whole fraction false []).isFinite = true)
    (htail : EndsNumber tail) (h : Reads tail kinds) :
    Reads (whole ++ '.' :: (fraction ++ tail))
      (.float (Double.ofDigits whole fraction false []) :: kinds) := by
  have hnumber := number_float hspelled htail hfinite
  generalize hx : Double.ofDigits whole fraction false [] = x at *
  cases whole with
  | nil => exact absurd rfl hspelled.whole_ne
  | cons c cs =>
    have hc : c.isDigit = true := hspelled.digit c List.mem_cons_self
    rw [List.cons_append] at hnumber ⊢
    refine reads_scan (isSpace_of_isDigit hc) ((scan_digit hc _).trans hnumber) rfl (by simp) ?_
    have hsize : (c :: cs).length + (fraction.length + 1) - 1 =
        cs.length + (fraction.length + 1) := by
      rw [List.length_cons]
      omega
    rw [hsize, ← List.drop_drop, List.drop_left, List.drop_succ_cons, List.drop_left]
    exact h

/-- A word: something that may begin an identifier, and things that may follow in one. -/
def IsWord (w : String) : Prop :=
  w.toList ≠ [] ∧ (∀ ch ∈ w.toList, Text.isIdentRest ch = true) ∧
    ∀ ch ∈ w.toList.head?, Text.isSpace ch = false ∧ ch.isDigit = false ∧
      Text.isIdentStart ch = true

theorem scan_word {c : Char} (hdigit : c.isDigit = false) (hstart : Text.isIdentStart c = true)
    (rest : List Char) : scan c rest = .ok (word (c :: rest)) := by
  have hne : ∀ d, Text.isIdentStart d = false → (c == d) = false := by
    intro d hd
    rw [beq_eq_false_iff_ne]
    rintro rfl
    exact absurd (hstart.symm.trans hd) Bool.true_eq_false_eq_False
  unfold scan
  simp only [hne '-' (by decide), hne '/' (by decide), hne '"' (by decide), hdigit, hstart,
    Bool.false_and, Bool.false_eq_true, if_false, if_true]

theorem wordKind_kind (w : String) : (wordKind w).isComment = false ∧ wordKind w ≠ .eof := by
  unfold wordKind
  grind [TokenKind.isComment]

theorem reads_word {w : String} (hw : IsWord w) {tail : List Char} {kinds : List TokenKind}
    (htail : ∀ ch ∈ tail.head?, Text.isIdentRest ch = false) (h : Reads tail kinds) :
    Reads (w.toList ++ tail) (wordKind w :: kinds) := by
  obtain ⟨hne, hall, hfirst⟩ := hw
  have hword : word (w.toList ++ tail) = (wordKind w, w.toList.length - 1) := by
    unfold word
    simp only [(takeWhile_run hall htail).1, String.ofList_toList]
  obtain ⟨hcomment, hend⟩ := wordKind_kind w
  cases hname : w.toList with
  | nil => exact absurd hname hne
  | cons first rest =>
    rw [hname] at hfirst
    rw [hname, List.cons_append, List.length_cons, Nat.add_sub_cancel] at hword
    obtain ⟨hspace, hdigit, hstart⟩ := hfirst first rfl
    rw [List.cons_append]
    refine reads_scan hspace ((scan_word hdigit hstart _).trans (congrArg _ hword)) hcomment hend ?_
    rw [List.drop_left]
    exact h

theorem isWord_name (c : Category) : IsWord c.name := by
  unfold IsWord
  cases c <;> simp [Category.name] <;> decide +kernel

theorem wordKind_name (c : Category) : wordKind c.name = .typeName c := by
  have hname : Category.ofName? c.name = some c := by cases c <;> decide
  unfold wordKind
  rw [hname]

theorem reads_category (c : Category) {tail : List Char} {kinds : List TokenKind}
    (htail : ∀ ch ∈ tail.head?, Text.isIdentRest ch = false) (h : Reads tail kinds) :
    Reads (c.name.toList ++ tail) (.typeName c :: kinds) := by
  rw [← wordKind_name]
  exact reads_word (isWord_name c) htail h

/-- Punctuation that is no part of a longer symbol. -/
abbrev marks : List (Char × Symbol) :=
  [('(', .lparen), (',', .comma), (')', .rparen), ('[', .lbracket), (']', .rbracket),
    ('\x7b', .lbrace), ('\x7d', .rbrace), (':', .colon), ('+', .plus)]

theorem reads_symbol {c : Char} {o : Symbol} {tail : List Char} {kinds : List TokenKind}
    (hc : (c, o) ∈ marks) (h : Reads tail kinds) : Reads (c :: tail) (.symbol o :: kinds) := by
  simp only [List.mem_cons, Prod.mk.injEq, List.not_mem_nil, or_false] at hc
  rcases hc with ⟨rfl, rfl⟩ | ⟨rfl, rfl⟩ | ⟨rfl, rfl⟩ | ⟨rfl, rfl⟩ | ⟨rfl, rfl⟩ | ⟨rfl, rfl⟩ |
    ⟨rfl, rfl⟩ | ⟨rfl, rfl⟩ | ⟨rfl, rfl⟩ <;>
    exact reads_scan (by decide) rfl rfl (by simp) h

/-- A minus that is not doubled. -/
theorem reads_minus {tail : List Char} {kinds : List TokenKind}
    (htail : ∀ c ∈ tail.head?, c ≠ '-') (h : Reads tail kinds) :
    Reads ('-' :: tail) (.symbol .minus :: kinds) := by
  have hhead : (tail.head? == some '-') = false := by
    rw [beq_eq_false_iff_ne]
    exact fun heq => htail '-' heq rfl
  have hscan : scan '-' tail = .ok (.symbol .minus, 0) := by
    unfold scan
    rw [hhead]
    rfl
  exact reads_scan (by decide) hscan rfl (by simp) h

/-- The literal of a finite number is read as its magnitude behind its sign. -/
theorem reads_literal {x : Double} (hx : x.isFinite = true) {tail : List Char}
    {kinds : List TokenKind} (htail : EndsNumber tail) (h : Reads tail kinds) :
    Reads (x.literal.toList ++ tail)
      ((if x.negative then [.symbol .minus] else []) ++ [.float (.ofBits x.magnitude)] ++
        kinds) := by
  obtain ⟨whole, fraction, hspelled, hvalue, htext⟩ := Double.literal_eq hx
  have hfinite : (Double.ofDigits whole fraction false []).isFinite = true := by
    rw [hvalue, Double.isFinite, Double.magnitude_magnitude]
    exact hx
  have hread := reads_float hspelled hfinite htail h
  rw [hvalue] at hread
  have htoList : x.literal.toList ++ tail = (if x.negative then ['-'] else []) ++
      (whole ++ '.' :: (fraction ++ tail)) := by
    rw [htext, String.toList_append, String.toList_ofList]
    split <;> simp
  rw [htoList]
  split
  · refine reads_minus ?_ hread
    rintro c hc rfl
    cases hw : whole with
    | nil => exact hspelled.whole_ne hw
    | cons d ds =>
      rw [hw] at hc
      have hd := hspelled.digit d (by rw [hw]; exact List.mem_cons_self)
      rw [show d = '-' by simpa using hc] at hd
      cases hd
  · exact hread

end Lexer

namespace TokenStream

theorem mem_of_mem_ofTokens {ts : List Token} {t : Token} (h : t ∈ (ofTokens ts).rest) :
    t ∈ ts := by
  unfold ofTokens at h
  dsimp only at h
  split at h
  · cases h
  · split at h
    · exact List.mem_of_mem_filter (List.dropLast_subset _ h)
    · exact List.mem_of_mem_filter h

theorem last_ofTokens (ts : List Token) : (ofTokens ts).last.kind = .eof := by
  unfold ofTokens
  dsimp only
  split
  · rfl
  · split
    · next hend => simpa [Token.isEnd] using hend
    · rfl

theorem ofTokens_append {ts : List Token} {last : Token}
    (hts : ∀ t ∈ ts, t.kind.isComment = false) (hlast : last.kind = .eof) :
    ofTokens (ts ++ [last]) = ⟨ts, last⟩ := by
  have hfilter : (ts ++ [last]).filter (fun t => !t.kind.isComment) = ts ++ [last] := by
    rw [List.filter_eq_self]
    intro t ht
    rcases List.mem_append.mp ht with ht | ht
    · rw [hts t ht]
      rfl
    · rw [List.mem_singleton.mp ht, hlast]
      rfl
  unfold ofTokens
  simp [hfilter, Token.isEnd, hlast]

theorem ofTokens_of_reads {source : String} {kinds : List TokenKind}
    (h : Lexer.Reads source.toList kinds) :
    ∃ ts last, Lexer.tokenize source = .ok (ts ++ [last]) ∧ ts.map (·.kind) = kinds ∧
      last.kind = .eof ∧ ofTokens (ts ++ [last]) = ⟨ts, last⟩ := by
  obtain ⟨ts, last, htokens, hkinds, hlast, hcomment⟩ := h Position.start
  have htokenize : Lexer.tokenize source = .ok (ts ++ [last]) := by
    unfold Lexer.tokenize Lexer.Cursor.ofSource
    rw [htokens]
  have hno : ∀ t ∈ ts, t.kind.isComment = false := fun t ht =>
    hcomment t.kind (hkinds ▸ List.mem_map_of_mem ht)
  exact ⟨ts, last, htokenize, hkinds, hlast, ofTokens_append hno hlast⟩

end TokenStream
end Attest
