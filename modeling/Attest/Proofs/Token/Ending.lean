import Attest.Proofs.Token.Comments
import Attest.Proofs.Token.Layout

/-!
The end of a stream whose tokens come without one.

It is put behind the last token, on the line where that token begins.  If nothing stands behind the
token in the source, this is the place that a lexer gives the end, as long as the token does not
run over several lines: a text may hold a newline, and then the end is a line or more too early.
-/

namespace Attest

namespace Lexer

/-- Whether there is white space or a comment behind the last token of a source. -/
def endsInGap (source : String) : Bool :=
  source.toList.getLast?.any Text.isSpace ||
    (tokensFrom true (.ofSource source)).1.dropLast.getLast?.any (·.kind.isComment)

/-- If comments are tokens, a gap is white space. -/
theorem Gap.isSpace {rest gap : List Char} (h : Gap true rest gap) :
    ∀ c ∈ gap, Text.isSpace c = true := by
  induction h with
  | nil => simp
  | space hc _ ih => exact List.forall_mem_cons.mpr ⟨hc, ih⟩
  | comment hkeep => cases hkeep

theorem Gap.eq_nil {cs gap : List Char} (h : Gap true [] gap)
    (hlast : (cs ++ gap).getLast?.any Text.isSpace = false) : gap = [] := by
  cases hc : gap.getLast? with
  | none => exact List.getLast?_eq_none_iff.mp hc
  | some c =>
    have hspace := h.isSpace c (List.mem_of_getLast? hc)
    simp [List.getLast?_append, hc, hspace] at hlast

/-- The tokens along a text to its end: no other is an end, and a gap lies behind the last. -/
theorem Along.ends {keep : Bool} {before rest : List Char} {ts : List Token}
    (h : Along keep before rest ts none) :
    ∃ body gap, ts = body ++ [⟨.eof, "", .behind (before ++ rest)⟩] ∧
      (∀ t ∈ body, t.kind ≠ .eof) ∧ Gap keep [] gap ∧
      (body = [] ∧ rest = gap ∨ ∃ front t cs, body = front ++ [t] ∧ t.position = .behind cs ∧
        before ++ rest = cs ++ t.lexeme.toList ++ gap) := by
  generalize he : (none : Option LexError) = e at h
  induction h with
  | failed => cases he
  | last hgap => exact ⟨[], _, rfl, by simp, hgap, .inl ⟨rfl, rfl⟩⟩
  | @token before gap rest t ts e _ hplace hkind _ _ ih =>
    obtain ⟨body, last, rfl, hbody, hlast, hplaces⟩ := ih he
    refine ⟨t :: body, last, by simp, List.forall_mem_cons.mpr ⟨hkind, hbody⟩, hlast, .inr ?_⟩
    rcases hplaces with ⟨rfl, rfl⟩ | ⟨front, u, cs, rfl, hu, hsource⟩
    · exact ⟨[], t, before ++ gap, rfl, hplace, by simp⟩
    · exact ⟨t :: front, u, cs, rfl, hu, by simpa using hsource⟩

/-- The tokens of a source that ends with the last of them, or that is empty. -/
theorem tokens_of_endsInGap {source : String} {ts : List Token} (h : tokenize source = .ok ts)
    (hend : endsInGap source = false) :
    ts = [⟨.eof, "", .start⟩] ∨ ∃ front t cs,
      ts = front ++ [t] ++ [⟨.eof, "", .behind (cs ++ t.lexeme.toList)⟩] ∧ t.kind ≠ .eof ∧
        t.kind.isComment = false ∧ t.position = .behind cs := by
  -- Where comments are tokens there is nothing but white space between tokens.
  obtain ⟨htokens, herror⟩ := filter_tokensFrom (.ofSource source)
  have halong : Along true [] source.toList _ _ := along_tokensFrom true (.ofSource source) [] rfl
  rw [(tokensFrom_of_tokenize h).1] at htokens
  rw [herror, (tokensFrom_of_tokenize h).2] at halong
  obtain ⟨body, gap, hbody, hkinds, hgap, hplaces⟩ := halong.ends
  obtain ⟨hspace, hcomment⟩ := Bool.or_eq_false_iff.mp hend
  have hnone : ∀ cs, source.toList = cs ++ gap → gap = [] := fun cs hsource =>
    hgap.eq_nil (hsource ▸ hspace)
  rw [hbody, List.dropLast_concat] at hcomment
  rw [hbody, List.filter_append, List.nil_append] at htokens
  rcases hplaces with ⟨rfl, hsource⟩ | ⟨front, t, cs, rfl, hplace, hsource⟩
  · refine .inl ?_
    rw [← htokens, hsource, hnone [] hsource]
    rfl
  · rw [List.getLast?_concat, Option.any_some] at hcomment
    rw [List.nil_append] at hsource
    rw [hnone _ hsource, List.append_nil] at hsource
    refine .inr ⟨front.filter fun t => !t.kind.isComment, t, cs, ?_, hkinds t (by simp), hcomment,
      hplace⟩
    rw [← htokens, hsource, List.filter_append, List.filter_cons_of_pos (by simpa using hcomment)]
    rfl

end Lexer

namespace TokenStream

/-- The end that is put behind a token stands where its text ends if that is all on one line, and
in any case at the right offset. -/
theorem endAfter_eq_iff {t : Token} {cs : List Char} (h : t.position = .behind cs) :
    (endAfter t).position.offset = (Position.behind (cs ++ t.lexeme.toList)).offset ∧
      (endAfter t = ⟨.eof, "", .behind (cs ++ t.lexeme.toList)⟩ ↔ '\n' ∉ t.lexeme.toList) := by
  have hoffset : t.endOffset = (Position.behind (cs ++ t.lexeme.toList)).offset := by
    rw [Token.endOffset, h, Position.offset_behind_append, String.ofList_toList]
  refine ⟨hoffset, ?_⟩
  unfold endAfter
  rw [hoffset, h, Token.mk.injEq, Position.behind, Position.behind, Position.mk.injEq]
  simp only [List.count_append, List.reverse_append, true_and, and_true]
  constructor
  · rintro ⟨hline, -⟩
    exact List.count_eq_zero.mp (by omega)
  · intro hnone
    have hwhole : ∀ c ∈ t.lexeme.toList.reverse, (c != '\n') = true := fun c hc => by
      rw [bne_iff_ne]
      rintro rfl
      exact hnone (List.mem_reverse.mp hc)
    rw [List.count_eq_zero.mpr hnone, List.takeWhile_append_of_pos hwhole, List.length_append,
      List.length_reverse, String.length_toList]
    omega

/-- Where the places of a source can be counted in words of 32 bits, so can that of such an end. -/
theorem words_endAfter {t : Token} {cs source : List Char} (h : t.position = .behind cs)
    (hslice : cs ++ t.lexeme.toList <+: source) (hsource : source.length + 1 < UInt32.size) :
    (endAfter t).position.words =
        ⟨t.position.words.line, t.position.words.column + .ofNat t.lexeme.length⟩ ∧
      (endAfter t).position.words.Tell (endAfter t).position := by
  have hlength := hslice.length_le
  rw [List.length_append, String.length_toList] at hlength
  have hline := Position.line_behind_le cs
  have hcolumn := Position.column_behind_le cs
  rw [← h] at hline hcolumn
  refine ⟨?_, Position.words_tell hsource ?_ ?_⟩
  · rw [Position.words, endAfter, UInt32.ofNat_add]
    rfl
  · show t.position.line ≤ _
    omega
  · show t.position.column + t.lexeme.length ≤ _
    omega

theorem ofTokens_concat_end (ts : List Token) (p : Position) :
    ofTokens (ts ++ [⟨.eof, "", p⟩]) = ⟨ts.filter (fun t => !t.kind.isComment), ⟨.eof, "", p⟩⟩ := by
  simp [ofTokens, TokenKind.isComment, Token.isEnd]

theorem ofTokens_concat {t : Token} (ts : List Token) (hend : t.kind ≠ .eof)
    (hcomment : t.kind.isComment = false) :
    ofTokens (ts ++ [t]) = ⟨(ts ++ [t]).filter (fun t => !t.kind.isComment), endAfter t⟩ := by
  simp [ofTokens, hcomment, Token.isEnd, hend]

/-- Where nothing stands behind the last token of a source, its tokens without the end make the
same stream as with it, but for the line and column of the end; and these are the same just if the
last token has no newline in it. -/
theorem ofTokens_dropLast_iff {source : String} {ts : List Token}
    (h : Lexer.tokenize source = .ok ts) (hend : Lexer.endsInGap source = false) :
    (ofTokens ts.dropLast).rest = (ofTokens ts).rest ∧
      (ofTokens ts.dropLast).last.position.offset = (ofTokens ts).last.position.offset ∧
      (ofTokens ts.dropLast = ofTokens ts ↔
        ∀ t ∈ ts.dropLast.getLast?, '\n' ∉ t.lexeme.toList) := by
  rcases Lexer.tokens_of_endsInGap h hend with rfl | ⟨front, t, cs, rfl, hkind, hcomment, hplace⟩
  · simp [ofTokens, TokenKind.isComment, Token.isEnd]
  · obtain ⟨hoffset, hiff⟩ := endAfter_eq_iff hplace
    rw [List.dropLast_concat, ofTokens_concat front hkind hcomment, ofTokens_concat_end,
      TokenStream.mk.injEq, List.getLast?_concat]
    refine ⟨rfl, hoffset, ?_⟩
    simpa using hiff

theorem ofTokens_dropLast_texts :
    (∃ ts, Lexer.tokenize "\"é\"" = .ok ts ∧ ofTokens ts.dropLast = ofTokens ts) ∧
      ∃ ts, Lexer.tokenize "\"a\nb\"" = .ok ts ∧ ofTokens ts.dropLast ≠ ofTokens ts := by
  have hone : Lexer.tokenize "\"é\"" =
      .ok [⟨.text "é", "\"é\"", .start⟩, ⟨.eof, "", ⟨1, 4, 4⟩⟩] := by decide +kernel
  have htwo : Lexer.tokenize "\"a\nb\"" =
      .ok [⟨.text "a\nb", "\"a\nb\"", .start⟩, ⟨.eof, "", ⟨2, 3, 5⟩⟩] := by decide +kernel
  refine ⟨⟨_, hone, ?_⟩, _, htwo, fun heq => ?_⟩
  · refine (ofTokens_dropLast_iff hone (by decide +kernel)).2.2.mpr fun t ht => ?_
    cases ht
    decide
  · have hnone := (ofTokens_dropLast_iff htwo (by decide +kernel)).2.2.mp heq _ rfl
    exact hnone (by decide)

end TokenStream
end Attest
