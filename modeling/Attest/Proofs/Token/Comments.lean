import Attest.Statement.Parser

/-!
Comments.

A lexer that keeps comments and one that skips them scan the same text at the same places: a scan
is the same for both, and the one that skips goes on at once where the other gives the comment out.
So the tokens of the second are those of the first without the comments, and a parser, which drops
them, cannot tell the two apart.
-/

namespace Attest
namespace Lexer

/-- A step that skips comments is one that keeps them, repeated behind a comment. -/
theorem next_cases (c : Cursor) :
    (∃ e, next true c = .error e ∧ next false c = .error e) ∨
      ∃ t c', next true c = .ok (t, c') ∧
        next false c = if t.kind.isComment then next false c' else .ok (t, c') := by
  have hskip := next.eq_1 false c
  fun_cases next true c with
  | case1 here hr =>
    refine .inr ⟨_, _, rfl, ?_⟩
    rw [hskip]
    split
    · rfl
    · next heq => cases heq.symm.trans hr
  | case2 here ch rest hr f hs =>
    refine .inl ⟨_, rfl, ?_⟩
    rw [hskip]
    split
    · next heq => cases heq.symm.trans hr
    · next heq =>
      cases heq.symm.trans hr
      rw [hs]
  | case3 here ch rest hr kind extra hs hk => simp at hk
  | case4 here ch rest hr kind extra hs hk =>
    refine .inr ⟨_, _, rfl, ?_⟩
    rw [hskip]
    split
    · next heq => cases heq.symm.trans hr
    · next heq =>
      cases heq.symm.trans hr
      rw [hs]
      simp [here]

theorem tokensFrom_congr {keep : Bool} {c c' : Cursor} (h : next keep c = next keep c') :
    tokensFrom keep c = tokensFrom keep c' := by
  rw [tokensFrom, tokensFrom, h]

theorem filter_tokensFrom (c : Cursor) :
    (tokensFrom true c).1.filter (fun t => !t.kind.isComment) = (tokensFrom false c).1 ∧
      (tokensFrom true c).2 = (tokensFrom false c).2 := by
  fun_induction tokensFrom true c with
  | case1 c e c' h =>
    rcases next_cases c with ⟨e', hkeep, hskip⟩ | ⟨t, c'', hkeep, -⟩
    · cases h.symm.trans hkeep
      rw [tokensFrom, hskip]
      exact ⟨rfl, rfl⟩
    · cases h.symm.trans hkeep
  | case2 c t c' h hend =>
    rcases next_cases c with ⟨e', hkeep, -⟩ | ⟨t', c'', hkeep, hskip⟩
    · cases h.symm.trans hkeep
    · cases h.symm.trans hkeep
      have hkind : t.kind = .eof := by simpa [Token.isEnd] using hend
      rw [hkind] at hskip
      rw [tokensFrom, hskip]
      simp [hend, hkind, TokenKind.isComment]
  | case3 c t c' h hend more ih =>
    rcases next_cases c with ⟨e', hkeep, -⟩ | ⟨t', c'', hkeep, hskip⟩
    · cases h.symm.trans hkeep
    · cases h.symm.trans hkeep
      by_cases hk : t.kind.isComment = true
      · rw [if_pos hk] at hskip
        rw [tokensFrom_congr hskip, List.filter_cons_of_neg (by simp [hk])]
        exact ih
      · rw [if_neg hk] at hskip
        rw [tokensFrom, hskip, List.filter_cons_of_pos (by simpa using hk)]
        simp only [hend, Bool.false_eq_true, dif_neg, not_false_eq_true]
        exact ⟨congrArg _ ih.1, ih.2⟩

end Lexer

/-- A stream has no comments, whichever tokens it is made of. -/
theorem TokenStream.ofTokens_filter (ts : List Token) :
    ofTokens (ts.filter fun t => !t.kind.isComment) = ofTokens ts := by
  unfold ofTokens
  rw [List.filter_filter]
  simp only [Bool.and_self]

/-- Comments are transparent: without them, the tokens of a source are those of a lexer that skips
them, and so is the error at which it stops; a statement is parsed alike from both. -/
theorem Lexer.comments_transparent (source : String) :
    (tokensFrom true (.ofSource source)).1.filter (fun t => !t.kind.isComment) =
        (tokensFrom false (.ofSource source)).1 ∧
      (tokensFrom true (.ofSource source)).2 = (tokensFrom false (.ofSource source)).2 ∧
      ∀ limit, Statement.ofTokens limit (tokensFrom true (.ofSource source)).1 =
        Statement.ofTokens limit (tokensFrom false (.ofSource source)).1 := by
  obtain ⟨htokens, herror⟩ := filter_tokensFrom (.ofSource source)
  refine ⟨htokens, herror, fun limit => ?_⟩
  unfold Statement.ofTokens
  rw [← htokens, TokenStream.ofTokens_filter]

end Attest
