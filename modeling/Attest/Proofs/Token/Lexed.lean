import Attest.Proofs.Token.Lexing

/-!
What the tokens of a source are like.

A float is finite and has no sign, since a sign is a token of its own.  An identifier is a word that
is nothing else: it can stand in a source again and is read as the same identifier.
-/

namespace Attest

namespace Text

/-- Whether every range of a rising table lies in a range of another. -/
def rangesWithin : List (Nat × Nat) → List (Nat × Nat) → Bool
  | [], _ => true
  | r :: rs, qs => match qs.dropWhile fun q => q.2 < r.1 with
    | [] => false
    | q :: qs => q.1 ≤ r.1 && r.2 ≤ q.2 && rangesWithin rs (q :: qs)

theorem inRanges_of_rangesWithin {rs qs : List (Nat × Nat)} (h : rangesWithin rs qs = true)
    {c : Char} (hc : inRanges rs c = true) : inRanges qs c = true := by
  induction rs generalizing qs with
  | nil => cases hc
  | cons r rs ih =>
    have hsuffix := List.dropWhile_suffix (fun q : Nat × Nat => q.2 < r.1) (l := qs)
    rw [rangesWithin] at h
    cases hqs : qs.dropWhile fun q => q.2 < r.1 with
    | nil =>
      rw [hqs] at h
      cases h
    | cons q qs' =>
      simp only [hqs, Bool.and_eq_true, decide_eq_true_eq] at h
      obtain ⟨⟨hlow, hhigh⟩, hrest⟩ := h
      rw [hqs] at hsuffix
      simp only [inRanges, List.any_cons, Bool.or_eq_true, Bool.and_eq_true,
        decide_eq_true_eq] at hc
      rcases hc with ⟨hlow', hhigh'⟩ | hc
      · refine List.any_eq_true.mpr ⟨q, hsuffix.subset (List.mem_cons_self ..), ?_⟩
        simp only [Bool.and_eq_true, decide_eq_true_eq]
        omega
      · obtain ⟨p, hp, hpc⟩ := List.any_eq_true.mp (ih hrest hc)
        exact List.any_eq_true.mpr ⟨p, hsuffix.subset hp, hpc⟩

/-- What may begin an identifier may follow in one. -/
theorem isIdentRest_of_isIdentStart {c : Char} (h : isIdentStart c = true) :
    isIdentRest c = true := by
  have htables : rangesWithin xidStartRanges xidContinueRanges = true := by decide +kernel
  unfold isIdentStart at h
  unfold isIdentRest
  split at h
  · next hascii =>
    rw [if_pos hascii, Char.isAlphanum]
    rcases Bool.or_eq_true_iff.mp h with h | h
    · rw [h]
      rfl
    · rw [h, Bool.or_true]
  · next hascii =>
    rw [if_neg hascii]
    exact inRanges_of_rangesWithin htables h

end Text

/-- What the kinds of the tokens of a source are like. -/
def TokenKind.Lexed : TokenKind → Prop
  | ident name => Lexer.IsWord name ∧ Lexer.wordKind name = ident name
  | float x => x.isFinite = true ∧ x.negative = false
  | _ => True

namespace Lexer

theorem textFrom_kind {state : TextState} {n : Nat} {value cs : List Char} {kind : TokenKind}
    {extra : Nat} (h : textFrom state n value cs = .ok (kind, extra)) : ∃ s, kind = .text s := by
  fun_induction textFrom state n value cs <;> grind

theorem number_kind {cs : List Char} {kind : TokenKind} {extra : Nat}
    (h : number cs = .ok (kind, extra)) :
    (∃ n, kind = .nat n) ∨ ∃ x, kind = .float x ∧ x.isFinite = true ∧ x.negative = false := by
  have hsign : ∀ whole fraction down ds,
      (Double.ofDigits whole fraction down ds).negative = false := by
    intro whole fraction down ds
    exact Double.negative_ofDecimal _ _
  unfold number at h
  grind

theorem lexed_wordKind {w : String} (hw : IsWord w) : (wordKind w).Lexed := by
  have hident : ∀ name, wordKind w = .ident name → name = w := by
    intro name h
    unfold wordKind at h
    grind
  have hfloat : ∀ x, wordKind w ≠ .float x := by
    intro x
    unfold wordKind
    grind
  cases hk : wordKind w with
  | ident name =>
    obtain rfl := hident name hk
    exact ⟨hw, hk⟩
  | float x => exact absurd hk (hfloat x)
  | _ => trivial

theorem lexed_of_scan {c : Char} {rest : List Char} {kind : TokenKind} {extra : Nat}
    (hspace : Text.isSpace c = false) (h : scan c rest = .ok (kind, extra)) : kind.Lexed := by
  unfold scan at h
  split_ifs at h with _ _ _ hdigit hstart
  · cases h
    trivial
  · split at h <;> cases h
    trivial
  · obtain ⟨s, rfl⟩ := textFrom_kind h
    trivial
  · rcases number_kind h with ⟨n, rfl⟩ | ⟨x, rfl, hx⟩
    · trivial
    · exact hx
  · cases h
    have hfirst : (c :: rest).takeWhile Text.isIdentRest = c :: rest.takeWhile Text.isIdentRest :=
      List.takeWhile_cons_of_pos (Text.isIdentRest_of_isIdentStart hstart)
    refine lexed_wordKind ⟨?_, ?_, ?_⟩
    · simp [hfirst]
    · rw [String.toList_ofList]
      exact fun ch hch => List.mem_takeWhile_imp hch
    · rw [String.toList_ofList, hfirst]
      rintro _ ⟨⟩
      exact ⟨hspace, by simpa using hdigit, hstart⟩
  · split at h <;> cases h
    trivial

theorem lexed_of_next {keep : Bool} {c c' : Cursor} {t : Token}
    (h : next keep c = .ok (t, c')) : t.kind.Lexed := by
  fun_induction next keep c with
  | case1 c here hr =>
    rw [← (Prod.mk.inj (Except.ok.inj h)).1]
    trivial
  | case2 => cases h
  | case3 c here ch rest hr kind extra hs hk ih => exact ih h
  | case4 c here ch rest hr kind extra hs hk =>
    rw [← (Prod.mk.inj (Except.ok.inj h)).1]
    refine lexed_of_scan ?_ hs
    have hsplit : c.rest = c.rest.takeWhile Text.isSpace ++ c.rest.dropWhile Text.isSpace :=
      List.takeWhile_append_dropWhile.symm
    have hdrop : here.rest = c.rest.dropWhile Text.isSpace :=
      (congrArg (List.drop _) hsplit).trans List.drop_left
    have hfirst := List.head?_dropWhile_not Text.isSpace c.rest
    rw [← hdrop, hr] at hfirst
    simpa using hfirst

theorem lexed_of_mem_tokensFrom {keep : Bool} {c : Cursor} {t : Token}
    (h : t ∈ (tokensFrom keep c).1) : t.kind.Lexed := by
  fun_induction tokensFrom keep c with
  | case1 => cases h
  | case2 c u c' hnext =>
    rw [List.mem_singleton.mp h]
    exact lexed_of_next hnext
  | case3 c u c' hnext _ more ih =>
    rcases List.mem_cons.mp h with rfl | h
    · exact lexed_of_next hnext
    · exact ih h

theorem tokensFrom_of_tokenize {source : String} {ts : List Token} (h : tokenize source = .ok ts) :
    (tokensFrom false (.ofSource source)).1 = ts ∧
      (tokensFrom false (.ofSource source)).2 = none := by
  unfold tokenize at h
  split at h
  · next hts =>
    cases h
    rw [hts]
    exact ⟨rfl, rfl⟩
  · cases h

theorem lexed_of_mem_tokenize {source : String} {ts : List Token} {t : Token}
    (h : tokenize source = .ok ts) (ht : t ∈ ts) : t.kind.Lexed :=
  lexed_of_mem_tokensFrom (by rwa [(tokensFrom_of_tokenize h).1])

end Lexer
end Attest
