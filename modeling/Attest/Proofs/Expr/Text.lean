import Attest.Proofs.Expr.Spelling
import Attest.Proofs.Literal.Text
import Attest.Proofs.Outcome

/-!
Expressions and their texts.

The text of an expression has every operator in parentheses, so that it spells the expression
whatever the levels of the operators are.  Only a minus in front of an operand could run into it,
and no operand's text begins with one.
-/

namespace Attest

namespace Lexer

variable {cs ds : List Char} {ks ls ms : List TokenKind} {tail : List Char}

/-- The words of operators and tests, with the tokens they are read as. -/
def reserved : List (String × TokenKind) :=
  [("OR", .keyword .OR), ("AND", .keyword .AND), ("NOT", .keyword .NOT), ("IS", .keyword .IS),
   ("NULL", .null)]

theorem isWord_reserved {w : String} {k : TokenKind} (hw : (w, k) ∈ reserved) :
    IsWord w ∧ wordKind w = k := by
  have hkinds : ∀ p ∈ reserved, wordKind p.1 = p.2 := by decide +kernel
  refine ⟨?_, hkinds _ hw⟩
  simp only [reserved, List.mem_cons, Prod.mk.injEq, List.not_mem_nil, or_false] at hw
  unfold IsWord
  rcases hw with ⟨rfl, -⟩ | ⟨rfl, -⟩ | ⟨rfl, -⟩ | ⟨rfl, -⟩ | ⟨rfl, -⟩ <;> simp <;> decide

theorem reads_reserved {w : String} {k : TokenKind} (hw : (w, k) ∈ reserved) (h : Reads tail ms) :
    Reads (w.toList ++ ' ' :: tail) (k :: ms) := by
  obtain ⟨hword, hk⟩ := isWord_reserved hw
  rw [← hk]
  exact reads_word hword (by rintro _ ⟨⟩; decide) (reads_space (by decide) h)

theorem reads_binary (op : BinaryOp) (h : Reads tail ms) :
    Reads (op.name.toList ++ ' ' :: tail) (op.kind :: ms) := by
  cases op with
  | or => exact reads_reserved (w := "OR") (k := .keyword .OR) (by simp [reserved]) h
  | and => exact reads_reserved (w := "AND") (k := .keyword .AND) (by simp [reserved]) h
  | _ => exact reads_scan (by decide) rfl rfl (by simp [BinaryOp.kind]) (reads_space (by decide) h)

theorem readsAs_between {w : List Char} {k : TokenKind}
    (hw : ∀ {tail ms}, Reads tail ms → Reads (w ++ ' ' :: tail) (k :: ms)) (hl : ReadsAs cs ks)
    (hr : ReadsAs ds ls) : ReadsAs (cs ++ ' ' :: (w ++ ' ' :: ds)) (ks ++ k :: ls) := by
  intro tail ms hdelimits htail
  have hword := reads_space (c := ' ') (by decide) (hw (hr _ _ hdelimits htail))
  simpa using hl _ _ (delimits_cons (by decide) _) hword

theorem readsAs_binary (op : BinaryOp) (hl : ReadsAs cs ks) (hr : ReadsAs ds ls) :
    ReadsAs (cs ++ ' ' :: (op.name.toList ++ ' ' :: ds)) (ks ++ op.kind :: ls) :=
  readsAs_between (reads_binary op) hl hr

theorem readsAs_isNull (negated : Bool) (h : ReadsAs cs ks) :
    ReadsAs (cs ++ ' ' :: ("IS".toList ++ ' ' :: ((if negated then "NOT".toList ++ [' '] else []) ++
      "NULL".toList))) (ks ++ Expr.nullKinds negated) := by
  intro tail ms hdelimits htail
  have hnull : Reads ("NULL".toList ++ tail) (.null :: ms) := by
    obtain ⟨hword, hk⟩ := isWord_reserved (w := "NULL") (k := .null) (by simp [reserved])
    have := readsAs_word hword tail ms hdelimits htail
    rwa [hk] at this
  have htest : Reads ((if negated then "NOT".toList ++ [' '] else []) ++ ("NULL".toList ++ tail))
      ((if negated then [.keyword .NOT, .null] else [.null]) ++ ms) := by
    cases negated with
    | true => exact reads_reserved (w := "NOT") (by simp [reserved]) hnull
    | false => exact hnull
  have his := reads_reserved (w := "IS") (k := .keyword .IS) (by simp [reserved]) htest
  have hall := h _ _ (delimits_cons (by decide) _) (reads_space (c := ' ') (by decide) his)
  simpa [Expr.nullKinds] using hall

/-- A prefix operator before an operand that does not begin with a minus. -/
theorem readsAs_unary (op : UnaryOp) (h : ReadsAs cs ks) (hfirst : ∀ c ∈ cs.head?, c ≠ '-') :
    ReadsAs ((match op with | .not => "NOT ".toList | op => op.name.toList) ++ cs)
      (op.kind :: ks) := by
  intro tail ms hdelimits htail
  have hoperand := h _ _ hdelimits htail
  cases op with
  | not => exact reads_reserved (w := "NOT") (k := .keyword .NOT) (by simp [reserved]) hoperand
  | plus => exact reads_symbol (c := '+') (by simp) hoperand
  | neg =>
    refine reads_minus ?_ hoperand
    intro c hc
    cases cs with
    | nil =>
      have hmem := hdelimits c hc
      rintro rfl
      exact absurd hmem (by decide)
    | cons d cs => exact hfirst c hc

end Lexer

namespace Expr

open Lexer (ReadsAs)

/-- The text of an expression spells it. -/
structure Written (e : Expr) : Prop where
  spelled : ∃ d ks, Spelled d 12 ks e ∧ ReadsAs e.render.toList ks
  unsigned : ∀ c ∈ e.render.toList.head?, c ≠ '-'

/-- An operator in parentheses. -/
theorem written_of_parens {d l : Nat} {ks : List TokenKind} {e : Expr} {cs : List Char}
    (htext : e.render.toList = '(' :: (cs ++ [')'])) (h : Spelled d l ks e)
    (hreads : ReadsAs cs ks) : Written e where
  spelled := by
    refine ⟨d + 1, _, .parens h, ?_⟩
    rw [htext]
    exact Lexer.readsAs_enclosed hreads (by decide) (by decide) (by decide)
  unsigned := by
    rw [htext]
    rintro _ ⟨⟩
    decide

theorem unsigned_of_startsLiteral {d : Nat} {k : TokenKind} {ks : List TokenKind} {v : Literal}
    (h : Literal.Spelled d (k :: ks) v) (hk : startsLiteral k = true) (hlexed : k.Lexed) :
    v.isSigned = false := by
  cases h with
  | token h =>
    cases k <;> cases h <;> first | rfl | exact hlexed.2
  | minus | plus => cases hk
  | vector | record => rfl

/-- An expression that is spelled by tokens of a source is spelled by its text. -/
theorem written_of_spelled {d l : Nat} {ks : List TokenKind} {e : Expr} (h : Spelled d l ks e)
    (hks : ∀ k ∈ ks, k.Lexed) : Written e := by
  induction h with
  | @column _ name _ =>
    have hname := hks (.ident name) (by simp)
    refine ⟨⟨1, [.ident name], .column, ?_⟩, ?_⟩
    · have := Lexer.readsAs_word hname.1
      rwa [hname.2] at this
    · rintro c hc rfl
      cases (hname.1.2.2 _ hc).2.2
  | @literal _ k _ v _ hk h =>
    have hwritten := Literal.written_of_spelled h hks
    have hsign := unsigned_of_startsLiteral h hk (hks k (by simp))
    obtain ⟨d, ks, hspelled, hreads, hstart⟩ := hwritten.spelled
    obtain ⟨k, ks, rfl, hk⟩ := hstart hsign
    exact ⟨⟨d + 1, _, .literal hk hspelled, hreads⟩, hwritten.unsigned hsign⟩
  | parens _ ih => exact ih fun k hk => hks k (List.mem_cons_of_mem _ (List.mem_append_left _ hk))
  | @unary _ _ _ e op p _ _ ih =>
    have hwritten := ih fun k hk => hks k (List.mem_cons_of_mem _ hk)
    obtain ⟨d, ks, hspelled, hreads⟩ := hwritten.spelled
    have hlevel := unary_level_le op
    refine written_of_parens ?_ (.unary hspelled (by omega))
      (Lexer.readsAs_unary op hreads hwritten.unsigned)
    cases op <;> simp [render, prefixed, UnaryOp.name]
  | @isNull _ _ _ e negated p _ _ ih =>
    obtain ⟨d, ks, hspelled, hreads⟩ := (ih fun k hk => hks k (List.mem_append_left _ hk)).spelled
    refine written_of_parens ?_ (.isNull hspelled.succ (by omega))
      (Lexer.readsAs_isNull negated hreads)
    cases negated <;> simp [render, nullTest]
  | @binary _ _ _ _ _ l r op p _ _ _ _ ihl ihr =>
    obtain ⟨d, ks, hspelled, hreads⟩ := (ihl fun k hk => hks k (List.mem_append_left _ hk)).spelled
    obtain ⟨d', ks', hspelled', hreads'⟩ := (ihr fun k hk =>
      hks k (List.mem_append_right _ (List.mem_cons_of_mem _ hk))).spelled
    have hleft := leftLevel_le op
    have hright := rightLevel_le op
    have hbinary : Spelled (max d d' + 1) op.level (ks ++ op.kind :: ks') (binary op l r p) :=
      .binary (hspelled.weaken (by omega)) (by omega) (hspelled'.weaken (by omega)) (by omega)
    refine written_of_parens ?_ hbinary (Lexer.readsAs_binary op hreads hreads')
    simp [render]

/-- Every expression that is parsed from a source prints to a source of its own: this is parsed
whole, to the same expression, under every limit of nesting from some depth on. -/
theorem render_reparses {source : String} {ts : List Token} {limit : Nat} {e : Expr}
    {s : TokenStream} (hts : Lexer.tokenize source = .ok ts)
    (h : parser limit (TokenStream.ofTokens ts) = .ok e s) :
    ∃ ts' depth, Lexer.tokenize e.render = .ok ts' ∧ ∀ limit', depth ≤ limit' →
      ∃ e' s', parser limit' (TokenStream.ofTokens ts') = .ok e' s' ∧ s'.rest = [] ∧
        e'.bare = e.bare := by
  obtain ⟨l, ks, hpass, hspelled, -⟩ :=
    sound_parserAt 0 _ _ _ (Nat.zero_le _) (TokenStream.last_ofTokens ts) h
  have hlexed : ∀ k ∈ ks, k.Lexed := by
    intro k hk
    obtain ⟨t, ht, rfl⟩ := hpass.exists_mem hk
    exact Lexer.lexed_of_mem_tokenize hts (TokenStream.mem_of_mem_ofTokens ht)
  obtain ⟨d, ks', hspelled', hreads⟩ := (written_of_spelled hspelled hlexed).spelled
  have hread := hreads [] [] (by rintro _ ⟨⟩) Lexer.reads_nil
  rw [List.append_nil, List.append_nil] at hread
  obtain ⟨ts', last, htokenize, hkinds, hlast, hstream⟩ := TokenStream.ofTokens_of_reads hread
  refine ⟨ts' ++ [last], d, htokenize, fun limit' hlimit => ?_⟩
  have hpass' : TokenStream.Passes ⟨ts', last⟩ ks' ⟨[], last⟩ :=
    ⟨ts', (List.append_nil _).symm, rfl, hkinds⟩
  have hstops : Stops 0 last.kind := by
    rw [hlast]
    exact ⟨by simp, fun op hop => by cases hop⟩
  obtain ⟨e', he, hparse⟩ := parser_of_spelled hspelled' hlimit hpass' hstops
  exact ⟨e', _, hstream ▸ hparse, rfl, he⟩

/-- Signs that are doubled or part of a literal, and an escape. -/
theorem render_reparses_signs :
    ∃ ts e s,
      Lexer.tokenize "NOT - -x ^ [-9223372036854775808, - -0.0] OR \"\\0\" IS NULL" = .ok ts ∧
      parser 64 (TokenStream.ofTokens ts) = .ok e s ∧
      e.render = "((NOT ((-(-x)) ^ [-9223372036854775808, 0.0])) OR (\"\\0\" IS NULL))" ∧
      ∃ ts' depth, Lexer.tokenize e.render = .ok ts' ∧ ∀ limit', depth ≤ limit' →
        ∃ e' s', parser limit' (TokenStream.ofTokens ts') = .ok e' s' ∧ s'.rest = [] ∧
          e'.bare = e.bare := by
  have hrun : ((parser 64).parseText
      "NOT - -x ^ [-9223372036854775808, - -0.0] OR \"\\0\" IS NULL").toOption.any
        (·.render == "((NOT ((-(-x)) ^ [-9223372036854775808, 0.0])) OR (\"\\0\" IS NULL))") := by
    decide +kernel
  obtain ⟨e, he, hrender⟩ := Outcome.exists_of_any_toOption hrun
  obtain ⟨ts, s, hts, hparse⟩ := Parser.parseText_eq_ok he
  exact ⟨ts, e, s, hts, hparse, eq_of_beq hrender, render_reparses hts hparse⟩

end Expr
end Attest
