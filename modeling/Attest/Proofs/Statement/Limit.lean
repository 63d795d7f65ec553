import Attest.Proofs.Expr.Spelling
import Attest.Proofs.Outcome
import Attest.Proofs.Statement.Clauses
import Attest.Proofs.Ty.Text

/-!
What the limit of nesting changes.

The levels that are left are an argument of every parser that calls itself, so a level is given
back wherever a phrase ends, and also where it fails.  Under a higher limit the same parser
therefore replies the same, unless it has run out of levels.  That error is never lost on the way
out: the only choices of the grammar begin with a word or a symbol that no nesting stands before,
so by the time a level can be missing a token has been taken and the choice is made.
-/

namespace Attest

theorem Token.ne_eof_of_ite {k : TokenKind} {t u : Token} (hk : k ≠ .eof)
    (h : (if t.kind == k then some t else none) = some u) : t.kind ≠ .eof := by
  split at h
  · next hkind =>
    rw [eq_of_beq hkind]
    exact hk
  · cases h

namespace Reply

variable {α : Type} {limit : Nat} {s t : TokenStream} {r : Reply α}

theorem Behind.of_passes {ks : List TokenKind} (hpass : s.Passes ks t)
    (h : r.Behind (fun _ => True) t) : r.Behind (fun _ => True) s := by
  cases h with
  | ok h _ => exact .ok (hpass.trans h) fun _ _ => trivial
  | fail h => exact .fail (hpass.trans h)

/-- The reply under a limit, and the reply under a higher one.  The two are the same, unless the
first is that no level is left. -/
inductive Raised (limit : Nat) (s : TokenStream) : Reply α → Reply α → Prop where
  | same {r : Reply α} (h : r.Behind (fun _ => True) s) : Raised limit s r r
  | spent {e : ParseError} {t : TokenStream} {ks : List TokenKind} {r : Reply α}
      (h : s.Passes ks t) (he : e.IsTooDeep limit) : Raised limit s (.fail e t) r

theorem Raised.of_passes {ks : List TokenKind} {r' : Reply α} (hpass : s.Passes ks t)
    (h : r.Raised limit t r') : r.Raised limit s r' := by
  cases h with
  | same h => exact .same (h.of_passes hpass)
  | spent h he => exact .spent (hpass.trans h) he

end Reply

namespace Parser

variable {α β : Type} {limit : Nat} {p q : Parser α} {f g : α → Parser β}

/-- A parser replies as another does, unless no level is left to it of a limit. -/
def Raises (limit : Nat) (p q : Parser α) : Prop :=
  ∀ s, s.Ends → (p s).Raised limit s (q s)

namespace Raises

/-- A parser that knows of no limit. -/
theorem of_takes {P : TokenKind → Prop} (h : Takes P p) : Raises limit p p :=
  fun s _ => .same (h s).any

theorem pure (a : α) : Raises limit (Pure.pure a : Parser α) (Pure.pure a) :=
  of_takes (Takes.pure (P := fun _ => True) a)

theorem fail (e : ParseError) : Raises limit (Parser.fail e : Parser α) (Parser.fail e) :=
  of_takes (Takes.fail (P := fun _ => True) e)

theorem unexpected (expected : List String) :
    Raises limit (Parser.unexpected expected : Parser α) (Parser.unexpected expected) :=
  of_takes (Takes.unexpected (P := fun _ => True) expected)

theorem refuse (expected : List String) (note : String) :
    Raises limit (Parser.refuse expected note : Parser α) (Parser.refuse expected note) :=
  of_takes (Takes.refuse (P := fun _ => True) expected note)

theorem stream : Raises limit Parser.stream Parser.stream :=
  of_takes (Takes.stream (P := fun _ => True))

theorem takeSymbol (o : Symbol) : Raises limit (Parser.takeSymbol o) (Parser.takeSymbol o) :=
  of_takes (Takes.takeSymbol (P := fun _ => True) trivial)

theorem takeKeyword (k : Keyword) : Raises limit (Parser.takeKeyword k) (Parser.takeKeyword k) :=
  of_takes (Takes.takeKeyword (P := fun _ => True) trivial)

theorem expect (what : String) (f : Token → Option α) :
    Raises limit (Parser.expect what f) (Parser.expect what f) :=
  of_takes (Takes.expect (P := fun _ => True) fun _ _ _ => trivial)

theorem symbol (o : Symbol) : Raises limit (Parser.symbol o) (Parser.symbol o) := expect _ _

theorem keyword (k : Keyword) : Raises limit (Parser.keyword k) (Parser.keyword k) := expect _ _

theorem tooDeep : Raises limit (Parser.tooDeep limit) q :=
  fun s _ => .spent (.refl s) ⟨rfl, rfl⟩

theorem bind (hp : Raises limit p q) (hf : ∀ a, Raises limit (f a) (g a)) :
    Raises limit (p >>= f) (q >>= g) := by
  intro s hs
  show (Parser.bind p f s).Raised limit s (Parser.bind q g s)
  unfold Parser.bind
  have hreply := hp s hs
  generalize p s = r at hreply
  generalize q s = r' at hreply
  cases hreply with
  | same h =>
    cases h with
    | ok h _ => exact (hf _ _ (h.ends hs)).of_passes h
    | fail h => exact .same (.fail h)
  | spent h he => exact .spent h he

theorem map {h : α → β} (hp : Raises limit p q) : Raises limit (h <$> p) (h <$> q) :=
  hp.bind fun _ => .pure _

theorem advance_bind {f g : Token → Parser β} (hf : ∀ t, Raises limit (f t) (g t)) :
    Raises limit (advance >>= f) (advance >>= g) := by
  intro s hs
  obtain ⟨ks, hpass, -⟩ := TokenStream.Passes.exists_skip s
  exact (hf s.peek s.skip (hpass.ends hs)).of_passes hpass

theorem itemsUpTo {separator : Symbol} (hp : Raises limit p q) (n : Nat) :
    Raises limit (Parser.itemsUpTo separator p n) (Parser.itemsUpTo separator q n) := by
  induction n with
  | zero => exact .pure []
  | succ n ih =>
    refine .bind (.takeSymbol separator) fun more => ?_
    cases more with
    | true => exact hp.bind fun _ => ih.bind fun _ => .pure _
    | false => exact .pure []

theorem sepBy {separator : Symbol} (hp : Raises limit p q) :
    Raises limit (Parser.sepBy separator p) (Parser.sepBy separator q) :=
  hp.bind fun _ => .bind .stream fun _ => (hp.itemsUpTo _).bind fun _ => .pure _

/-- A phrase that may be missing begins with a token of its own.  Once that is taken, a failure
behind it is no longer passed over. -/
theorem optional {what : String} {first : Token → Option α}
    (hfirst : ∀ t a, first t = some a → t.kind ≠ .eof) (hf : ∀ a, Raises limit (f a) (g a)) :
    Raises limit (Parser.optional (Parser.expect what first >>= f))
      (Parser.optional (Parser.expect what first >>= g)) := by
  intro s hs
  unfold Parser.optional
  cases hvalue : first s.peek with
  | none =>
    have hexpect : Parser.expect what first s = .fail (s.unexpected [what]) s := by
      unfold Parser.expect
      rw [hvalue]
    rw [bind_of_fail hexpect, bind_of_fail hexpect]
    dsimp only
    rw [if_pos (beq_self_eq_true _)]
    exact .same (.ok (.refl s) (by simp))
  | some a =>
    have hexpect : Parser.expect what first s = .ok a s.skip := expect_eq_ok.mpr ⟨hvalue, rfl⟩
    rw [bind_of_ok hexpect, bind_of_ok hexpect]
    have hskip := TokenStream.Passes.skip hs rfl (hfirst _ _ hvalue)
    have htaken {ks : List TokenKind} {t : TokenStream} (h : s.skip.Passes ks t) :
        (t.rest.length == s.rest.length) = false := by
      have hlength := hskip.length_skip
      have hrest := h.length_eq
      exact beq_eq_false_iff_ne.mpr (by omega)
    have hreply := hf a s.skip (hskip.ends hs)
    generalize f a s.skip = r at hreply
    generalize g a s.skip = r' at hreply
    cases hreply with
    | same h =>
      cases h with
      | ok h _ => exact .same (.ok (hskip.trans h) (by simp))
      | fail h =>
        dsimp only
        rw [htaken h]
        exact .same (.fail (hskip.trans h))
    | spent h he =>
      dsimp only
      rw [htaken h]
      exact .spent (hskip.trans h) he

end Raises
end Parser

variable {limit limit' d d' : Nat}

namespace Literal

theorem raises_parserAt (h : d ≤ d') :
    Parser.Raises limit (parserAt limit d) (parserAt limit' d') := by
  induction d generalizing d' with
  | zero => exact .tooDeep
  | succ d ih =>
    obtain ⟨d', rfl⟩ : ∃ j, d' = j + 1 := ⟨d' - 1, by omega⟩
    have ih := ih (Nat.le_of_succ_le_succ h)
    unfold parserAt
    refine .advance_bind fun t => ?_
    cases ofToken? t.kind with
    | some l => exact .pure l
    | none =>
      dsimp only
      generalize t.kind = k
      cases k with
      | symbol o =>
        cases o with
        | minus =>
          refine ih.bind fun l => ?_
          cases l.negate? with
          | some m => exact .pure m
          | none => exact .fail _
        | plus =>
          refine ih.bind fun l => ?_
          cases l.isNumber with
          | true => exact .pure l
          | false => exact .fail _
        | lbracket =>
          refine .bind (.takeSymbol .rbracket) fun closed => ?_
          cases closed with
          | true => exact .pure _
          | false => exact ih.sepBy.bind fun _ => .bind (.symbol .rbracket) fun _ => .pure _
        | lbrace =>
          refine .bind (.sepBy ?_) fun _ => .bind (.symbol .rbrace) fun _ => .pure _
          exact .bind (.of_takes Parser.takes_ident) fun _ => .bind (.symbol .colon) fun _ =>
            ih.bind fun _ => .pure _
        | _ => exact .fail _
      | _ => exact .fail _

end Literal

namespace Ty

theorem raises_pairParser {α β : Type} {first first' : Parser α} {second : Parser β}
    {P : TokenKind → Prop} (hfirst : Parser.Raises limit first first')
    (hsecond : Parser.Takes P second) :
    Parser.Raises limit (pairParser first second) (pairParser first' second) :=
  .bind (.symbol .lparen) fun _ => hfirst.bind fun _ => .bind (.symbol .comma) fun _ =>
    .bind (.of_takes hsecond) fun _ => .bind (.symbol .rparen) fun _ => .pure _

theorem raises_parserAt (h : d ≤ d') :
    Parser.Raises limit (parserAt limit d) (parserAt limit' d') := by
  induction d generalizing d' with
  | zero => exact .tooDeep
  | succ d ih =>
    obtain ⟨d', rfl⟩ : ∃ j, d' = j + 1 := ⟨d' - 1, by omega⟩
    have ih := ih (Nat.le_of_succ_le_succ h)
    refine .bind (.expect _ _) fun category => ?_
    cases category with
    | boundedNat =>
      exact .bind (raises_pairParser (.of_takes Parser.takes_natural) Parser.takes_natural)
        fun _ => .pure _
    | boundedFloat =>
      exact .bind (raises_pairParser (.of_takes takes_boundParser) takes_boundParser)
        fun _ => .pure _
    | vector => exact .bind (raises_pairParser ih Parser.takes_natural) fun _ => .pure _
    | _ => exact .pure _

end Ty

namespace Expr

theorem raises_operations {operand operand' : Nat → Parser Expr}
    (h : ∀ least, Parser.Raises limit (operand least) (operand' least)) (least n : Nat)
    (e : Expr) :
    Parser.Raises limit (operations operand least n e) (operations operand' least n e) := by
  induction n generalizing e with
  | zero => exact .pure e
  | succ n ih =>
    refine .bind (.of_takes (takes_binaryParser least)) fun found => ?_
    cases found with
    | none => exact .pure e
    | some found => exact (h _).bind fun _ => ih _

theorem raises_leaf {literal literal' : Parser Literal} {inner inner' : Parser Expr}
    (hliteral : Parser.Raises limit literal literal') (hinner : Parser.Raises limit inner inner') :
    Parser.Raises limit (leaf literal inner) (leaf literal' inner') := by
  refine .bind .stream fun s => ?_
  generalize s.peek = t
  dsimp only
  generalize t.kind = k
  cases k with
  | ident name => exact .advance_bind fun _ => .pure _
  | symbol o =>
    cases o with
    | lparen =>
      exact .advance_bind fun _ => hinner.bind fun _ => .bind (.symbol .rparen) fun _ => .pure _
    | lbracket => exact hliteral.bind fun _ => .pure _
    | lbrace => exact hliteral.bind fun _ => .pure _
    | _ => exact .unexpected _
  | nat | float | text | bool | null => exact hliteral.bind fun _ => .pure _
  | _ => exact .unexpected _

theorem raises_parserAt (h : d ≤ d') (least : Nat) :
    Parser.Raises limit (parserAt limit d least) (parserAt limit' d' least) := by
  induction d generalizing d' least with
  | zero => exact .tooDeep
  | succ d ih =>
    obtain ⟨d', rfl⟩ : ∃ j, d' = j + 1 := ⟨d' - 1, by omega⟩
    have ih := ih (Nat.le_of_succ_le_succ h)
    -- what follows the first operand is parsed on the same level
    have hrest (first : Expr) : Parser.Raises limit
        (Parser.stream >>= fun u => behind limit d least u.rest.length first)
        (Parser.stream >>= fun u => behind limit' d' least u.rest.length first) :=
      .bind .stream fun _ => .bind (.of_takes (takes_nullTests _ _)) fun _ => .bind .stream fun _ =>
        raises_operations ih _ _ _
    refine .bind (.of_takes (takes_unaryParser least)) fun found => ?_
    cases found with
    | none =>
      exact .bind (raises_leaf (Literal.raises_parserAt (Nat.le_of_succ_le_succ h)) (ih 0)) hrest
    | some found => exact .bind (.map (ih _)) hrest

theorem raises_expression (h : limit ≤ limit') :
    Parser.Raises limit (parser limit) (parser limit') := raises_parserAt h 0

end Expr

namespace Statement

theorem raises_assignmentsParser (h : limit ≤ limit') :
    Parser.Raises limit (assignmentsParser limit) (assignmentsParser limit') :=
  .sepBy <| .bind (.of_takes takes_identParser) fun _ => .bind (.symbol .eq) fun _ =>
    (Expr.raises_expression h).bind fun _ =>
      .bind (.optional (fun _ _ => Token.ne_eof_of_ite (by simp)) fun _ => Ty.raises_parserAt h)
        fun _ => .pure _

theorem raises_whereParser (h : limit ≤ limit') :
    Parser.Raises limit (whereParser limit) (whereParser limit') :=
  .optional (fun _ _ => Token.ne_eof_of_ite (by simp)) fun _ => Expr.raises_expression h

theorem raises_insertParser (h : limit ≤ limit') :
    Parser.Raises limit (insertParser limit) (insertParser limit') :=
  .bind (.keyword .INSERT) fun _ => .bind (.keyword .INTO) fun _ =>
    .bind (.of_takes takes_identParser) fun _ => .bind (.keyword .SET) fun _ =>
      (raises_assignmentsParser h).bind fun _ => .bind (.of_takes takes_provenanceParser) fun _ =>
        .pure _

theorem raises_selectParser (h : limit ≤ limit') :
    Parser.Raises limit (selectParser limit) (selectParser limit') :=
  .bind (.keyword .SELECT) fun _ => .bind (.of_takes takes_projectionParser) fun _ =>
    .bind (.keyword .FROM) fun _ => .bind (.of_takes takes_identParser) fun _ =>
      (raises_whereParser h).bind fun _ => .bind (.of_takes takes_orderByParser) fun _ =>
        .bind (.of_takes takes_limitParser) fun _ => .pure _

theorem raises_updateParser (h : limit ≤ limit') :
    Parser.Raises limit (updateParser limit) (updateParser limit') :=
  .bind (.keyword .UPDATE) fun _ => .bind (.of_takes takes_identParser) fun _ =>
    .bind (.keyword .SET) fun _ => (raises_assignmentsParser h).bind fun _ =>
      (raises_whereParser h).bind fun _ => .bind (.of_takes (takes_reasonedParser _)) fun _ =>
        .pure _

theorem raises_deleteParser (h : limit ≤ limit') :
    Parser.Raises limit (deleteParser limit) (deleteParser limit') := by
  refine .bind (.keyword .DELETE) fun _ => .bind (.keyword .FROM) fun _ =>
    .bind (.of_takes takes_identParser) fun _ => (raises_whereParser h).bind fun condition => ?_
  cases condition with
  | none => exact .refuse _ _
  | some e => exact .bind (.of_takes (takes_reasonedParser _)) fun _ => .pure _

theorem raises_normalizeParser : Parser.Raises limit normalizeParser normalizeParser := by
  refine .bind (.keyword .NORMALIZE) fun _ => .bind (.of_takes takes_identParser) fun _ =>
    .bind (.takeKeyword .TO) fun named => ?_
  cases named with
  | true =>
    exact .bind (.map (.of_takes takes_normalFormParser)) fun _ =>
      .bind (.of_takes (takes_reasonedParser _)) fun _ => .pure _
  | false =>
    exact .bind (.pure none) fun _ => .bind (.of_takes (takes_reasonedParser _)) fun _ => .pure _

theorem raises_bodyParser (h : limit ≤ limit') :
    Parser.Raises limit (bodyParser limit) (bodyParser limit') := by
  refine .bind .stream fun s => ?_
  generalize s.peek.kind = k
  cases k with
  | keyword w =>
    cases w with
    | INSERT => exact raises_insertParser h
    | SELECT => exact raises_selectParser h
    | UPDATE => exact raises_updateParser h
    | DELETE => exact raises_deleteParser h
    | NORMALIZE => exact raises_normalizeParser
    | _ => exact .unexpected _
  | _ => exact .unexpected _

theorem raises_statement (h : limit ≤ limit') :
    Parser.Raises limit (parser limit) (parser limit') := by
  refine (raises_bodyParser h).bind fun st => .bind (.takeSymbol .semicolon) fun _ =>
    .bind .stream fun s => ?_
  cases s.isAtEnd with
  | true => exact .pure st
  | false => exact .unexpected _

/-- Under a higher limit of nesting, what was accepted is accepted as the same statement, and what
was refused is refused with the same error, unless it was refused for its nesting. -/
theorem ofTokens_of_le {d d' : Nat} (h : d ≤ d') (ts : List Token) :
    (∀ st, ofTokens d ts = .ok st → ofTokens d' ts = .ok st) ∧
      ∀ e, ofTokens d ts = .error e → ¬ e.IsTooDeep (max d 1) → ofTokens d' ts = .error e := by
  have hlimit : max d 1 ≤ max d' 1 := by omega
  have hreply := raises_statement hlimit (TokenStream.ofTokens ts) (TokenStream.last_ofTokens ts)
  unfold ofTokens Parser.run
  generalize parser (max d 1) (TokenStream.ofTokens ts) = r at hreply
  generalize parser (max d' 1) (TokenStream.ofTokens ts) = r' at hreply
  cases hreply with
  | same => exact ⟨fun _ hst => hst, fun _ he _ => he⟩
  | spent _ hdeep =>
    constructor
    · intro st hst
      cases hst
    · intro e he hnot
      cases he
      exact absurd hdeep hnot

/-- Five levels are enough for a negation of a comparison, so more make no difference to it, nor to
one whose parenthesis stays open. -/
theorem ofTokens_of_le_negation :
    ∃ ts us st, Lexer.tokenize "SELECT a FROM t WHERE NOT (a = 1)" = .ok ts ∧
      Lexer.tokenize "SELECT a FROM t WHERE NOT (a = 1" = .ok us ∧ 5 ≤ 64 ∧
      ofTokens 5 ts = .ok st ∧ ofTokens 64 ts = .ok st ∧
      ofTokens 5 us = .error ⟨⟨1, 33, 32⟩, ["')'"], "end of input", none⟩ ∧
      ofTokens 64 us = .error ⟨⟨1, 33, 32⟩, ["')'"], "end of input", none⟩ := by
  obtain ⟨ts, hts, h⟩ := Outcome.exists_of_any_toOption
    (x := Lexer.tokenize "SELECT a FROM t WHERE NOT (a = 1)")
    (P := fun ts => (ofTokens 5 ts).toOption.any fun _ => true) (by decide +kernel)
  obtain ⟨st, hst, -⟩ := Outcome.exists_of_any_toOption h
  obtain ⟨us, hus, h⟩ := Outcome.exists_of_any_toOption
    (x := Lexer.tokenize "SELECT a FROM t WHERE NOT (a = 1")
    (P := fun us => decide ((fun _ => ()) <$> ofTokens 5 us =
      .error ⟨⟨1, 33, 32⟩, ["')'"], "end of input", none⟩)) (by decide +kernel)
  have herror := Outcome.map_eq_error.mp (of_decide_eq_true h)
  exact ⟨ts, us, st, hts, hus, by decide, hst, (ofTokens_of_le (by decide) ts).1 st hst, herror,
    (ofTokens_of_le (by decide) us).2 _ herror (by simp [ParseError.IsTooDeep])⟩

end Statement
end Attest
