import Attest.Statement.Parser
import Attest.Proofs.Token.Lexing
import Attest.Proofs.Token.Taking

/-!
Who and why, in the source.

A statement ends with the clauses about its origin, and the words that these begin with are
reserved: no token before them is one, in an expression, a type or a list of columns.  So what a
statement says about its origin can be read off its tokens without the grammar.  It is the text that
comes right behind the word.
-/

namespace Attest

/-- The kinds of tokens of which a statement is made up to the clauses about its origin. -/
def TokenKind.IsBody (k : TokenKind) : Prop := k ≠ .keyword .ACTOR ∧ k ≠ .keyword .RATIONALE

instance : DecidablePred TokenKind.IsBody := fun _ => inferInstanceAs (Decidable (_ ∧ _))

open TokenKind (IsBody)

section Body

theorem Parser.takes_ident : Parser.Takes IsBody Parser.ident := .ident (by simp [IsBody])

theorem Parser.takes_natural : Parser.Takes IsBody Parser.natural := .natural (by simp [IsBody])

theorem Literal.takes_parserAt (limit d : Nat) :
    Parser.Takes IsBody (Literal.parserAt limit d) := by
  induction d with
  | zero => exact .refuse _ _
  | succ d ih =>
    unfold parserAt
    refine .advance_bind (fun t => ?_) ?_
    · split
      · exact .pure _
      · split
        · refine .bind ih fun l => ?_
          split
          · exact .pure _
          · exact .fail _
        · refine .bind ih fun l => ?_
          split
          · exact .pure _
          · exact .fail _
        · refine .bind (.takeSymbol (by decide)) fun closed => ?_
          split
          · exact .pure _
          · exact .bind (.sepBy (by decide) ih) fun _ =>
              .bind (.symbol (by decide)) fun _ => .pure _
        · refine .bind (.sepBy (by decide) ?_) fun _ => .bind (.symbol (by decide)) fun _ => .pure _
          exact .bind Parser.takes_ident fun _ => .bind (.symbol (by decide)) fun _ =>
            .bind ih fun _ => .pure _
        · exact .fail _
    · -- the token is taken before it is known to start no literal
      intro t s ht
      have hkind : t.kind = .keyword .ACTOR ∨ t.kind = .keyword .RATIONALE := by
        unfold IsBody at ht
        tauto
      rcases hkind with hk | hk <;> exact ⟨_, by rw [hk]; rfl⟩

namespace Expr

theorem isBody_of_unaryOf? {k : TokenKind} {op : UnaryOp} (h : unaryOf? k = some op) :
    IsBody k := by
  constructor
  · rintro rfl
    cases h
  · rintro rfl
    cases h

theorem isBody_of_binaryOf? {k : TokenKind} {op : BinaryOp} (h : binaryOf? k = some op) :
    IsBody k := by
  constructor
  · rintro rfl
    cases h
  · rintro rfl
    cases h

theorem takes_unaryParser (least : Nat) : Parser.Takes IsBody (unaryParser least) := by
  refine .takeIf fun t op h => ?_
  obtain ⟨op', hop, -⟩ := Option.bind_eq_some_iff.mp h
  exact isBody_of_unaryOf? hop

theorem takes_binaryParser (least : Nat) : Parser.Takes IsBody (binaryParser least) := by
  refine .takeIf fun t op h => ?_
  obtain ⟨op', hop, -⟩ := Option.bind_eq_some_iff.mp h
  exact isBody_of_binaryOf? hop

theorem takes_nullTestParser (p : Position) (e : Expr) :
    Parser.Takes IsBody (nullTestParser p e) := by
  refine .bind (.takeKeyword (by decide)) fun _ => .bind (.expect fun t u h => ?_) fun _ => .pure _
  split at h
  · next hk => exact eq_of_beq hk ▸ (by decide)
  · cases h

theorem takes_nullTests (n : Nat) (e : Expr) : Parser.Takes IsBody (nullTests n e) := by
  induction n generalizing e with
  | zero => exact .pure _
  | succ n ih =>
    refine .bind (.takeIf fun t p h => ?_) fun position => ?_
    · split at h
      · next hk => exact eq_of_beq hk ▸ (by decide)
      · cases h
    · cases position with
      | none => exact .pure _
      | some p => exact .bind (takes_nullTestParser p e) ih

theorem takes_operations {operand : Nat → Parser Expr}
    (hoperand : ∀ least, Parser.Takes IsBody (operand least)) (least n : Nat) (e : Expr) :
    Parser.Takes IsBody (operations operand least n e) := by
  induction n generalizing e with
  | zero => exact .pure _
  | succ n ih =>
    refine .bind (takes_binaryParser least) fun found => ?_
    cases found with
    | none => exact .pure _
    | some found => exact .bind (hoperand _) fun _ => ih _

theorem takes_leaf {literal : Parser Literal} {inner : Parser Expr}
    (hliteral : Parser.Takes IsBody literal) (hinner : Parser.Takes IsBody inner) :
    Parser.Takes IsBody (leaf literal inner) := by
  intro s
  have hother : ∀ k, ((if startsLiteral k then do
        return Expr.literal (← literal) s.peek.position
      else Parser.unexpected ["expression"]) s).Behind IsBody s := by
    intro k
    split
    · exact Parser.Takes.bind hliteral (fun _ => .pure _) s
    · exact Parser.Takes.unexpected _ s
  have hskip : IsBody s.peek.kind → (Parser.advance s).Behind IsBody s := Parser.behind_advance
  rw [leaf, Parser.stream_bind]
  generalize s.peek.kind = k at hskip
  cases k with
  | ident name => exact Parser.behind_bind (hskip (by simp [IsBody])) fun _ => .pure _
  | symbol o =>
    cases o with
    | lparen =>
      exact Parser.behind_bind (hskip (by decide)) fun _ =>
        .bind hinner fun _ => .bind (.symbol (by decide)) fun _ => .pure _
    | _ => exact hother _
  | _ => exact hother _

theorem takes_parserAt (limit d least : Nat) : Parser.Takes IsBody (parserAt limit d least) := by
  induction d generalizing least with
  | zero => exact .refuse _ _
  | succ d ih =>
    unfold parserAt
    refine .bind (takes_unaryParser least) fun found => ?_
    cases found with
    | none =>
      have hleaf := takes_leaf (Literal.takes_parserAt limit d) (ih 0)
      exact .bind hleaf fun _ => .bind .stream fun _ => .bind (takes_nullTests _ _) fun _ =>
        .bind .stream fun _ => takes_operations ih _ _ _
    | some found =>
      exact .bind (.map (ih _)) fun _ => .bind .stream fun _ => .bind (takes_nullTests _ _) fun _ =>
        .bind .stream fun _ => takes_operations ih _ _ _

end Expr

namespace Ty

theorem takes_boundParser : Parser.Takes IsBody boundParser := by
  refine .bind (.takeSymbol (by decide)) fun negative => ?_
  -- with a sign or without, what is left is the number
  cases negative
  case' true => refine .bind (.expect fun t x h => ?_) fun _ => .pure _
  case' false =>
    refine .bind (.takeSymbol (by decide)) fun _ => .bind (.expect fun t x h => ?_) fun _ => .pure _
  all_goals
    split at h
    · next hk => simp [hk, IsBody]
    · next hk => simp [hk, IsBody]
    · cases h

theorem takes_pairParser {α β : Type} {first : Parser α} {second : Parser β}
    (hfirst : Parser.Takes IsBody first) (hsecond : Parser.Takes IsBody second) :
    Parser.Takes IsBody (pairParser first second) :=
  .bind (.symbol (by decide)) fun _ => .bind hfirst fun _ => .bind (.symbol (by decide)) fun _ =>
    .bind hsecond fun _ => .bind (.symbol (by decide)) fun _ => .pure _

theorem takes_parserAt (limit d : Nat) : Parser.Takes IsBody (parserAt limit d) := by
  induction d with
  | zero => exact .refuse _ _
  | succ d ih =>
    refine .bind (.expect fun t c h => ?_) fun category => ?_
    · split at h
      · next hk => simp [hk, IsBody]
      · cases h
    · cases category with
      | boundedNat =>
        exact .bind (takes_pairParser Parser.takes_natural Parser.takes_natural) fun _ => .pure _
      | boundedFloat =>
        exact .bind (takes_pairParser takes_boundParser takes_boundParser) fun _ => .pure _
      | vector => exact .bind (takes_pairParser ih Parser.takes_natural) fun _ => .pure _
      | _ => exact .pure _

end Ty
end Body

/-- A clause as it is written, if it is there. -/
def TokenKind.clause (k : Keyword) : Option String → List TokenKind
  | none => []
  | some s => [.keyword k, .text s]

def ProvenanceClause.kinds (c : ProvenanceClause) : List TokenKind :=
  TokenKind.clause .ACTOR c.actor ++ TokenKind.clause .RATIONALE c.rationale

namespace Statement

def clauseKinds (c : Keyword × String × Position) : List TokenKind :=
  [.keyword (if c.1 = .ACTOR then .ACTOR else .RATIONALE), .text c.2.1]

theorem passes_clauseParser {s t : TokenStream} {c : Keyword × String × Position} (hs : s.Ends)
    (h : clauseParser s = .ok c t) : s.Passes (clauseKinds c) t := by
  obtain ⟨u, _, hstream, h⟩ := Parser.bind_eq_ok.mp h
  cases hstream
  obtain ⟨k, v, hword, h⟩ := Parser.bind_eq_ok.mp h
  obtain ⟨x, w, htext, h⟩ := Parser.bind_eq_ok.mp h
  cases h
  obtain ⟨hk, rfl⟩ := Parser.expect_eq_ok.mp hword
  obtain ⟨hx, rfl⟩ := Parser.expect_eq_ok.mp htext
  clear hword htext
  have hfirst : s.Passes [.keyword (if k = .ACTOR then .ACTOR else .RATIONALE)] s.skip := by
    split at hk
    · next hkind =>
      cases hk
      exact .skip hs hkind (by simp)
    · next hkind =>
      cases hk
      exact .skip hs hkind (by simp)
    · cases hk
  split at hx
  · next y hkind =>
    cases hx
    exact hfirst.trans (.skip (hfirst.ends hs) hkind (by simp))
  · cases hx

theorem takes_clauseParser : Parser.Takes (fun _ => True) clauseParser :=
  .bind .stream fun _ => .bind (.expect fun _ _ _ => trivial) fun _ =>
    .bind (.text fun _ => trivial) fun _ => .pure _

theorem takes_provenanceParser : Parser.Takes (fun _ => True) provenanceParser := by
  refine .bind takes_clauseParser.many fun clauses => ?_
  cases joinClauses {} clauses with
  | ok c => exact .pure c
  | error e => exact .fail e

theorem takes_reasonedParser (kind : StatementKind) :
    Parser.Takes (fun _ => True) (reasonedParser kind) := by
  refine takes_provenanceParser.bind fun c => ?_
  split
  · exact .pure c
  · exact .refuse _ _

/-- Clauses that can be put together were written in the order of the whole. -/
theorem kinds_of_joinClauses {c c' : ProvenanceClause}
    {clauses : List (Keyword × String × Position)} (h : joinClauses c clauses = .ok c') :
    c'.kinds = c.kinds ++ clauses.flatMap clauseKinds := by
  induction clauses generalizing c with
  | nil =>
    cases h
    simp
  | cons clause clauses ih =>
    obtain ⟨k, x, p⟩ := clause
    unfold joinClauses at h
    -- a reason that is already there bars both words, so the order of the whole is kept
    split_ifs at h with hk hrationale hactor hrationale
    · have hk : k = .ACTOR := eq_of_beq hk
      have hrationale : c.rationale = none := by simpa using hrationale
      have hactor : c.actor = none := by simpa using hactor
      rw [ih h]
      simp [ProvenanceClause.kinds, TokenKind.clause, clauseKinds, hk, hrationale, hactor]
    · have hk : k ≠ .ACTOR := by simpa using hk
      have hrationale : c.rationale = none := by simpa using hrationale
      rw [ih h]
      simp [ProvenanceClause.kinds, TokenKind.clause, clauseKinds, hk, hrationale]

theorem passes_provenanceParser {s t : TokenStream} {c : ProvenanceClause} (hs : s.Ends)
    (h : provenanceParser s = .ok c t) : s.Passes c.kinds t := by
  obtain ⟨clauses, u, hclauses, h⟩ := Parser.bind_eq_ok.mp h
  have hpass := Parser.passes_manyUpTo takes_clauseParser
    (fun _ _ _ hs h => passes_clauseParser hs h) hs hclauses
  cases hjoin : joinClauses {} clauses with
  | ok c' =>
    rw [hjoin] at h
    cases h
    rw [kinds_of_joinClauses hjoin]
    exact hpass
  | error e =>
    rw [hjoin] at h
    cases h

theorem provenanceParser_of_reasoned {s t : TokenStream} {kind : StatementKind}
    {c : ProvenanceClause} (h : reasonedParser kind s = .ok c t) :
    provenanceParser s = .ok c t := by
  obtain ⟨c', u, hc, h⟩ := Parser.bind_eq_ok.mp h
  split at h
  · cases h
    exact hc
  · cases h

/-- A parser of statements takes their clauses last, and finds no word of one before. -/
def Closes (p : Parser Statement) : Prop :=
  ∀ s st t, s.Ends → p s = .ok st t →
    ∃ head, (∀ k ∈ head, IsBody k) ∧ s.Passes (head ++ (st.provenance.getD {}).kinds) t

namespace Closes

theorem bind {α : Type} {p : Parser α} {f : α → Parser Statement} (hp : Parser.Takes IsBody p)
    (hf : ∀ a, Closes (f a)) : Closes (p >>= f) := by
  intro s st t hs h
  obtain ⟨a, u, ha, h⟩ := Parser.bind_eq_ok.mp h
  have hreply := hp s
  rw [ha] at hreply
  cases hreply with
  | ok hpass hks =>
    obtain ⟨head, hhead, hrest⟩ := hf a u st t (hpass.ends hs) h
    refine ⟨_ ++ head, List.forall_mem_append.mpr ⟨hks, hhead⟩, ?_⟩
    rw [List.append_assoc]
    exact hpass.trans hrest

theorem pure {st : Statement} (h : st.provenance = none) : Closes (Pure.pure st) := by
  intro s st' t _ hpure
  cases hpure
  rw [h]
  exact ⟨[], by simp, .refl _⟩

theorem refuse (expected : List String) (note : String) : Closes (Parser.refuse expected note) :=
  fun _ _ _ _ h => by cases h

/-- A statement that keeps the clauses it is read with. -/
theorem clauses {p : Parser ProvenanceClause} {f : ProvenanceClause → Statement}
    (hp : ∀ s c t, s.Ends → p s = .ok c t → s.Passes c.kinds t)
    (hf : ∀ c, (f c).provenance = some c) : Closes (p >>= fun c => Pure.pure (f c)) := by
  intro s st t hs h
  obtain ⟨c, u, hc, h⟩ := Parser.bind_eq_ok.mp h
  cases h
  rw [hf]
  exact ⟨[], by simp, hp s c t hs hc⟩

theorem provenanceParser {f : ProvenanceClause → Statement}
    (hf : ∀ c, (f c).provenance = some c) :
    Closes (Statement.provenanceParser >>= fun c => Pure.pure (f c)) :=
  clauses (fun _ _ _ hs h => passes_provenanceParser hs h) hf

theorem reasonedParser {kind : StatementKind} {f : ProvenanceClause → Statement}
    (hf : ∀ c, (f c).provenance = some c) :
    Closes (Statement.reasonedParser kind >>= fun c => Pure.pure (f c)) :=
  clauses (fun _ _ _ hs h => passes_provenanceParser hs (provenanceParser_of_reasoned h)) hf

end Closes

theorem takes_identParser : Parser.Takes IsBody identParser :=
  .bind Parser.takes_ident fun _ => .pure _

theorem takes_assignmentsParser (limit : Nat) : Parser.Takes IsBody (assignmentsParser limit) := by
  refine .sepBy (by decide) (.bind takes_identParser fun _ => .bind (.symbol (by decide)) fun _ =>
    .bind (Expr.takes_parserAt limit limit 0) fun _ => .bind (.optional ?_) fun _ => .pure _)
  exact .bind (.symbol (by decide)) fun _ => Ty.takes_parserAt limit limit

theorem takes_whereParser (limit : Nat) : Parser.Takes IsBody (whereParser limit) :=
  .optional <| .bind (.keyword (by decide)) fun _ => Expr.takes_parserAt limit limit 0

theorem closes_insertParser (limit : Nat) : Closes (insertParser limit) :=
  .bind (.keyword (by decide)) fun _ => .bind (.keyword (by decide)) fun _ =>
    .bind takes_identParser fun _ => .bind (.keyword (by decide)) fun _ =>
      .bind (takes_assignmentsParser limit) fun _ => .provenanceParser fun _ => rfl

theorem closes_updateParser (limit : Nat) : Closes (updateParser limit) :=
  .bind (.keyword (by decide)) fun _ => .bind takes_identParser fun _ =>
    .bind (.keyword (by decide)) fun _ => .bind (takes_assignmentsParser limit) fun _ =>
      .bind (takes_whereParser limit) fun _ => .reasonedParser fun _ => rfl

theorem closes_deleteParser (limit : Nat) : Closes (deleteParser limit) := by
  refine .bind (.keyword (by decide)) fun _ => .bind (.keyword (by decide)) fun _ =>
    .bind takes_identParser fun _ => .bind (takes_whereParser limit) fun p => ?_
  cases p with
  | none => exact .refuse _ _
  | some p => exact .reasonedParser fun _ => rfl

theorem takes_projectionParser : Parser.Takes IsBody projectionParser := by
  refine .bind (.takeSymbol (by decide)) fun star => ?_
  cases star with
  | true => exact .pure _
  | false => exact .bind (.sepBy (by decide) takes_identParser) fun _ => .pure _

theorem takes_orderByParser : Parser.Takes IsBody orderByParser := by
  have hkey : Parser.Takes IsBody orderKeyParser := by
    refine .bind takes_identParser fun _ => .bind (.takeKeyword (by decide)) fun falls => ?_
    cases falls with
    | true => exact .pure _
    | false => exact .bind (.takeKeyword (by decide)) fun _ => .pure _
  refine .bind (.takeKeyword (by decide)) fun ordered => ?_
  cases ordered with
  | true => exact .bind (.keyword (by decide)) fun _ => .sepBy (by decide) hkey
  | false => exact .pure _

theorem takes_limitParser : Parser.Takes IsBody limitParser :=
  .optional <| .bind (.keyword (by decide)) fun _ => Parser.takes_natural

theorem closes_selectParser (limit : Nat) : Closes (selectParser limit) :=
  .bind (.keyword (by decide)) fun _ => .bind takes_projectionParser fun _ =>
    .bind (.keyword (by decide)) fun _ => .bind takes_identParser fun _ =>
      .bind (takes_whereParser limit) fun _ => .bind takes_orderByParser fun _ =>
        .bind takes_limitParser fun _ => .pure rfl

theorem takes_normalFormText : Parser.Takes IsBody normalFormText := by
  intro s
  have hskip : IsBody s.peek.kind → (Parser.advance s).Behind IsBody s := Parser.behind_advance
  rw [normalFormText, Parser.stream_bind]
  generalize s.peek.kind = k at hskip
  cases k with
  | nat n =>
    refine Parser.behind_bind (hskip (by simp [IsBody])) fun _ u => ?_
    have hsuffix : IsBody u.peek.kind → (Parser.advance u).Behind IsBody u := Parser.behind_advance
    rw [Parser.stream_bind]
    generalize u.peek.kind = k at hsuffix
    cases k with
    | ident name =>
      dsimp only
      split
      · exact Parser.behind_bind (hsuffix (by simp [IsBody])) fun _ => .pure _
      · exact Parser.Takes.unexpected _ u
    | _ => exact Parser.Takes.unexpected _ u
  | ident name => exact Parser.behind_bind (hskip (by simp [IsBody])) fun _ => .pure _
  | text x => exact Parser.behind_bind (hskip (by simp [IsBody])) fun _ => .pure _
  | _ => exact Parser.Takes.unexpected _ s

theorem takes_normalFormParser : Parser.Takes IsBody normalFormParser := by
  refine .bind .stream fun _ => .bind takes_normalFormText fun x => ?_
  split
  · exact .pure _
  · exact .fail _

theorem closes_normalizeParser : Closes normalizeParser := by
  refine .bind (.keyword (by decide)) fun _ => .bind takes_identParser fun _ =>
    .bind (.takeKeyword (by decide)) fun named => ?_
  cases named with
  | true => exact .bind (.map takes_normalFormParser) fun _ => .reasonedParser fun _ => rfl
  | false => exact .reasonedParser fun _ => rfl

theorem closes_bodyParser (limit : Nat) : Closes (bodyParser limit) := by
  refine .bind .stream fun s => ?_
  split
  · exact closes_insertParser limit
  · exact closes_selectParser limit
  · exact closes_updateParser limit
  · exact closes_deleteParser limit
  · exact closes_normalizeParser
  · exact fun _ _ _ _ h => by cases h

/-- A statement is read up to the end: its body, its clauses, and nothing that is a clause. -/
theorem passes_statement {limit : Nat} {s t : TokenStream} {st : Statement} (hs : s.Ends)
    (h : parser limit s = .ok st t) :
    t.isAtEnd = true ∧ ∃ head tail, (∀ k ∈ head, IsBody k) ∧ (∀ k ∈ tail, IsBody k) ∧
      s.Passes (head ++ ((st.provenance.getD {}).kinds ++ tail)) t := by
  obtain ⟨st', u, hbody, h⟩ := Parser.bind_eq_ok.mp h
  obtain ⟨semicolon, v, hsemicolon, h⟩ := Parser.bind_eq_ok.mp h
  obtain ⟨w, _, hstream, h⟩ := Parser.bind_eq_ok.mp h
  cases hstream
  obtain ⟨head, hhead, hpass⟩ := closes_bodyParser limit s st' u hs hbody
  have hreply := Parser.Takes.takeSymbol (P := IsBody) (o := .semicolon) (by decide) u
  rw [hsemicolon] at hreply
  cases hreply with
  | @ok _ _ tail htail hks =>
    split at h
    · next hend =>
      cases h
      refine ⟨hend, head, tail, hhead, hks, ?_⟩
      rw [← List.append_assoc]
      exact hpass.trans htail
    · cases h

end Statement

namespace TokenKind

def text? : TokenKind → Option String
  | text s => some s
  | _ => none

/-- The text that comes right behind a word, where the word comes first. -/
def textAfter? (k : Keyword) : List TokenKind → Option String
  | [] => none
  | j :: rest => if j = .keyword k then rest.head?.bind text? else textAfter? k rest

theorem textAfter?_append {k : Keyword} {head tail : List TokenKind}
    (h : ∀ j ∈ head, j ≠ .keyword k) : textAfter? k (head ++ tail) = textAfter? k tail := by
  induction head with
  | nil => rfl
  | cons j head ih =>
    obtain ⟨hj, hhead⟩ := List.forall_mem_cons.mp h
    rw [List.cons_append, textAfter?, if_neg hj, ih hhead]

theorem textAfter?_eq_none {k : Keyword} {ks : List TokenKind} (h : ∀ j ∈ ks, j ≠ .keyword k) :
    textAfter? k ks = none := by
  have happend : textAfter? k (ks ++ []) = textAfter? k [] := textAfter?_append h
  rwa [List.append_nil] at happend

theorem textAfter?_kinds {c : ProvenanceClause} {tail : List TokenKind}
    (h : ∀ k ∈ tail, k.IsBody) :
    textAfter? .ACTOR (c.kinds ++ tail) = c.actor ∧
      textAfter? .RATIONALE (c.kinds ++ tail) = c.rationale := by
  have hactor := textAfter?_eq_none fun k hk => (h k hk).1
  have hrationale := textAfter?_eq_none fun k hk => (h k hk).2
  obtain ⟨actor, rationale⟩ := c
  cases actor <;> cases rationale <;>
    simp [ProvenanceClause.kinds, clause, textAfter?, text?, hactor, hrationale]

end TokenKind

def Token.words (ts : List Token) : List TokenKind :=
  (ts.filter fun t => !t.kind.isComment).map (·.kind)

/-- Tokens up to the end of a text: the last is the end, and no other is. -/
def Token.Ended (ts : List Token) : Prop :=
  ∃ init last, ts = init ++ [last] ∧ last.kind = .eof ∧ ∀ t ∈ init, t.kind ≠ .eof

theorem Lexer.ended_tokensFrom {keep : Bool} {c : Cursor} (h : (tokensFrom keep c).2 = none) :
    Token.Ended (tokensFrom keep c).1 := by
  fun_induction tokensFrom keep c with
  | case1 => cases h
  | case2 c t c' hnext hend => exact ⟨[], t, rfl, by simpa [Token.isEnd] using hend, by simp⟩
  | case3 c t c' hnext hend more ih =>
    obtain ⟨init, last, heq, hlast, hinit⟩ := ih h
    refine ⟨t :: init, last, by rw [heq]; rfl, hlast, List.forall_mem_cons.mpr ⟨?_, hinit⟩⟩
    simpa [Token.isEnd] using hend

theorem TokenStream.ofTokens_ended {init : List Token} {last : Token} (h : last.kind = .eof) :
    ofTokens (init ++ [last]) = ⟨init.filter fun t => !t.kind.isComment, last⟩ := by
  have hlast : last.kind.isComment = false := by rw [h]; rfl
  unfold ofTokens
  dsimp only
  rw [List.filter_append, List.filter_singleton, hlast]
  simp [Token.isEnd, h]

namespace Statement

/-- The clauses of a statement are the texts that come behind their words in its source. -/
theorem provenance_of_ofTokens {limit : Nat} {ts : List Token} {st : Statement}
    (hts : Token.Ended ts) (h : ofTokens limit ts = .ok st) :
    (st.provenance.getD {}).actor = TokenKind.textAfter? .ACTOR (Token.words ts) ∧
      (st.provenance.getD {}).rationale = TokenKind.textAfter? .RATIONALE (Token.words ts) := by
  obtain ⟨init, last, rfl, hlast, hinit⟩ := hts
  obtain ⟨t, ht⟩ := Parser.run_eq_ok h
  rw [TokenStream.ofTokens_ended hlast] at ht
  obtain ⟨hend, head, tail, hhead, htail, passed, hrest, -, hkinds⟩ :=
    passes_statement (show TokenStream.Ends ⟨_, last⟩ from hlast) ht
  dsimp only at hrest
  -- only the last token is an end, so nothing is left where the parser found one
  have hnil : t.rest = [] := by
    cases hr : t.rest with
    | nil => rfl
    | cons u us =>
      have hu : u ∈ init.filter fun t => !t.kind.isComment := by simp [hrest, hr]
      have heof : u.kind = .eof := by
        simpa [TokenStream.isAtEnd, TokenStream.peek, Token.isEnd, hr] using hend
      exact absurd heof (hinit u (List.mem_of_mem_filter hu))
  have hwords : Token.words (init ++ [last]) =
      head ++ ((st.provenance.getD {}).kinds ++ (tail ++ [.eof])) := by
    have hlast' : last.kind.isComment = false := by rw [hlast]; rfl
    rw [Token.words, List.filter_append, hrest, hnil, List.append_nil, List.map_append, hkinds,
      List.filter_singleton, hlast']
    simp [hlast]
  have htail : ∀ k ∈ tail ++ [.eof], IsBody k :=
    List.forall_mem_append.mpr ⟨htail, by simp [IsBody]⟩
  rw [hwords, TokenKind.textAfter?_append fun k hk => (hhead k hk).1,
    TokenKind.textAfter?_append fun k hk => (hhead k hk).2]
  obtain ⟨hactor, hrationale⟩ := TokenKind.textAfter?_kinds htail
  exact ⟨hactor.symm, hrationale.symm⟩

end Statement
end Attest
