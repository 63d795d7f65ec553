import Attest.Proofs.Statement.Names

/-!
How deep the expressions of a statement are.

The limit of nesting counts how often the parser of expressions is within itself.  It calls itself
for what stands in parentheses, behind an operator in front and on the right of an operator, but a
left operand and a test for null it meets on the way, and goes on behind them on the same level.
So the limit bounds the levels of an expression, with a chain of operators as one level
(`nesting`).  It does not bound the height of the tree: there are chains of every length.
-/

namespace Attest

namespace Literal

mutual

/-- Vectors and records within each other, and the constant inside. -/
def height : Literal → Nat
  | .vector items => heightItems items + 1
  | .record fields => heightFields fields + 1
  | _ => 1

def heightItems : List Literal → Nat
  | [] => 0
  | l :: rest => max (height l) (heightItems rest)

def heightFields : List (String × Literal) → Nat
  | [] => 0
  | (_, l) :: rest => max (height l) (heightFields rest)

end

theorem heightItems_le {items : List Literal} {d : Nat} (h : ∀ l ∈ items, l.height ≤ d) :
    heightItems items ≤ d := by
  induction items with
  | nil => exact Nat.zero_le d
  | cons l items ih =>
    obtain ⟨hl, hitems⟩ := List.forall_mem_cons.mp h
    exact Nat.max_le.mpr ⟨hl, ih hitems⟩

theorem heightFields_le {fields : List (String × Literal)} {d : Nat}
    (h : ∀ f ∈ fields, f.2.height ≤ d) : heightFields fields ≤ d := by
  induction fields with
  | nil => exact Nat.zero_le d
  | cons f fields ih =>
    obtain ⟨hf, hfields⟩ := List.forall_mem_cons.mp h
    exact Nat.max_le.mpr ⟨hf, ih hfields⟩

theorem height_of_ofToken? {k : TokenKind} {v : Literal} (h : ofToken? k = some v) :
    v.height = 1 := by
  cases k <;> cases h <;> rfl

theorem height_of_negate? {v w : Literal} (h : v.negate? = some w) : w.height = 1 := by
  have hint {i : Int} (h : ofInt? i = some w) : w.height = 1 := by
    unfold ofInt? at h
    split at h
    · split at h <;> cases h
      rfl
    · split at h <;> cases h
      rfl
  cases v with
  | nat n => exact hint h
  | int i => exact hint h
  | float x =>
    cases h
    rfl
  | _ => cases h

theorem height_le_of_spelled {d : Nat} {ks : List TokenKind} {v : Literal}
    (h : Spelled d ks v) : v.height ≤ d := by
  induction h with
  | token h =>
    rw [height_of_ofToken? h]
    omega
  | minus _ hw _ =>
    rw [height_of_negate? hw]
    omega
  | plus _ _ ih => omega
  | vector _ ih =>
    refine Nat.succ_le_succ (heightItems_le fun l hl => ?_)
    obtain ⟨i, hi, rfl⟩ := List.mem_map.mp hl
    exact ih i hi
  | record _ _ ih =>
    refine Nat.succ_le_succ (heightFields_le fun f hf => ?_)
    obtain ⟨i, hi, rfl⟩ := List.mem_map.mp hf
    exact ih i hi

end Literal

namespace Expr

/-- The nodes on the longest way from the root to a leaf. -/
def height : Expr → Nat
  | column _ => 1
  | literal _ _ => 1
  | unary _ e _ => e.height + 1
  | binary _ l r _ => max l.height r.height + 1
  | isNull e _ _ => e.height + 1

/-- The same without the steps to a left operand and to the operand of a test for null, and with
the levels of the literals. -/
def nesting : Expr → Nat
  | column _ => 1
  | literal v _ => v.height + 1
  | unary _ e _ => e.nesting + 1
  | binary _ l r _ => max l.nesting (r.nesting + 1)
  | isNull e _ _ => e.nesting

theorem nesting_le_of_spelled {d l : Nat} {ks : List TokenKind} {e : Expr}
    (h : Spelled d l ks e) : e.nesting ≤ d := by
  induction h with
  | column => exact Nat.succ_le_succ (Nat.zero_le _)
  | literal _ h => exact Nat.succ_le_succ (Literal.height_le_of_spelled h)
  | parens _ ih => omega
  | unary _ _ ih => exact Nat.succ_le_succ ih
  | isNull _ _ ih => exact ih
  | binary _ _ _ _ ihl ihr => exact Nat.max_le.mpr ⟨ihl, Nat.succ_le_succ ihr⟩

theorem ensures_nesting (limit : Nat) :
    Parser.Ensures (fun _ => True) (parser limit) fun e => e.nesting ≤ limit := by
  refine .of_passes fun s e t hs h => ?_
  obtain ⟨l, ks, hpass, hspelled, -⟩ := sound_parserAt 0 _ _ _ (Nat.zero_le _) hs h
  exact ⟨ks, hpass, fun _ => nesting_le_of_spelled hspelled⟩

theorem height_bare (e : Expr) : e.bare.height = e.height := by
  induction e with
  | column id => rfl
  | literal v p => rfl
  | unary op e p ih => exact congrArg (· + 1) ih
  | binary op l r p ihl ihr => rw [bare, height, height, ihl, ihr]
  | isNull e negated p ih => exact congrArg (· + 1) ih

/-- Tests for null, one behind the other, need one level for any height. -/
theorem exists_spelled_height (n : Nat) : ∃ l ks e, 11 ≤ l ∧ Spelled 1 l ks e ∧ n < e.height ∧
    ∀ k ∈ ks, k.isComment = false := by
  induction n with
  | zero =>
    refine ⟨12, [.ident "a"], .column ⟨"a", .start⟩, by omega, .column, by decide, ?_⟩
    simp [TokenKind.isComment]
  | succ n ih =>
    obtain ⟨l, ks, e, hl, hspelled, hheight, hks⟩ := ih
    refine ⟨11, ks ++ nullKinds false, .isNull e false .start, Nat.le_refl _,
      .isNull hspelled hl, Nat.succ_lt_succ hheight, ?_⟩
    exact List.forall_mem_append.mpr ⟨hks, by decide⟩

end Expr

namespace Statement

/-- The values that a statement assigns, and its condition. -/
def expressions (st : Statement) : List Expr :=
  st.assignments.map (·.value) ++ st.condition.toList

theorem Parts.expressions {I : Ident → Prop} {Q : Expr → Prop} {st : Statement}
    (h : st.Parts I Q) : ∀ e ∈ st.expressions, Q e := by
  intro e he
  rcases List.mem_append.mp he with he | he
  · obtain ⟨a, ha, rfl⟩ := List.mem_map.mp he
    exact (h.assignments a ha).2
  · exact h.condition e (Option.mem_toList.mp he)

theorem nesting_of_ofTokens {limit : Nat} {ts : List Token} {st : Statement}
    (h : ofTokens limit ts = .ok st) : ∀ e ∈ st.expressions, e.nesting ≤ max limit 1 :=
  (parts_of_ofTokens (fun _ _ => trivial) (.of_takes takes_identParser)
    (Expr.ensures_nesting _) h).expressions

section Queries

variable {limit d l : Nat} {ks : List TokenKind} {e : Expr}

theorem whereParser_of_spelled {s t : TokenStream} (h : Expr.Spelled d l ks e) (hd : d ≤ limit)
    (hpass : s.Passes (.keyword .WHERE :: ks) t) (hstops : Expr.Stops 0 t.peek.kind) :
    ∃ e', e'.bare = e.bare ∧ whereParser limit s = .ok (some e') t := by
  obtain ⟨hpeek, hskip⟩ := hpass.cons_inv
  obtain ⟨e', hbare, hparse⟩ := Expr.parser_of_spelled h hd hskip hstops
  have hkeyword : Parser.keyword .WHERE s = .ok s.peek s.skip :=
    Parser.expect_eq_ok.mpr ⟨by rw [hpeek]; rfl, rfl⟩
  refine ⟨e', hbare, ?_⟩
  unfold whereParser Parser.optional
  simp only [Parser.bind_of_ok hkeyword, hparse]

def queryKinds (ks : List TokenKind) : List TokenKind :=
  [.keyword .SELECT, .symbol .star, .keyword .FROM, .ident "t", .keyword .WHERE] ++ ks

/-- A condition that can be spelled is the condition of a statement. -/
theorem exists_ofTokens_of_spelled (h : Expr.Spelled d l ks e) (hd : d ≤ max limit 1)
    (hks : ∀ k ∈ ks, k.isComment = false) :
    ∃ ts st e', ofTokens limit ts = .ok st ∧ e' ∈ st.expressions ∧ e'.bare = e.bare := by
  let toToken (k : TokenKind) : Token := ⟨k, "", .start⟩
  let ts : List Token := (queryKinds ks).map toToken
  have hstream : TokenStream.ofTokens (ts ++ [toToken .eof]) = ⟨ts, toToken .eof⟩ := by
    refine TokenStream.ofTokens_append (fun t ht => ?_) rfl
    obtain ⟨k, hk, rfl⟩ := List.mem_map.mp ht
    exact List.forall_mem_append.mpr ⟨by decide, hks⟩ k hk
  have hpass : TokenStream.Passes ⟨ts.drop 4, toToken .eof⟩ (.keyword .WHERE :: ks)
      ⟨[], toToken .eof⟩ :=
    ⟨ts.drop 4, (List.append_nil _).symm, rfl,
      by simp [ts, queryKinds, toToken, Function.comp_def]⟩
  have hstops : Expr.Stops 0 TokenKind.eof := ⟨by simp, by simp [Expr.binaryOf?]⟩
  obtain ⟨e', hbare, hwhere⟩ := whereParser_of_spelled h hd hpass hstops
  let st : Statement := .select ⟨"t", .start⟩ .all (some e') [] none
  have hbody : bodyParser (max limit 1) ⟨ts, toToken .eof⟩ = .ok st ⟨[], toToken .eof⟩ := by
    -- up to the condition the words are fixed
    show (whereParser (max limit 1) >>= fun p => orderByParser >>= fun o =>
      limitParser >>= fun c => Pure.pure (select ⟨"t", .start⟩ .all p o c))
        ⟨ts.drop 4, toToken .eof⟩ = _
    rw [Parser.bind_of_ok hwhere]
    rfl
  have hmem : e' ∈ st.expressions := List.mem_append_right _ (List.mem_singleton.mpr rfl)
  refine ⟨ts ++ [toToken .eof], st, e', ?_, hmem, hbare⟩
  rw [ofTokens, hstream, Parser.run, parser, Parser.bind_of_ok hbody]
  rfl

end Queries

/-- The limit bounds the levels of every expression of a statement, and under no limit is there a
bound for the heights. -/
theorem nesting_le_limit (limit : Nat) :
    (∀ ts st, ofTokens limit ts = .ok st → ∀ e ∈ st.expressions, e.nesting ≤ max limit 1) ∧
      ∀ n, ∃ ts st, ofTokens limit ts = .ok st ∧ ∃ e ∈ st.expressions, n < e.height := by
  refine ⟨fun _ _ h => nesting_of_ofTokens h, fun n => ?_⟩
  obtain ⟨l, ks, e, -, hspelled, hheight, hks⟩ := Expr.exists_spelled_height n
  obtain ⟨ts, st, e', hparse, he', hbare⟩ :=
    exists_ofTokens_of_spelled hspelled (Nat.le_max_right limit 1) hks
  refine ⟨ts, st, hparse, e', he', ?_⟩
  rwa [← Expr.height_bare, hbare, Expr.height_bare]

/-- A sum of three columns takes two levels and has three nodes on a way. -/
theorem nesting_sum : ∃ ts st, Lexer.tokenize "SELECT a FROM t WHERE a + a + a" = .ok ts ∧
    ofTokens 2 ts = .ok st ∧ st.expressions.map Expr.height = [3] ∧
    ∀ e ∈ st.expressions, e.nesting ≤ 2 := by
  obtain ⟨ts, hts, h⟩ := Outcome.exists_of_any_toOption
    (x := Lexer.tokenize "SELECT a FROM t WHERE a + a + a")
    (P := fun ts => (ofTokens 2 ts).toOption.any fun st => st.expressions.map Expr.height == [3])
    (by decide +kernel)
  obtain ⟨st, hst, hheight⟩ := Outcome.exists_of_any_toOption h
  exact ⟨ts, st, hts, hst, eq_of_beq hheight, (nesting_le_limit 2).1 ts st hst⟩

/-- A limit of two levels is met by a sum with three nodes on a way. -/
theorem height_above_limit : ¬ ∀ limit ts st, ofTokens limit ts = .ok st →
    ∀ e ∈ st.expressions, e.height ≤ max limit 1 := by
  intro hall
  obtain ⟨ts, -, h⟩ := Outcome.exists_of_any_toOption
    (x := Lexer.tokenize "SELECT a FROM t WHERE a + a + a")
    (P := fun ts => (ofTokens 2 ts).toOption.any fun st => st.expressions.any (2 < ·.height))
    (by decide +kernel)
  obtain ⟨st, hst, hany⟩ := Outcome.exists_of_any_toOption h
  obtain ⟨e, he, hheight⟩ := List.any_eq_true.mp hany
  exact absurd (hall 2 ts st hst e he) (Nat.not_le.mpr (of_decide_eq_true hheight))

end Statement
end Attest
