import Attest.Proofs.Expr.Spelling
import Attest.Proofs.Token.Lexing

/-!
Precedence.

Without brackets the tokens of an expression are the tree read in order, and the tree is the one
that the levels of the operators allow.
-/

namespace Attest

/-- The token that a literal is by itself. -/
def Literal.kind? : Literal → Option TokenKind
  | .nat n => some (.nat n)
  | .float x => some (.float x)
  | .text s => some (.text s)
  | .bool b => some (.bool b)
  | .null => some .null
  | _ => none

theorem Literal.ofToken?_eq_some {k : TokenKind} {v : Literal} :
    Literal.ofToken? k = some v ↔ v.kind? = some k := by
  constructor
  · intro h
    cases k <;> cases h <;> rfl
  · intro h
    cases v <;> cases h <;> rfl

def TokenKind.isBracket : TokenKind → Bool
  | .symbol .lparen => true
  | .symbol .rparen => true
  | .symbol .lbracket => true
  | .symbol .rbracket => true
  | .symbol .lbrace => true
  | .symbol .rbrace => true
  | _ => false

namespace Expr

/-- How tightly an expression binds by its outermost operator.  Tests for null bind tighter than
the other operators, and leaves tightest. -/
def level : Expr → Nat
  | column _ => 12
  | literal _ _ => 12
  | isNull _ _ _ => 11
  | unary op _ _ => op.level
  | binary op _ _ _ => op.level

def flatten : Expr → List TokenKind
  | column id => [.ident id.name]
  | literal v _ => v.kind?.toList
  | unary op e _ => op.kind :: e.flatten
  | binary op l r _ => l.flatten ++ op.kind :: r.flatten
  | isNull e negated _ => e.flatten ++ nullKinds negated

/-- Every operand binds as tightly as its operator asks, and every literal is a token. -/
def Layered : Expr → Prop
  | column _ => True
  | literal v _ => v.kind?.isSome
  | unary op e _ => op.level ≤ e.level ∧ e.Layered
  | binary op l r _ =>
    (if op = .pow then op.level < l.level ∧ op.level ≤ r.level
      else op.level ≤ l.level ∧ op.level < r.level) ∧ l.Layered ∧ r.Layered
  | isNull e _ _ => 11 ≤ e.level ∧ e.Layered

/-- The levels of the operands in the words of the grammar. -/
theorem operands_iff {op : BinaryOp} {m n : Nat} :
    (if op = .pow then op.level < m ∧ op.level ≤ n else op.level ≤ m ∧ op.level < n) ↔
      op.leftLevel ≤ m ∧ op.rightLevel ≤ n := by
  cases op <;> simp [BinaryOp.level, BinaryOp.leftLevel, BinaryOp.rightLevel, Nat.succ_le_iff]

/-- Without brackets, a spelling has only the one tree, and it is layered. -/
theorem layered_of_spelled {d l : Nat} {ks : List TokenKind} {e : Expr} (h : Spelled d l ks e)
    (hks : ∀ k ∈ ks, k.isBracket = false) : l = e.level ∧ ks = e.flatten ∧ e.Layered := by
  induction h with
  | column => exact ⟨rfl, rfl, trivial⟩
  | literal hk h =>
    cases h with
    | token h =>
      rw [Literal.ofToken?_eq_some] at h
      exact ⟨rfl, by rw [flatten, h]; rfl, by rw [Layered, h]; rfl⟩
    | minus | plus => cases hk
    | vector | record => cases hks _ (List.mem_cons_self ..)
  | parens => cases hks _ (List.mem_cons_self ..)
  | unary _ hl ih =>
    obtain ⟨rfl, rfl, hlayered⟩ := ih fun k hk => hks k (List.mem_cons_of_mem _ hk)
    exact ⟨rfl, rfl, hl, hlayered⟩
  | isNull _ hl ih =>
    obtain ⟨rfl, rfl, hlayered⟩ := ih fun k hk => hks k (List.mem_append_left _ hk)
    exact ⟨rfl, rfl, hl, hlayered⟩
  | binary _ hm _ hn ihl ihr =>
    obtain ⟨rfl, rfl, hleft⟩ := ihl fun k hk => hks k (List.mem_append_left _ hk)
    obtain ⟨rfl, rfl, hright⟩ := ihr fun k hk =>
      hks k (List.mem_append_right _ (List.mem_cons_of_mem _ hk))
    exact ⟨rfl, rfl, operands_iff.mpr ⟨hm, hn⟩, hleft, hright⟩

theorem spelled_of_layered {e : Expr} (h : e.Layered) : ∃ d, Spelled d e.level e.flatten e := by
  induction e with
  | column id => exact ⟨1, .column⟩
  | literal v p =>
    obtain ⟨k, hk⟩ := Option.isSome_iff_exists.mp h
    have htoken := Literal.ofToken?_eq_some.mpr hk
    refine ⟨2, ?_⟩
    rw [flatten, hk]
    refine .literal ?_ (.token htoken)
    unfold startsLiteral
    split
    · rfl
    · rfl
    · rw [htoken]
      rfl
  | unary op e p ih =>
    obtain ⟨d, hd⟩ := ih h.2
    exact ⟨d + 1, .unary hd h.1⟩
  | isNull e negated p ih =>
    obtain ⟨d, hd⟩ := ih h.2
    exact ⟨d + 1, .isNull hd.succ h.1⟩
  | binary op l r p ihl ihr =>
    obtain ⟨hlevels, hl, hr⟩ := h
    obtain ⟨hm, hn⟩ := operands_iff.mp hlevels
    obtain ⟨d, hd⟩ := ihl hl
    obtain ⟨d', hd'⟩ := ihr hr
    exact ⟨max d d' + 1, .binary (hd.weaken (by omega)) hm (hd'.weaken (by omega)) hn⟩

/-- The tokens in order determine a layered tree. -/
theorem bare_eq_of_flatten {e e' : Expr} (h : e.Layered) (h' : e'.Layered)
    (hflatten : e'.flatten = e.flatten) : e'.bare = e.bare := by
  obtain ⟨d, hd⟩ := spelled_of_layered h
  obtain ⟨d', hd'⟩ := spelled_of_layered h'
  rw [hflatten] at hd'
  let last : Token := ⟨.eof, "", .start⟩
  let s : TokenStream := ⟨e.flatten.map (⟨·, "", .start⟩), last⟩
  have hpass : s.Passes e.flatten ⟨[], last⟩ :=
    ⟨s.rest, (List.append_nil _).symm, rfl, by simp [s, Function.comp_def]⟩
  have hstops : Stops 0 last.kind := ⟨by simp [last], fun op hop => by cases hop⟩
  obtain ⟨e₁, he₁, hparse⟩ := parser_of_spelled hd (Nat.le_max_left d d') hpass hstops
  obtain ⟨e₂, he₂, hparse'⟩ := parser_of_spelled hd' (Nat.le_max_right d d') hpass hstops
  cases hparse.symm.trans hparse'
  exact he₂.symm.trans he₁

/-- Precedence climbing: the tokens taken are those of the tree in order, every operand binds as
tightly as its operator asks, and there is no other such tree of these tokens. -/
theorem parser_layers {limit : Nat} {ts : List Token} {e : Expr} {s : TokenStream}
    (hts : ∀ t ∈ ts, t.kind.isBracket = false)
    (h : parser limit (TokenStream.ofTokens ts) = .ok e s) :
    (∃ used, (TokenStream.ofTokens ts).rest = used ++ s.rest ∧
      used.map (·.kind) = e.flatten) ∧ e.Layered ∧
      ∀ e' : Expr, e'.Layered → e'.flatten = e.flatten → e'.bare = e.bare := by
  obtain ⟨l, ks, hpass, hspelled, -⟩ :=
    sound_parserAt 0 _ _ _ (Nat.zero_le _) (TokenStream.last_ofTokens ts) h
  have hks : ∀ k ∈ ks, k.isBracket = false := by
    intro k hk
    obtain ⟨t, ht, rfl⟩ := hpass.exists_mem hk
    exact hts t (TokenStream.mem_of_mem_ofTokens ht)
  obtain ⟨-, rfl, hlayered⟩ := layered_of_spelled hspelled hks
  obtain ⟨used, hrest, -, hused⟩ := hpass
  exact ⟨⟨used, hrest, hused⟩, hlayered, fun e' h' => bare_eq_of_flatten hlayered h'⟩

/-- A sign inside of a power, and a test for null inside of that. -/
theorem parser_layers_powers :
    let p := Position.start
    let ts := [.nat 2, .symbol .caret, .symbol .minus, .ident "a", .symbol .caret, .ident "b",
      .keyword .IS, .null].map (Token.mk · "" p)
    let e := binary .pow (literal (.nat 2) p) (binary .pow (unary .neg (column ⟨"a", p⟩) p)
      (isNull (column ⟨"b", p⟩) false p) p) p
    (∃ s, parser 8 (TokenStream.ofTokens ts) = .ok e s ∧ s.rest = []) ∧
      (∀ t ∈ ts, t.kind.isBracket = false) ∧ e.Layered ∧
      ∀ e' : Expr, e'.Layered → e'.flatten = ts.map (·.kind) → e'.bare = e.bare := by
  intro p ts e
  have hts : ∀ t ∈ ts, t.kind.isBracket = false := by decide
  have h : parser 8 (TokenStream.ofTokens ts) =
      .ok e ⟨[], TokenStream.endAfter ⟨.null, "", p⟩⟩ := rfl
  obtain ⟨-, hlayered, hunique⟩ := parser_layers hts h
  exact ⟨⟨_, h, rfl⟩, hts, hlayered, hunique⟩

end Expr
end Attest
