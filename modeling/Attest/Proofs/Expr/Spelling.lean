import Attest.Expr.Parser
import Attest.Proofs.Literal.Spelling

/-!
The grammar of expressions.

`Spelled d l ks e` says that the tokens `ks` spell the expression `e` with at most `d` levels of
nesting, and that outside of parentheses they hold only operators that bind at level `l` or
tighter, the outermost at exactly that level.  It names no tokens that come before or behind: the
parser's lookahead is what decides where an expression stops, and that is `Stops`.
-/

namespace Attest

def UnaryOp.kind : UnaryOp → TokenKind
  | not => .keyword .NOT
  | neg => .symbol .minus
  | plus => .symbol .plus

def BinaryOp.kind : BinaryOp → TokenKind
  | or => .keyword .OR
  | and => .keyword .AND
  | eq => .symbol .eq
  | ne => .symbol .ne
  | lt => .symbol .lt
  | gt => .symbol .gt
  | le => .symbol .le
  | ge => .symbol .ge
  | concat => .symbol .concat
  | add => .symbol .plus
  | sub => .symbol .minus
  | mul => .symbol .star
  | div => .symbol .slash
  | mod => .symbol .percent
  | pow => .symbol .caret

def BinaryOp.leftLevel : BinaryOp → Nat
  | pow => 10
  | op => op.level

namespace Expr

open TokenStream (Passes)

def nullKinds (negated : Bool) : List TokenKind :=
  .keyword .IS :: (if negated then [.keyword .NOT, .null] else [.null])

inductive Spelled : Nat → Nat → List TokenKind → Expr → Prop where
  | column {d name p} : Spelled (d + 1) 12 [.ident name] (column ⟨name, p⟩)
  | literal {d k ks v p} (hk : startsLiteral k) (h : Literal.Spelled d (k :: ks) v) :
    Spelled (d + 1) 12 (k :: ks) (literal v p)
  | parens {d l ks e} (h : Spelled d l ks e) :
    Spelled (d + 1) 12 (.symbol .lparen :: (ks ++ [.symbol .rparen])) e
  | unary {d l ks e op p} (h : Spelled d l ks e) (hl : op.level ≤ l) :
    Spelled (d + 1) op.level (op.kind :: ks) (unary op e p)
  | isNull {d l ks e negated p} (h : Spelled (d + 1) l ks e) (hl : 11 ≤ l) :
    Spelled (d + 1) 11 (ks ++ nullKinds negated) (isNull e negated p)
  | binary {d m n ls rs l r op p} (hl : Spelled (d + 1) m ls l) (hm : op.leftLevel ≤ m)
      (hr : Spelled d n rs r) (hn : op.rightLevel ≤ n) :
    Spelled (d + 1) op.level (ls ++ op.kind :: rs) (binary op l r p)

namespace Spelled

variable {d l : Nat} {ks : List TokenKind} {e : Expr}

theorem succ (h : Spelled d l ks e) : Spelled (d + 1) l ks e := by
  induction h with
  | column => exact .column
  | literal hk h => exact .literal hk h.succ
  | parens _ ih => exact .parens ih
  | unary _ hl ih => exact .unary ih hl
  | isNull _ hl ih => exact .isNull ih hl
  | binary _ hm _ hn ihl ihr => exact .binary ihl hm ihr hn

theorem weaken {d' : Nat} (h : Spelled d l ks e) (hd : d ≤ d') : Spelled d' l ks e := by
  induction hd with
  | refl => exact h
  | step _ ih => exact ih.succ

end Spelled

/-- The expression without its positions. -/
def bare : Expr → Expr
  | column id => column ⟨id.name, .start⟩
  | literal v _ => literal v .start
  | unary op e _ => unary op e.bare .start
  | binary op l r _ => binary op l.bare r.bare .start
  | isNull e negated _ => isNull e.bare negated .start

/-- A token that no expression at a level goes on with. -/
def Stops (least : Nat) (k : TokenKind) : Prop :=
  k ≠ .keyword .IS ∧ ∀ op, binaryOf? k = some op → op.level < least

/-- A token that can only go on with an expression as a whole, as its left operand. -/
def MayFollow (l : Nat) (k : TokenKind) : Prop :=
  k ≠ .keyword .IS ∧ ∀ op, binaryOf? k = some op → op.leftLevel ≤ l

section Levels

theorem unaryOf?_eq_some {k : TokenKind} {op : UnaryOp} : unaryOf? k = some op ↔ k = op.kind := by
  constructor
  · intro h
    unfold unaryOf? at h
    split at h <;> cases h <;> rfl
  · rintro rfl
    cases op <;> rfl

theorem binaryOf?_eq_some {k : TokenKind} {op : BinaryOp} :
    binaryOf? k = some op ↔ k = op.kind := by
  constructor
  · intro h
    unfold binaryOf? at h
    split at h <;> cases h <;> rfl
  · rintro rfl
    cases op <;> rfl

theorem leftLevel_le (op : BinaryOp) : op.leftLevel ≤ 10 := by cases op <;> decide

theorem level_le_leftLevel (op : BinaryOp) : op.level ≤ op.leftLevel := by cases op <;> decide

theorem rightLevel_le (op : BinaryOp) : op.rightLevel ≤ 9 := by cases op <;> decide

theorem unary_level_le (op : UnaryOp) : op.level ≤ 10 := by cases op <;> decide

/-- Between two operators, the first is the left operand of the second exactly if the second does
not belong to its right operand. -/
theorem leftLevel_le_level_iff (q op : BinaryOp) :
    q.leftLevel ≤ op.level ↔ q.level < op.rightLevel := by
  cases q <;> cases op <;> decide

theorem leftLevel_le_unary_iff (q : BinaryOp) (op : UnaryOp) :
    q.leftLevel ≤ op.level ↔ q.level < op.level := by
  cases q <;> cases op <;> decide

theorem Stops.mayFollow {least l : Nat} {k : TokenKind} (h : Stops least k) (hl : least ≤ l) :
    MayFollow l k := by
  refine ⟨h.1, fun op hop => ?_⟩
  have hlevel := h.2 op hop
  by_cases hpow : op = .pow
  · subst hpow
    simp only [BinaryOp.level] at hlevel
    simp only [BinaryOp.leftLevel]
    omega
  · have : op.leftLevel = op.level := by cases op <;> first | rfl | exact absurd rfl hpow
    omega

end Levels

section Steps

variable {limit d least n : Nat} {e : Expr} {s t : TokenStream}

theorem unaryParser_some {op : UnaryOp} (hk : s.peek.kind = op.kind) (hop : least ≤ op.level) :
    unaryParser least s = .ok (some (op, s.peek.position)) s.skip :=
  Parser.takeIf_some (by rw [unaryOf?_eq_some.mpr hk]; exact if_pos hop)

theorem unaryParser_none (h : ∀ op : UnaryOp, s.peek.kind = op.kind → op.level < least) :
    unaryParser least s = .ok none s := by
  refine Parser.takeIf_none ?_
  cases hop : unaryOf? s.peek.kind with
  | none => rfl
  | some op => exact if_neg (by have := h op (unaryOf?_eq_some.mp hop); omega)

theorem binaryParser_some {op : BinaryOp} (hk : s.peek.kind = op.kind) (hop : least ≤ op.level) :
    binaryParser least s = .ok (some (op, s.peek.position)) s.skip :=
  Parser.takeIf_some (by rw [binaryOf?_eq_some.mpr hk]; exact if_pos hop)

theorem binaryParser_none (h : Stops least s.peek.kind) : binaryParser least s = .ok none s := by
  refine Parser.takeIf_none ?_
  cases hop : binaryOf? s.peek.kind with
  | none => rfl
  | some op => exact if_neg (by have := h.2 op hop; omega)

theorem nullTests_of_ne (h : s.peek.kind ≠ .keyword .IS) : nullTests n e s = .ok e s := by
  cases n with
  | zero => rfl
  | succ n =>
    rw [nullTests, Parser.bind_of_ok (Parser.takeIf_none (by simp [h]))]
    rfl

theorem nullTests_succ (h : s.peek.kind = .keyword .IS) :
    nullTests (n + 1) e s = (nullTestParser s.peek.position e >>= nullTests n) s.skip := by
  rw [nullTests, Parser.bind_of_ok (Parser.takeIf_some (a := s.peek.position) (by simp [h]))]

theorem operations_of_stops {operand : Nat → Parser Expr} (h : Stops least s.peek.kind) :
    operations operand least n e s = .ok e s := by
  cases n with
  | zero => rfl
  | succ n =>
    rw [operations, Parser.bind_of_ok (binaryParser_none h)]
    rfl

theorem operations_succ {operand : Nat → Parser Expr} {op : BinaryOp}
    (hk : s.peek.kind = op.kind) (hop : least ≤ op.level) :
    operations operand least (n + 1) e s =
      (operand op.rightLevel >>= fun r =>
        operations operand least n (binary op e r s.peek.position)) s.skip := by
  rw [operations, Parser.bind_of_ok (binaryParser_some hk hop)]

theorem leaf_ident {literal : Parser Literal} {inner : Parser Expr} {name : String}
    (h : s.peek.kind = .ident name) :
    leaf literal inner s = .ok (column ⟨name, s.peek.position⟩) s.skip := by
  rw [leaf, Parser.stream_bind, h]
  rfl

theorem leaf_lparen {literal : Parser Literal} {inner : Parser Expr}
    (h : s.peek.kind = .symbol .lparen) :
    leaf literal inner s =
      (inner >>= fun e => Parser.symbol .rparen >>= fun _ => Pure.pure e) s.skip := by
  rw [leaf, Parser.stream_bind, h]
  rfl

theorem leaf_literal {literal : Parser Literal} {inner : Parser Expr}
    (h : startsLiteral s.peek.kind) :
    leaf literal inner s = (literal >>= fun v => Pure.pure (.literal v s.peek.position)) s := by
  rw [leaf, Parser.stream_bind]
  generalize s.peek.kind = k at h
  cases k with
  | symbol o => cases o <;> first | rfl | cases h
  | ident => cases h
  | _ => exact congrFun (if_pos h) s

/-- What follows the first operand. -/
def behind (limit d least n : Nat) (first : Expr) : Parser Expr := do
  let first ← nullTests n first
  operations (parserAt limit d) least (← Parser.stream).rest.length first

theorem behind_of_ne (h : s.peek.kind ≠ .keyword .IS) :
    behind limit d least n e s = operations (parserAt limit d) least s.rest.length e s := by
  rw [behind, Parser.bind_of_ok (nullTests_of_ne h)]
  rfl

theorem parserAt_unary {op : UnaryOp} (hk : s.peek.kind = op.kind) (hop : least ≤ op.level) :
    parserAt limit (d + 1) least s =
      (parserAt limit d op.level >>= fun e => Parser.stream >>= fun u =>
        behind limit d least u.rest.length (unary op e s.peek.position)) s.skip := by
  rw [parserAt, Parser.bind_of_ok (unaryParser_some hk hop)]
  show Parser.bind (Parser.bind _ _) _ _ = Parser.bind _ _ _
  unfold Parser.bind
  cases parserAt limit d op.level s.skip <;> rfl

theorem parserAt_leaf (h : ∀ op : UnaryOp, s.peek.kind = op.kind → op.level < least) :
    parserAt limit (d + 1) least s =
      (leaf (Literal.parserAt limit d) (parserAt limit d 0) >>= fun e => Parser.stream >>= fun u =>
        behind limit d least u.rest.length e) s := by
  rw [parserAt, Parser.bind_of_ok (unaryParser_none h)]
  rfl

end Steps

section Soundness

variable {limit d least n : Nat} {ks : List TokenKind} {e : Expr} {s t : TokenStream}

theorem passes_nullTest {e' : Expr} {p : Position} (hs : s.Ends)
    (h : nullTestParser p e s = .ok e' t) :
    ∃ negated, s.Passes (if negated then [.keyword .NOT, .null] else [.null]) t ∧
      e' = isNull e negated p := by
  rw [nullTestParser] at h
  obtain ⟨negated, u, hnot, h⟩ := Parser.bind_eq_ok.mp h
  obtain ⟨_, w, hnull, h⟩ := Parser.bind_eq_ok.mp h
  cases h
  obtain ⟨hif, rfl⟩ := Parser.expect_eq_ok.mp hnull
  have hnull : u.peek.kind = .null := by simpa using hif
  by_cases hk : s.peek.kind = .keyword .NOT
  · rw [Parser.takeKeyword_true hk] at hnot
    cases hnot
    have hfirst := Passes.skip hs hk (by simp)
    exact ⟨true, hfirst.trans (.skip (hfirst.ends hs) hnull (by simp)), rfl⟩
  · rw [Parser.takeKeyword_false hk] at hnot
    cases hnot
    exact ⟨false, .skip hs hnull (by simp), rfl⟩

/-- The tests for null behind a phrase that binds tighter than any operator. -/
theorem spelled_of_nullTests {s₀ : TokenStream} {e' : Expr} {l : Nat} (hs : s₀.Ends)
    (hpass : s₀.Passes ks s) (hspelled : Spelled (d + 1) l ks e) (hl : 11 ≤ l)
    (hn : s.rest.length ≤ n) (h : nullTests n e s = .ok e' t) :
    ∃ l' ks', s₀.Passes ks' t ∧ Spelled (d + 1) l' ks' e' ∧ 11 ≤ l' ∧
      t.peek.kind ≠ .keyword .IS := by
  induction n generalizing s ks e l with
  | zero =>
    cases h
    refine ⟨l, ks, hpass, hspelled, hl, ?_⟩
    rw [(hpass.ends hs).peek_kind hn]
    simp
  | succ n ih =>
    by_cases hk : s.peek.kind = .keyword .IS
    · rw [nullTests_succ hk] at h
      obtain ⟨e₁, u, he₁, h⟩ := Parser.bind_eq_ok.mp h
      have hfirst := Passes.skip (hpass.ends hs) hk (by simp)
      obtain ⟨negated, htest, rfl⟩ := passes_nullTest (hfirst.ends (hpass.ends hs)) he₁
      have hskip := hfirst.length_skip
      have hlength := htest.length_eq
      exact ih (hpass.trans (hfirst.trans htest)) (.isNull hspelled hl) (Nat.le_refl _)
        (by omega) h
    · rw [nullTests_of_ne hk] at h
      cases h
      exact ⟨l, ks, hpass, hspelled, hl, hk⟩

/-- What the parser of operands gives. -/
def Sound (operand : Nat → Parser Expr) (d : Nat) : Prop :=
  ∀ least s e t, least ≤ 10 → s.Ends → operand least s = .ok e t →
    ∃ l ks, s.Passes ks t ∧ Spelled d l ks e ∧ least ≤ l ∧ Stops least t.peek.kind

/-- The operators behind a left operand: each finds all before it to bind tightly enough. -/
theorem spelled_of_operations {operand : Nat → Parser Expr} (hoperand : Sound operand d)
    {s₀ : TokenStream} {e' : Expr} {l : Nat} (hs : s₀.Ends) (hpass : s₀.Passes ks s)
    (hspelled : Spelled (d + 1) l ks e) (hl : least ≤ l) (hnext : MayFollow l s.peek.kind)
    (hn : s.rest.length ≤ n) (h : operations operand least n e s = .ok e' t) :
    ∃ l' ks', s₀.Passes ks' t ∧ Spelled (d + 1) l' ks' e' ∧ least ≤ l' ∧
      Stops least t.peek.kind := by
  induction n generalizing s ks e l with
  | zero =>
    cases h
    refine ⟨l, ks, hpass, hspelled, hl, hnext.1, fun op hop => ?_⟩
    rw [(hpass.ends hs).peek_kind hn] at hop
    cases hop
  | succ n ih =>
    by_cases hop : ∃ op : BinaryOp, s.peek.kind = op.kind ∧ least ≤ op.level
    · obtain ⟨op, hk, hop⟩ := hop
      rw [operations_succ hk hop] at h
      obtain ⟨r, u, hr, h⟩ := Parser.bind_eq_ok.mp h
      have hfirst := Passes.skip (hpass.ends hs) hk (by cases op <;> simp [BinaryOp.kind])
      have hright := Nat.le_succ_of_le (rightLevel_le op)
      obtain ⟨m, rs, hrs, hspelled', hm, hstops⟩ :=
        hoperand _ _ _ _ hright (hfirst.ends (hpass.ends hs)) hr
      have hfollow : MayFollow op.level u.peek.kind :=
        ⟨hstops.1, fun q hq => (leftLevel_le_level_iff q op).mpr (hstops.2 q hq)⟩
      have hskip := hfirst.length_skip
      have hlength := hrs.length_eq
      exact ih (hpass.trans (hfirst.trans hrs))
        (.binary hspelled (hnext.2 op (binaryOf?_eq_some.mpr hk)) hspelled' hm) hop hfollow
        (by omega) h
    · have hstops : Stops least s.peek.kind := by
        refine ⟨hnext.1, fun q hq => Nat.lt_of_not_le fun hlevel => ?_⟩
        exact hop ⟨q, binaryOf?_eq_some.mp hq, hlevel⟩
      rw [operations_of_stops hstops] at h
      cases h
      exact ⟨l, ks, hpass, hspelled, hl, hstops⟩

theorem spelled_of_leaf {inner : Parser Expr} (hinner : ∀ s e t, s.Ends → inner s = .ok e t →
      ∃ l ks, s.Passes ks t ∧ Spelled d l ks e) (hs : s.Ends)
    (h : leaf (Literal.parserAt limit d) inner s = .ok e t) :
    ∃ ks, s.Passes ks t ∧ Spelled (d + 1) 12 ks e := by
  by_cases hliteral : startsLiteral s.peek.kind = true
  · rw [leaf_literal hliteral] at h
    obtain ⟨v, u, hv, h⟩ := Parser.bind_eq_ok.mp h
    cases h
    obtain ⟨ks, hks, hspelled⟩ := Literal.spelled_of_parserAt hs hv
    obtain ⟨k, ks, rfl, -⟩ := hspelled.exists_cons
    rw [hks.cons_inv.1] at hliteral
    exact ⟨_, hks, .literal hliteral hspelled⟩
  by_cases hparen : s.peek.kind = .symbol .lparen
  · rw [leaf_lparen hparen] at h
    obtain ⟨e', u, he, h⟩ := Parser.bind_eq_ok.mp h
    obtain ⟨_, _, hclose, h⟩ := Parser.bind_eq_ok.mp h
    cases h
    obtain ⟨hk, -, rfl⟩ := Parser.symbol_eq_ok.mp hclose
    have hfirst := Passes.skip hs hparen (by simp)
    obtain ⟨l, ks, hks, hspelled⟩ := hinner _ _ _ (hfirst.ends hs) he
    have hlast := Passes.skip (hks.ends (hfirst.ends hs)) hk (by simp)
    exact ⟨_, hfirst.trans (hks.trans hlast), .parens hspelled⟩
  cases hk : s.peek.kind with
  | ident name =>
    rw [leaf_ident hk] at h
    cases h
    exact ⟨_, .skip hs hk (by simp), .column⟩
  | symbol o =>
    rw [leaf, Parser.stream_bind, hk] at h
    rw [hk] at hliteral hparen
    cases o <;> first | cases h | exact absurd rfl hliteral | exact absurd rfl hparen
  | _ =>
    rw [leaf, Parser.stream_bind, hk] at h
    rw [hk] at hliteral
    change (if _ then _ else _ : Parser Expr) s = _ at h
    rw [if_neg hliteral] at h
    cases h

/-- What the parser takes spells what it returns, and the parser goes on for as long as it can. -/
theorem sound_parserAt : Sound (parserAt limit d) d := by
  induction d with
  | zero =>
    intro least s e t _ _ h
    cases h
  | succ d ih =>
    intro least s e t hleast hs h
    by_cases hop : ∃ op : UnaryOp, s.peek.kind = op.kind ∧ least ≤ op.level
    · obtain ⟨op, hk, hop⟩ := hop
      rw [parserAt_unary hk hop] at h
      obtain ⟨e₁, u, he₁, h⟩ := Parser.bind_eq_ok.mp h
      have hfirst := Passes.skip hs hk (by cases op <;> simp [UnaryOp.kind])
      obtain ⟨l, ks, hks, hspelled, hl, hstops⟩ :=
        ih _ _ _ _ (unary_level_le op) (hfirst.ends hs) he₁
      rw [Parser.stream_bind, behind_of_ne hstops.1] at h
      have hfollow : MayFollow op.level u.peek.kind :=
        ⟨hstops.1, fun q hq => (leftLevel_le_unary_iff q op).mpr (hstops.2 q hq)⟩
      exact spelled_of_operations ih hs (hfirst.trans hks) (.unary hspelled hl) hop hfollow
        (Nat.le_refl _) h
    · rw [parserAt_leaf fun op hk => Nat.lt_of_not_le fun hlevel => hop ⟨op, hk, hlevel⟩] at h
      obtain ⟨e₁, u, he₁, h⟩ := Parser.bind_eq_ok.mp h
      obtain ⟨ks, hks, hspelled⟩ := spelled_of_leaf
        (fun s e t hs h =>
          let ⟨l, ks, hks, hspelled, _⟩ := ih _ _ _ _ (Nat.zero_le _) hs h
          ⟨l, ks, hks, hspelled⟩) hs he₁
      rw [Parser.stream_bind, behind] at h
      obtain ⟨e₂, w, he₂, h⟩ := Parser.bind_eq_ok.mp h
      obtain ⟨l, ks', hks', hspelled', hl, hne⟩ :=
        spelled_of_nullTests hs hks hspelled (by omega) (Nat.le_refl _) he₂
      exact spelled_of_operations ih hs hks' hspelled' (by omega)
        ⟨hne, fun q _ => Nat.le_trans (leftLevel_le q) (by omega)⟩ (Nat.le_refl _) h

end Soundness

section Completeness

variable {limit d l least n : Nat} {ks : List TokenKind} {e : Expr} {s t : TokenStream}

theorem nullTestParser_of_passes {negated : Bool} {p : Position}
    (h : s.Passes (if negated then [.keyword .NOT, .null] else [.null]) t) :
    nullTestParser p e s = .ok (isNull e negated p) t := by
  cases negated with
  | true =>
    obtain ⟨hnot, h⟩ := h.cons_inv
    obtain ⟨hnull, h⟩ := h.cons_inv
    rw [nullTestParser, Parser.bind_of_ok (Parser.takeKeyword_true hnot),
      Parser.bind_of_ok (Parser.expect_eq_ok (a := ()).mpr ⟨by simp [hnull], rfl⟩), h.nil_inv]
    rfl
  | false =>
    obtain ⟨hnull, h⟩ := h.cons_inv
    rw [nullTestParser, Parser.bind_of_ok (Parser.takeKeyword_false (by simp [hnull])),
      Parser.bind_of_ok (Parser.expect_eq_ok (a := ()).mpr ⟨by simp [hnull], rfl⟩), h.nil_inv]
    rfl

theorem behind_isNull {negated : Bool} (h : s.Passes (nullKinds negated) t) :
    behind limit d least (n + 1) e s =
      behind limit d least n (isNull e negated s.peek.position) t := by
  obtain ⟨hk, h⟩ := h.cons_inv
  show Parser.bind _ _ s = Parser.bind _ _ t
  unfold Parser.bind
  rw [nullTests_succ hk, Parser.bind_of_ok (nullTestParser_of_passes h)]

/-- Behind a phrase that binds tighter than any operator, the parser is at the tests for null. -/
def TakesAtom (limit d : Nat) (ks : List TokenKind) (e : Expr) : Prop :=
  ∀ s t, s.Passes ks t → ∃ e' n, e'.bare = e.bare ∧ t.rest.length ≤ n ∧
    ∀ least, parserAt limit d least s = behind limit (d - 1) least n e' t

/-- Behind a phrase that is a left operand as a whole, the parser is at the operators. -/
def Takes (limit d l : Nat) (ks : List TokenKind) (e : Expr) : Prop :=
  ∀ s t, s.Passes ks t → MayFollow l t.peek.kind → ∃ e' n, e'.bare = e.bare ∧ t.rest.length ≤ n ∧
    ∀ least ≤ l, parserAt limit d least s = operations (parserAt limit (d - 1)) least n e' t

theorem TakesAtom.takes (h : TakesAtom limit d ks e) : Takes limit d l ks e := by
  intro s t hpass hnext
  obtain ⟨e', n, he, -, heq⟩ := h s t hpass
  exact ⟨e', _, he, Nat.le_refl _, fun least _ => by rw [heq, behind_of_ne hnext.1]⟩

theorem Takes.parserAt_eq (h : Takes limit d l ks e) (hpass : s.Passes ks t) (hleast : least ≤ l)
    (hstops : Stops least t.peek.kind) :
    ∃ e', e'.bare = e.bare ∧ parserAt limit d least s = .ok e' t := by
  obtain ⟨e', n, he, -, heq⟩ := h s t hpass (hstops.mayFollow hleast)
  exact ⟨e', he, by rw [heq least hleast, operations_of_stops hstops]⟩

theorem parserAt_of_leaf {e' : Expr} (hk : ∀ op : UnaryOp, s.peek.kind ≠ op.kind)
    (h : leaf (Literal.parserAt limit d) (parserAt limit d 0) s = .ok e' t) (least : Nat) :
    parserAt limit (d + 1) least s = behind limit d least t.rest.length e' t := by
  rw [parserAt_leaf fun op hop => absurd hop (hk op), Parser.bind_of_ok h,
    Parser.stream_bind]

theorem takesAtom_column {name : String} {p : Position} :
    TakesAtom limit (d + 1) [.ident name] (column ⟨name, p⟩) := by
  intro s t hpass
  obtain ⟨hk, hpass⟩ := hpass.cons_inv
  refine ⟨column ⟨name, s.peek.position⟩, t.rest.length, rfl, Nat.le_refl _, ?_⟩
  refine parserAt_of_leaf (fun op => ?_) ?_
  · rw [hk]
    cases op <;> simp [UnaryOp.kind]
  · rw [leaf_ident hk, hpass.nil_inv]

theorem takesAtom_literal {k : TokenKind} {v : Literal} {p : Position} (hk : startsLiteral k)
    (h : Literal.Spelled d (k :: ks) v) : TakesAtom limit (d + 1) (k :: ks) (literal v p) := by
  intro s t hpass
  rw [← hpass.cons_inv.1] at hk
  refine ⟨literal v s.peek.position, t.rest.length, rfl, Nat.le_refl _, ?_⟩
  refine parserAt_of_leaf (fun op hop => ?_) ?_
  · rw [hop] at hk
    cases op <;> cases hk
  · rw [leaf_literal hk, Parser.bind_of_ok (h.parserAt_eq hpass)]
    rfl

theorem Takes.parens (h : Takes limit d l ks e) :
    TakesAtom limit (d + 1) (.symbol .lparen :: (ks ++ [.symbol .rparen])) e := by
  intro s t hpass
  obtain ⟨hk, hpass⟩ := hpass.cons_inv
  obtain ⟨u, hinner, hpass⟩ := hpass.append_inv
  obtain ⟨hclose, hpass⟩ := hpass.cons_inv
  have hstops : Stops 0 u.peek.kind := by
    rw [hclose]
    exact ⟨by simp, fun op hop => by cases hop⟩
  obtain ⟨e', he, heq⟩ := h.parserAt_eq hinner (Nat.zero_le _) hstops
  refine ⟨e', t.rest.length, he, Nat.le_refl _, ?_⟩
  refine parserAt_of_leaf (fun op => ?_) ?_
  · rw [hk]
    cases op <;> simp [UnaryOp.kind]
  · rw [leaf_lparen hk, Parser.bind_of_ok heq,
      Parser.bind_of_ok (Parser.symbol_eq_ok.mpr ⟨hclose, rfl, rfl⟩), hpass.nil_inv]
    rfl

theorem Takes.unary {op : UnaryOp} {p : Position} (h : Takes limit d l ks e)
    (hl : op.level ≤ l) : Takes limit (d + 1) op.level (op.kind :: ks) (unary op e p) := by
  intro s t hpass hnext
  obtain ⟨hk, hpass⟩ := hpass.cons_inv
  have hstops : Stops op.level t.peek.kind :=
    ⟨hnext.1, fun q hq => (leftLevel_le_unary_iff q op).mp (hnext.2 q hq)⟩
  obtain ⟨e', he, heq⟩ := h.parserAt_eq hpass hl hstops
  refine ⟨.unary op e' s.peek.position, t.rest.length, ?_, Nat.le_refl _, fun least hleast => ?_⟩
  · rw [bare, bare, he]
  · rw [parserAt_unary hk hleast, Parser.bind_of_ok heq, Parser.stream_bind,
      behind_of_ne hnext.1, Nat.add_sub_cancel]

theorem TakesAtom.isNull {negated : Bool} {p : Position} (h : TakesAtom limit d ks e) :
    TakesAtom limit d (ks ++ nullKinds negated) (isNull e negated p) := by
  intro s t hpass
  obtain ⟨u, hpass, htest⟩ := hpass.append_inv
  obtain ⟨e', n, he, hn, heq⟩ := h s u hpass
  have hlength := htest.length_eq
  obtain ⟨n, rfl⟩ : ∃ m, n = m + 1 := ⟨n - 1, by have := htest.length_skip; omega⟩
  refine ⟨.isNull e' negated u.peek.position, n, ?_, ?_, fun least => ?_⟩
  · rw [bare, bare, he]
  · have : 1 ≤ (nullKinds negated).length := by simp [nullKinds]
    omega
  · rw [heq, behind_isNull htest]

theorem Takes.binary {m : Nat} {ls rs : List TokenKind} {x y : Expr} {op : BinaryOp} {p : Position}
    (hx : Takes limit (d + 1) l ls x) (hl : op.leftLevel ≤ l) (hy : Takes limit d m rs y)
    (hm : op.rightLevel ≤ m) :
    Takes limit (d + 1) op.level (ls ++ op.kind :: rs) (binary op x y p) := by
  intro s t hpass hnext
  obtain ⟨u, hleft, hpass⟩ := hpass.append_inv
  have hskip := hpass.length_skip
  obtain ⟨hk, hright⟩ := hpass.cons_inv
  have hfollow : MayFollow l u.peek.kind := by
    rw [hk]
    refine ⟨by cases op <;> simp [BinaryOp.kind], fun q hq => ?_⟩
    cases (binaryOf?_eq_some.mpr rfl).symm.trans hq
    exact hl
  have hstops : Stops op.rightLevel t.peek.kind :=
    ⟨hnext.1, fun q hq => (leftLevel_le_level_iff q op).mp (hnext.2 q hq)⟩
  obtain ⟨x', n, hx', hn, hleft'⟩ := hx s u hleft hfollow
  obtain ⟨y', hy', hright'⟩ := hy.parserAt_eq hright hm hstops
  have hlength := hright.length_eq
  obtain ⟨n, rfl⟩ : ∃ j, n = j + 1 := ⟨n - 1, by omega⟩
  refine ⟨.binary op x' y' u.peek.position, n, ?_, by omega, fun least hleast => ?_⟩
  · rw [bare, bare, hx', hy']
  · have hlevel := level_le_leftLevel op
    rw [hleft' least (by omega), Nat.add_sub_cancel, operations_succ hk hleast,
      Parser.bind_of_ok hright']

/-- Where a spelling stands, the parser takes it. -/
theorem takes_of_spelled (h : Spelled d l ks e) :
    (11 ≤ l → TakesAtom limit d ks e) ∧ Takes limit d l ks e := by
  induction h with
  | column => exact ⟨fun _ => takesAtom_column, takesAtom_column.takes⟩
  | literal hk h => exact ⟨fun _ => takesAtom_literal hk h, (takesAtom_literal hk h).takes⟩
  | parens _ ih => exact ⟨fun _ => ih.2.parens, ih.2.parens.takes⟩
  | @unary d l ks e op p _ hl ih =>
    exact ⟨fun hlevel => absurd (unary_level_le op) (by omega), ih.2.unary hl⟩
  | isNull _ hl ih => exact ⟨fun _ => (ih.1 hl).isNull, (ih.1 hl).isNull.takes⟩
  | @binary d m n ls rs x y op p _ hm _ hn ihx ihy =>
    refine ⟨fun hlevel => absurd (leftLevel_le op) ?_, ihx.2.binary hm ihy.2 hn⟩
    have := level_le_leftLevel op
    omega

/-- Where a spelling stands that nothing goes on with, it is parsed under any limit that leaves it
enough levels. -/
theorem parser_of_spelled (h : Spelled d l ks e) (hd : d ≤ limit) (hpass : s.Passes ks t)
    (hstops : Stops 0 t.peek.kind) : ∃ e', e'.bare = e.bare ∧ parser limit s = .ok e' t :=
  (takes_of_spelled (h.weaken hd)).2.parserAt_eq hpass (Nat.zero_le _) hstops

end Completeness
end Expr
end Attest
