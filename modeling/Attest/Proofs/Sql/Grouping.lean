import Attest.Node.Sql
import Attest.Proofs.Expr.Precedence
import Attest.Proofs.Expr.Text

/-!
How the text of a condition groups.

The SQL of a condition puts an operator between two operands into parentheses, and the operand of
one in front.  It leaves bare the operand of a test for null, and an operator in front as such.
Read by the grammar of this language, such a text has one operator in front at most, and that takes
all that binds tighter: the tests for null behind it, and with `NOT` the operators behind it that
are not logical.  So the tree of the text can be told from the tree of the condition (`reading`),
and the two are the same exactly if no operator in front is tested for null and no `NOT` is an
operand of an operator that is not logical (`keepsTree`).
-/

namespace Attest

/-- A condition of identifiers, natural numbers, truth values and operators other than the power,
and the expression that has its tree. -/
inductive Predicate.HasTree : Predicate → Expr → Prop where
  | column {c : ColumnRef} (hname : (TokenKind.ident c.name).Lexed) :
      HasTree (.column c) (.column ⟨c.name, .start⟩)
  | nat {v : TypedValue} {n : UInt64} (hv : v.value = .nat n) :
      HasTree (.literal v) (.literal (.nat n) .start)
  | bool {v : TypedValue} {b : Bool} (hv : v.value = .bool b) :
      HasTree (.literal v) (.literal (.bool b) .start)
  | unary {p : Predicate} {e : Expr} (op : UnaryOp) (h : HasTree p e) :
      HasTree (.unary op p) (.unary op e .start)
  | binary {l r : Predicate} {x y : Expr} {op : BinaryOp} (hop : op ≠ .pow) (hl : HasTree l x)
      (hr : HasTree r y) : HasTree (.binary op l r) (.binary op x y .start)
  | isNull {p : Predicate} {e : Expr} (h : HasTree p e) (negated : Bool) :
      HasTree (.isNull p negated) (.isNull e negated .start)

namespace Expr

open Lexer (ReadsAs)
open TokenStream (Passes)

def enclosed (ks : List TokenKind) : List TokenKind :=
  .symbol .lparen :: (ks ++ [.symbol .rparen])

/-- The tokens of the SQL of an expression. -/
def sqlKinds : Expr → List TokenKind
  | column id => [.ident id.name]
  | literal v _ => v.kind?.toList
  | unary op e _ => op.kind :: enclosed e.sqlKinds
  | binary op l r _ => enclosed (l.sqlKinds ++ op.kind :: r.sqlKinds)
  | isNull e negated _ => e.sqlKinds ++ nullKinds negated

/-- An expression as it is met from the left: the operator in front, if there is one, and the
rest. -/
structure Reading where
  front : Option UnaryOp
  rest : Expr

namespace Reading

def whole (q : Reading) : Expr :=
  match q.front with
  | none => q.rest
  | some op => .unary op q.rest .start

def level (q : Reading) : Nat :=
  match q.front with
  | none => 11
  | some op => op.level

/-- An operator in front, and the rest in parentheses. -/
def unary (op : UnaryOp) (q : Reading) : Reading := ⟨some op, q.whole⟩

/-- A test for null, which an operator in front takes along. -/
def isNull (negated : Bool) (q : Reading) : Reading := ⟨q.front, .isNull q.rest negated .start⟩

/-- An operator between two readings, in parentheses.  Unless it is logical, a `NOT` on its left
takes it along, and on its right there can be none. -/
def binary (op : BinaryOp) (a b : Reading) : Option Reading :=
  if op.isLogical then some ⟨none, .binary op a.whole b.whole .start⟩
  else if b.front = some .not then none
  else if a.front = some .not then
    some ⟨none, .unary .not (.binary op a.rest b.whole .start) .start⟩
  else some ⟨none, .binary op a.whole b.whole .start⟩

end Reading

/-- What the SQL of an expression is read as, if it can be read. -/
def reading : Expr → Option Reading
  | column id => some ⟨none, column ⟨id.name, .start⟩⟩
  | literal v _ => some ⟨none, literal v .start⟩
  | unary op e _ => e.reading.map (·.unary op)
  | binary op l r _ => l.reading.bind fun a => r.reading.bind fun b => a.binary op b
  | isNull e negated _ => e.reading.map (·.isNull negated)

def front? : Expr → Option UnaryOp
  | unary op _ _ => some op
  | _ => none

/-- Whether no operator in front is tested for null, and no `NOT` is an operand of an operator that
is not logical. -/
def keepsTree : Expr → Bool
  | column _ => true
  | literal _ _ => true
  | unary _ e _ => e.keepsTree
  | binary op l r _ =>
    (op.isLogical || (l.front? != some .not && r.front? != some .not))
      && l.keepsTree && r.keepsTree
  | isNull e _ _ => e.front?.isNone && e.keepsTree

section Trees

variable {e : Expr} {q : Reading}

theorem reading_of_keepsTree (h : e.keepsTree = true) :
    ∃ q, e.reading = some q ∧ q.whole = e.bare ∧ q.front = e.front? := by
  induction e with
  | column id => exact ⟨_, rfl, rfl, rfl⟩
  | literal v p => exact ⟨_, rfl, rfl, rfl⟩
  | unary op e p ih =>
    obtain ⟨q, hq, hwhole, -⟩ := ih h
    exact ⟨q.unary op, by rw [reading, hq]; rfl, congrArg (Expr.unary op · .start) hwhole, rfl⟩
  | isNull e negated p ih =>
    obtain ⟨hfront, h⟩ := Bool.and_eq_true_iff.mp h
    obtain ⟨q, hq, hwhole, hq'⟩ := ih h
    have hnone : q.front = none := hq'.trans (by simpa using hfront)
    refine ⟨q.isNull negated, by rw [reading, hq]; rfl, ?_, hnone⟩
    rw [Reading.whole, hnone] at hwhole
    rw [Reading.whole, Reading.isNull, hnone, bare, ← hwhole]
  | binary op l r p ihl ihr =>
    simp only [keepsTree, Bool.and_eq_true, Bool.or_eq_true, bne_iff_ne] at h
    obtain ⟨⟨hop, hl⟩, hr⟩ := h
    obtain ⟨a, ha, hawhole, hafront⟩ := ihl hl
    obtain ⟨b, hb, hbwhole, hbfront⟩ := ihr hr
    refine ⟨⟨none, .binary op a.whole b.whole .start⟩, ?_, ?_, rfl⟩
    · rw [reading, ha, hb]
      show a.binary op b = _
      unfold Reading.binary
      rw [hafront, hbfront]
      rcases hop with hop | ⟨hnotl, hnotr⟩
      · rw [if_pos hop]
      · rw [if_neg hnotl, if_neg hnotr, ite_self]
    · rw [Reading.whole, bare, hawhole, hbwhole]

theorem Reading.bare_whole (h : q.rest.bare = q.rest) : q.whole.bare = q.whole := by
  unfold Reading.whole
  split
  · exact h
  · rw [bare, h]

/-- What is read has no places in it. -/
theorem bare_of_reading (hq : e.reading = some q) : q.rest.bare = q.rest := by
  induction e generalizing q with
  | column id =>
    cases hq
    rfl
  | literal v p =>
    cases hq
    rfl
  | unary op e p ih =>
    obtain ⟨a, ha, rfl⟩ := Option.map_eq_some_iff.mp hq
    exact Reading.bare_whole (ih ha)
  | isNull e negated p ih =>
    obtain ⟨a, ha, rfl⟩ := Option.map_eq_some_iff.mp hq
    exact congrArg (Expr.isNull · negated .start) (ih ha)
  | binary op l r p ihl ihr =>
    obtain ⟨a, ha, hq⟩ := Option.bind_eq_some_iff.mp hq
    obtain ⟨b, hb, hq⟩ := Option.bind_eq_some_iff.mp hq
    have hl := ihl ha
    have hr := ihr hb
    unfold Reading.binary at hq
    split_ifs at hq <;> cases hq <;> simp [bare, hl, hr, Reading.bare_whole]

theorem front_of_reading (hq : e.reading = some q) (h : q.whole = e.bare) :
    q.front = e.front? := by
  cases e with
  | column id =>
    cases hq
    rfl
  | literal v p =>
    cases hq
    rfl
  | unary op e p =>
    obtain ⟨a, -, rfl⟩ := Option.map_eq_some_iff.mp hq
    rfl
  | isNull e negated p =>
    obtain ⟨a, -, rfl⟩ := Option.map_eq_some_iff.mp hq
    rw [Reading.whole] at h
    split at h
    · next hnone => exact hnone
    · cases h
  | binary op l r p =>
    obtain ⟨a, -, hq⟩ := Option.bind_eq_some_iff.mp hq
    obtain ⟨b, -, hq⟩ := Option.bind_eq_some_iff.mp hq
    unfold Reading.binary at hq
    split_ifs at hq <;> cases hq <;> rfl

theorem keepsTree_of_reading (hq : e.reading = some q) (h : q.whole = e.bare) :
    e.keepsTree = true := by
  induction e generalizing q with
  | column id => rfl
  | literal v p => rfl
  | unary op e p ih =>
    obtain ⟨a, ha, rfl⟩ := Option.map_eq_some_iff.mp hq
    exact ih ha (Expr.unary.inj h).2.1
  | isNull e negated p ih =>
    have hfront := front_of_reading hq h
    obtain ⟨a, ha, rfl⟩ := Option.map_eq_some_iff.mp hq
    have hnone : a.front = none := hfront
    rw [Reading.whole, hfront] at h
    have hwhole : a.whole = e.bare := by
      rw [Reading.whole, hnone]
      exact (Expr.isNull.inj h).1
    rw [keepsTree, ih ha hwhole, ← front_of_reading ha hwhole, hnone]
    rfl
  | binary op l r p ihl ihr =>
    obtain ⟨a, ha, hq⟩ := Option.bind_eq_some_iff.mp hq
    obtain ⟨b, hb, hq⟩ := Option.bind_eq_some_iff.mp hq
    have hsides (hsame : Expr.binary op a.whole b.whole .start = (Expr.binary op l r p).bare) :
        l.keepsTree = true ∧ r.keepsTree = true ∧ a.front = l.front? ∧ b.front = r.front? := by
      obtain ⟨-, hl, hr, -⟩ := Expr.binary.inj hsame
      exact ⟨ihl ha hl, ihr hb hr, front_of_reading ha hl, front_of_reading hb hr⟩
    unfold Reading.binary at hq
    split_ifs at hq with hop hright hleft
    · cases hq
      obtain ⟨hl, hr, -, -⟩ := hsides h
      simp [keepsTree, hop, hl, hr]
    · cases hq
      cases h
    · cases hq
      obtain ⟨hl, hr, hafront, hbfront⟩ := hsides h
      rw [hafront] at hleft
      rw [hbfront] at hright
      simp [keepsTree, hl, hr, hleft, hright]

end Trees

section Spelling

variable {d : Nat} {ks ls rs : List TokenKind} {q a b : Reading}

/-- A reading can be an operand, unless `NOT` is in front and the operator is not logical. -/
theorem Reading.levels_le {op : BinaryOp} (h : op.isLogical = true ∨ q.front ≠ some .not) :
    op.leftLevel ≤ q.level ∧ op.rightLevel ≤ q.level := by
  have hleft := leftLevel_le op
  have hright := rightLevel_le op
  unfold Reading.level
  split
  · omega
  · next sign hsign =>
    cases sign with
    | neg | plus => exact ⟨hleft, hright.trans (by decide)⟩
    | not =>
      rcases h with h | h
      · cases op <;> first | decide | cases h
      · exact absurd hsign h

/-- Tokens spell a reading: the operator in front, and then a phrase that binds tighter than any
operator. -/
def Reading.SpelledBy (q : Reading) (d : Nat) (ks : List TokenKind) : Prop :=
  ∃ l xs, ks = (q.front.map UnaryOp.kind).toList ++ xs ∧ 11 ≤ l ∧ Spelled d l xs q.rest

namespace Reading.SpelledBy

theorem weaken {d' : Nat} (h : q.SpelledBy d ks) (hd : d ≤ d') : q.SpelledBy d' ks := by
  obtain ⟨l, xs, hks, hl, hspelled⟩ := h
  exact ⟨l, xs, hks, hl, hspelled.weaken hd⟩

theorem whole (h : q.SpelledBy d ks) : ∃ l, q.level ≤ l ∧ Spelled (d + 1) l ks q.whole := by
  obtain ⟨l, xs, rfl, hl, hspelled⟩ := h
  unfold Reading.level Reading.whole
  cases q.front with
  | none => exact ⟨l, hl, hspelled.succ⟩
  | some op =>
    have hop := unary_level_le op
    exact ⟨op.level, Nat.le_refl _, .unary hspelled (by omega)⟩

theorem unary (op : UnaryOp) (h : q.SpelledBy d ks) :
    (q.unary op).SpelledBy (d + 2) (op.kind :: enclosed ks) := by
  obtain ⟨l, -, hspelled⟩ := h.whole
  exact ⟨12, enclosed ks, rfl, by omega, .parens hspelled⟩

theorem isNull (negated : Bool) (h : q.SpelledBy d ks) :
    (q.isNull negated).SpelledBy (d + 1) (ks ++ nullKinds negated) := by
  obtain ⟨l, xs, rfl, hl, hspelled⟩ := h
  exact ⟨11, xs ++ nullKinds negated, by rw [List.append_assoc]; rfl, Nat.le_refl _,
    .isNull hspelled.succ hl⟩

theorem binary {op : BinaryOp} (ha : a.SpelledBy d ls) (hb : b.SpelledBy d rs)
    (hq : a.binary op b = some q) : q.SpelledBy (d + 4) (enclosed (ls ++ op.kind :: rs)) := by
  obtain ⟨m, hm, hleft⟩ := ha.whole
  obtain ⟨n, hn, hright⟩ := hb.whole
  -- each side binds as tightly as the operator asks
  have hsides (hop : op.leftLevel ≤ a.level) (hop' : op.rightLevel ≤ b.level) :
      SpelledBy ⟨none, .binary op a.whole b.whole .start⟩ (d + 4)
        (enclosed (ls ++ op.kind :: rs)) :=
    ⟨12, _, rfl, by omega, .parens (.binary (hleft.weaken (by omega)) (by omega)
      (hright.weaken (by omega)) (by omega))⟩
  unfold Reading.binary at hq
  split_ifs at hq with hlogical hnotright hnotleft
  · cases hq
    exact hsides (levels_le (.inl hlogical)).1 (levels_le (.inl hlogical)).2
  · cases hq
    obtain ⟨l, xs, rfl, hl, hrest⟩ := ha
    have hop : 3 ≤ op.level := by cases op <;> first | decide | exact absurd rfl hlogical
    have hlevels := leftLevel_le op
    have hlevels' : op.rightLevel ≤ b.level := (levels_le (.inr hnotright)).2
    have hinner : Spelled (d + 2) op.level (xs ++ op.kind :: rs)
        (.binary op a.rest b.whole .start) :=
      .binary (hrest.weaken (by omega)) (by omega) hright (by omega)
    have hnot : Spelled (d + 3) UnaryOp.not.level (UnaryOp.not.kind :: (xs ++ op.kind :: rs))
        (.unary .not (.binary op a.rest b.whole .start) .start) := .unary hinner hop
    rw [hnotleft]
    exact ⟨12, _, rfl, by omega, .parens hnot⟩
  · cases hq
    exact hsides (levels_le (.inr hnotleft)).1 (levels_le (.inr hnotright)).2

end Reading.SpelledBy
end Spelling

section Refusal

variable {limit d least n : Nat} {ks ls : List TokenKind} {s t : TokenStream}

/-- No expression at a level begins with tokens of these kinds, if this many levels of nesting are
left. -/
def RefusedAt (depth least : Nat) (ks : List TokenKind) : Prop :=
  ∀ limit d s t, depth ≤ d → s.Passes ks t → ∃ err u, parserAt limit d least s = .fail err u

/-- No expression at a level begins with tokens of these kinds, if enough levels of nesting are
left. -/
def Refused (least : Nat) (ks : List TokenKind) : Prop := ∃ depth, RefusedAt depth least ks

theorem leaf_of_unary (literal : Parser Literal) (inner : Parser Expr) {op : UnaryOp}
    (h : s.peek.kind = op.kind) : ∃ err u, leaf literal inner s = .fail err u := by
  rw [leaf, Parser.stream_bind, h]
  cases op <;> exact ⟨_, _, rfl⟩

theorem parserAt_of_tight {op : UnaryOp} (hk : s.peek.kind = op.kind) (hop : op.level < least) :
    ∃ err u, parserAt limit (d + 1) least s = .fail err u := by
  obtain ⟨err, u, hleaf⟩ := leaf_of_unary (Literal.parserAt limit d) (parserAt limit d 0) hk
  refine ⟨err, u, ?_⟩
  rw [parserAt_leaf, Parser.bind_of_fail hleaf]
  intro op' hk'
  cases (unaryOf?_eq_some.mpr hk).symm.trans (unaryOf?_eq_some.mpr hk')
  exact hop

namespace Refused

theorem append (h : Refused least ks) (ls : List TokenKind) : Refused least (ks ++ ls) := by
  obtain ⟨depth, h⟩ := h
  refine ⟨depth, fun limit d s t hd hpass => ?_⟩
  obtain ⟨u, hfirst, -⟩ := hpass.append_inv
  exact h limit d s u hd hfirst

/-- The operand of an operator in front is refused, or else the operator is. -/
theorem unary {op : UnaryOp} (h : Refused op.level ks) : Refused least (op.kind :: ks) := by
  obtain ⟨depth, h⟩ := h
  refine ⟨depth + 1, fun limit d s t hd hpass => ?_⟩
  obtain ⟨d, rfl⟩ : ∃ j, d = j + 1 := ⟨d - 1, by omega⟩
  obtain ⟨hk, hpass⟩ := hpass.cons_inv
  by_cases hop : least ≤ op.level
  · obtain ⟨err, u, hfail⟩ := h limit d _ t (by omega) hpass
    exact ⟨err, u, by rw [parserAt_unary hk hop, Parser.bind_of_fail hfail]⟩
  · exact parserAt_of_tight hk (by omega)

theorem enclosed (h : Refused 0 ks) : Refused least (enclosed ks) := by
  obtain ⟨depth, h⟩ := h
  refine ⟨depth + 1, fun limit d s t hd hpass => ?_⟩
  obtain ⟨d, rfl⟩ : ∃ j, d = j + 1 := ⟨d - 1, by omega⟩
  obtain ⟨hk, hpass⟩ := hpass.cons_inv
  obtain ⟨u, hinner, -⟩ := hpass.append_inv
  obtain ⟨err, w, hfail⟩ := h limit d _ u (by omega) hinner
  refine ⟨err, w, ?_⟩
  rw [parserAt_leaf]
  · apply Parser.bind_of_fail
    rw [leaf_lparen hk, Parser.bind_of_fail hfail]
  · intro op hop
    rw [hk] at hop
    cases op <;> cases hop

/-- At an operator, the parser goes on with the right operand behind any left one. -/
theorem operations_of_operand {op : BinaryOp} {rs : List TokenKind} {x : Expr} {depth : Nat}
    (h : RefusedAt depth op.rightLevel rs) (hpass : s.Passes (op.kind :: rs) t)
    (hd : depth ≤ d) (hop : least ≤ op.level) (hn : s.rest.length ≤ n) :
    ∃ err u, operations (parserAt limit d) least n x s = .fail err u := by
  have hskip := hpass.length_skip
  obtain ⟨hk, hright⟩ := hpass.cons_inv
  obtain ⟨n, rfl⟩ : ∃ k, n = k + 1 := ⟨n - 1, by omega⟩
  obtain ⟨err, u, hfail⟩ := h limit d _ t hd hright
  exact ⟨err, u, by rw [operations_succ hk hop, Parser.bind_of_fail hfail]⟩

/-- The right operand is refused, whether the operator before it belongs to the whole left operand
or to what a `NOT` in front stands before. -/
theorem operand {a : Reading} {op : BinaryOp} {rs : List TokenKind} (ha : a.SpelledBy d ls)
    (h : Refused op.rightLevel rs) : Refused 0 (ls ++ op.kind :: rs) := by
  obtain ⟨depth, h⟩ := h
  refine ⟨max (depth + 2) (d + 2), fun limit j s t hj hpass => ?_⟩
  obtain ⟨j, rfl⟩ : ∃ i, j = i + 2 := ⟨j - 2, by omega⟩
  obtain ⟨u, hleft, hright⟩ := hpass.append_inv
  have hk := hright.cons_inv.1
  have hne : u.peek.kind ≠ .keyword .IS := by
    rw [hk]
    cases op <;> simp [BinaryOp.kind]
  by_cases hoperand : op.isLogical = true ∨ a.front ≠ some .not
  · obtain ⟨m, hm, hwhole⟩ := ha.whole
    have hlevel := (Reading.levels_le hoperand).1
    have hfollow : MayFollow m u.peek.kind := by
      refine ⟨hne, fun q hq => ?_⟩
      rw [hk] at hq
      cases (binaryOf?_eq_some.mpr rfl).symm.trans hq
      omega
    have htakes : Takes limit (j + 2) m ls a.whole :=
      (takes_of_spelled (hwhole.weaken (by omega))).2
    obtain ⟨x, n, -, hn, hwhole⟩ := htakes _ _ hleft hfollow
    rw [hwhole 0 (Nat.zero_le _)]
    exact operations_of_operand h hright (by omega) (Nat.zero_le _) hn
  · obtain ⟨hlogical, hfront⟩ := not_or.mp hoperand
    obtain ⟨l, xs, rfl, hl, hrest⟩ := ha
    rw [not_not.mp hfront] at hleft
    obtain ⟨hnot, hleft⟩ := hleft.cons_inv
    have htakes : TakesAtom limit (j + 1) xs a.rest :=
      (takes_of_spelled (hrest.weaken (by omega))).1 hl
    obtain ⟨x, n, -, -, hatom⟩ := htakes _ _ hleft
    have hop : 3 ≤ op.level := by cases op <;> first | decide | exact absurd rfl hlogical
    obtain ⟨err, w, hfail⟩ := operations_of_operand (x := x) h hright (show depth ≤ j by omega)
      hop (Nat.le_refl _)
    refine ⟨err, w, ?_⟩
    rw [parserAt_unary hnot (Nat.zero_le _)]
    apply Parser.bind_of_fail
    rw [hatom, behind_of_ne hne]
    exact hfail

end Refused
end Refusal
end Expr

namespace Predicate.HasTree

open Lexer (ReadsAs)

variable {p : Predicate} {e : Expr}

theorem bare (h : p.HasTree e) : e.bare = e := by
  induction h with
  | column | nat | bool => rfl
  | unary op _ ih => rw [Expr.bare, ih]
  | binary _ _ _ ihl ihr => rw [Expr.bare, ihl, ihr]
  | isNull _ negated ih => rw [Expr.bare, ih]

theorem readsAs_bool (b : Bool) :
    ReadsAs (if b then "TRUE" else "FALSE").toList [.bool b] := by
  have hword : Lexer.IsWord (if b then "TRUE" else "FALSE") := by
    unfold Lexer.IsWord
    cases b <;> simp <;> decide
  have hkind : Lexer.wordKind (if b then "TRUE" else "FALSE") = .bool b := by
    cases b <;> decide +kernel
  rw [← hkind]
  exact Lexer.readsAs_word hword

theorem readsAs_enclosed {cs : List Char} {ks : List TokenKind} (h : ReadsAs cs ks) :
    ReadsAs ('(' :: (cs ++ [')'])) (Expr.enclosed ks) :=
  Lexer.readsAs_enclosed h (by decide) (by decide) (by decide)

/-- The SQL of a condition is read as the tokens of its tree. -/
theorem readsAs (h : p.HasTree e) : ReadsAs (Sql.predicate p).toList e.sqlKinds := by
  induction h with
  | @column c hname =>
    have hreads := Lexer.readsAs_word hname.1
    rwa [hname.2] at hreads
  | @nat v n hv =>
    rw [Sql.predicate, hv, Sql.literal]
    exact fun _ _ htail h => Lexer.reads_nat n htail.endsNumber h
  | @bool v b hv =>
    rw [Sql.predicate, hv, Sql.literal]
    exact readsAs_bool b
  | @unary p e op _ ih =>
    have hreads := Lexer.readsAs_unary op (readsAs_enclosed ih) (by rintro _ ⟨⟩; decide)
    rw [Expr.sqlKinds]
    cases op <;> simpa [Sql.predicate, UnaryOp.name] using hreads
  | @binary l r x y op hop _ _ ihl ihr =>
    have hreads := readsAs_enclosed (Lexer.readsAs_binary op ihl ihr)
    rw [Expr.sqlKinds]
    cases op with
    | pow => exact absurd rfl hop
    | ne =>
      have hne : ∀ {tail ms}, Lexer.Reads tail ms →
          Lexer.Reads ("<>".toList ++ ' ' :: tail) (BinaryOp.ne.kind :: ms) := fun h =>
        Lexer.reads_scan (by decide) rfl rfl (by simp [BinaryOp.kind])
          (Lexer.reads_space (by decide) h)
      simpa [Sql.predicate] using readsAs_enclosed (Lexer.readsAs_between hne ihl ihr)
    | _ => simpa [Sql.predicate, BinaryOp.name] using hreads
  | @isNull p e _ negated ih =>
    have hreads := Lexer.readsAs_isNull negated ih
    rw [Expr.sqlKinds]
    cases negated <;> simpa [Sql.predicate] using hreads

theorem spelledBy (h : p.HasTree e) {q : Expr.Reading} (hq : e.reading = some q) :
    ∃ d, q.SpelledBy d e.sqlKinds := by
  induction h generalizing q with
  | column =>
    cases hq
    exact ⟨1, 12, _, rfl, by omega, .column⟩
  | nat | bool =>
    cases hq
    exact ⟨2, 12, _, rfl, by omega, .literal rfl (.token rfl)⟩
  | unary op _ ih =>
    obtain ⟨a, ha, rfl⟩ := Option.map_eq_some_iff.mp hq
    obtain ⟨d, hspelled⟩ := ih ha
    exact ⟨d + 2, hspelled.unary op⟩
  | isNull _ negated ih =>
    obtain ⟨a, ha, rfl⟩ := Option.map_eq_some_iff.mp hq
    obtain ⟨d, hspelled⟩ := ih ha
    exact ⟨d + 1, hspelled.isNull negated⟩
  | binary _ _ _ ihl ihr =>
    obtain ⟨a, ha, hq⟩ := Option.bind_eq_some_iff.mp hq
    obtain ⟨b, hb, hq⟩ := Option.bind_eq_some_iff.mp hq
    obtain ⟨d, hleft⟩ := ihl ha
    obtain ⟨d', hright⟩ := ihr hb
    exact ⟨max d d' + 4, (hleft.weaken (Nat.le_max_left ..)).binary
      (hright.weaken (Nat.le_max_right ..)) hq⟩

/-- Tokens that are read as nothing are refused. -/
theorem refused (h : p.HasTree e) (hnone : e.reading = none) (least : Nat) :
    Expr.Refused least e.sqlKinds := by
  induction h generalizing least with
  | column | nat | bool => cases hnone
  | unary op _ ih => exact (ih (Option.map_eq_none_iff.mp hnone) 0).enclosed.unary
  | isNull _ negated ih => exact (ih (Option.map_eq_none_iff.mp hnone) least).append _
  | @binary l r x y op _ hl hr ihl ihr =>
    apply Expr.Refused.enclosed
    cases hx : x.reading with
    | none => exact (ihl hx 0).append _
    | some a =>
      obtain ⟨d, hleft⟩ := hl.spelledBy hx
      apply Expr.Refused.operand hleft
      cases hy : y.reading with
      | none => exact ihr hy _
      | some b =>
        -- both operands can be read, so it is the `NOT` on the right that cannot stand there
        have hbinary : a.binary op b = none := by
          rw [Expr.reading, hx, hy] at hnone
          exact hnone
        unfold Expr.Reading.binary at hbinary
        split_ifs at hbinary with hlogical hnot
        obtain ⟨d', l, xs, hks, -, -⟩ := hr.spelledBy hy
        rw [hks, hnot]
        refine ⟨1, fun limit d s t hd hpass => ?_⟩
        obtain ⟨d, rfl⟩ : ∃ j, d = j + 1 := ⟨d - 1, by omega⟩
        refine Expr.parserAt_of_tight hpass.cons_inv.1 ?_
        cases op <;> first | decide | exact absurd rfl hlogical

end Predicate.HasTree

namespace Sql

/-- The SQL of a condition is parsed whole to the condition's tree, under every limit of nesting
from some depth on, exactly if no operator in front is tested for null and no `NOT` is an operand
of an operator that is not logical. -/
theorem predicate_reparses_iff {p : Predicate} {e : Expr} (h : p.HasTree e) :
    ∃ ts depth, Lexer.tokenize (predicate p) = .ok ts ∧ ∀ limit, depth ≤ limit →
      ((∃ e' s, Expr.parser limit (TokenStream.ofTokens ts) = .ok e' s ∧ s.rest = [] ∧
        e'.bare = e) ↔ e.keepsTree = true) := by
  have hread := h.readsAs [] [] (by rintro _ ⟨⟩) Lexer.reads_nil
  rw [List.append_nil, List.append_nil] at hread
  obtain ⟨ts, last, htokenize, hkinds, hlast, hstream⟩ := TokenStream.ofTokens_of_reads hread
  have hpass : TokenStream.Passes ⟨ts, last⟩ e.sqlKinds ⟨[], last⟩ :=
    ⟨ts, (List.append_nil _).symm, rfl, hkinds⟩
  rw [← hstream] at hpass
  cases hq : e.reading with
  | none =>
    obtain ⟨depth, hrefused⟩ := h.refused hq 0
    refine ⟨_, depth, htokenize, fun limit hlimit => iff_of_false ?_ fun hkeeps => ?_⟩
    · rintro ⟨e', s, hparse, -⟩
      obtain ⟨err, u, hfail⟩ := hrefused limit limit _ _ hlimit hpass
      cases hfail.symm.trans hparse
    · obtain ⟨q, hsome, -⟩ := Expr.reading_of_keepsTree hkeeps
      cases hq.symm.trans hsome
  | some q =>
    obtain ⟨d, hspelled⟩ := h.spelledBy hq
    obtain ⟨l, -, hwhole⟩ := hspelled.whole
    refine ⟨_, d + 1, htokenize, fun limit hlimit => ?_⟩
    have hstops : Expr.Stops 0 last.kind := by
      rw [hlast]
      exact ⟨by simp, fun op hop => by cases hop⟩
    obtain ⟨e₀, he₀, hparse⟩ := Expr.parser_of_spelled hwhole hlimit hpass hstops
    have hbare := Expr.Reading.bare_whole (Expr.bare_of_reading hq)
    constructor
    · rintro ⟨e', s, hparse', -, rfl⟩
      cases hparse.symm.trans hparse'
      exact Expr.keepsTree_of_reading hq (by rw [h.bare, he₀, hbare])
    · intro hkeeps
      obtain ⟨q', hq', hwhole', -⟩ := Expr.reading_of_keepsTree hkeeps
      cases hq.symm.trans hq'
      exact ⟨e₀, _, hparse, rfl, by rw [he₀, hbare, hwhole', h.bare]⟩

/-- A negation is tested for null: read back, it is the test that is negated. -/
theorem predicate_reparses_negation :
    let b : ColumnRef := ⟨"b", .bool⟩
    let p : Predicate := .isNull (.unary .not (.column b)) false
    let e : Expr := .isNull (.unary .not (.column ⟨"b", .start⟩) .start) false .start
    p.HasTree e ∧ predicate p = "NOT (b) IS NULL" ∧
      ∃ ts depth, Lexer.tokenize (predicate p) = .ok ts ∧ ∀ limit, depth ≤ limit →
        ¬ ∃ e' s, Expr.parser limit (TokenStream.ofTokens ts) = .ok e' s ∧ s.rest = [] ∧
          e'.bare = e := by
  intro b p e
  have hb : (TokenKind.ident b.name).Lexed := by
    refine ⟨?_, by decide +kernel⟩
    unfold Lexer.IsWord
    simp [b]
    decide
  have hp : p.HasTree e := .isNull (.unary .not (.column hb)) false
  obtain ⟨ts, depth, hts, hparse⟩ := predicate_reparses_iff hp
  refine ⟨hp, by decide +kernel, ts, depth, hts, fun limit hlimit => ?_⟩
  rw [hparse limit hlimit]
  decide

end Sql
end Attest
