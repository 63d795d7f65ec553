import Attest.Ty.Parser
import Attest.Proofs.Token.Lexed
import Attest.Proofs.Token.Taking

/-!
Types and their texts.

A type whose float bounds are finite reads back from its text if it has at most sixty-three nested
vector layers, and its text is refused if it has more.  Every type that is read meets both
conditions.
-/

namespace Attest

/-- The error of a parser that has no level left of a limit. -/
def ParseError.IsTooDeep (limit : Nat) (e : ParseError) : Prop :=
  e.expected = ["shallower expression"] ∧
    e.note = some s!"nesting exceeds the limit of {limit} levels"

namespace Parser

variable {α β : Type} {E : ParseError → Prop}

/-- A parser turns tokens of these kinds into a value, whatever follows them. -/
def Yields (p : Parser α) (kinds : List TokenKind) (a : α) : Prop :=
  ∀ (ts rest : List Token) (last : Token), ts.map (·.kind) = kinds →
    p ⟨ts ++ rest, last⟩ = .ok a ⟨rest, last⟩

/-- A parser fails on tokens of these kinds with such an error, whatever follows them. -/
def Refuses (E : ParseError → Prop) (p : Parser α) (kinds : List TokenKind) : Prop :=
  ∀ (ts rest : List Token) (last : Token), ts.map (·.kind) = kinds →
    ∃ e s, p ⟨ts ++ rest, last⟩ = .fail e s ∧ E e

theorem Yields.pure (a : α) : Yields (Pure.pure a : Parser α) [] a := by
  intro ts rest last h
  rw [List.map_eq_nil_iff.mp h]
  rfl

theorem Yields.bind {p : Parser α} {f : α → Parser β} {ks ls : List TokenKind} {a : α} {b : β}
    (hp : Yields p ks a) (hf : Yields (f a) ls b) : Yields (p >>= f) (ks ++ ls) b := by
  intro ts rest last h
  obtain ⟨us, vs, rfl, hus, hvs⟩ := List.map_eq_append_iff.mp h
  show Parser.bind p f _ = _
  unfold Parser.bind
  rw [List.append_assoc, hp us (vs ++ rest) last hus]
  exact hf vs rest last hvs

theorem Yields.bind_pure {p : Parser α} {f : α → Parser β} {ks : List TokenKind} {a : α} {b : β}
    (hp : Yields p ks a) (hf : f a = Pure.pure b) : Yields (p >>= f) ks b := by
  have hb : Yields (f a) [] b := hf ▸ Yields.pure b
  simpa using hp.bind hb

theorem Refuses.bind {p : Parser α} {f : α → Parser β} {ks : List TokenKind}
    (hp : Refuses E p ks) : Refuses E (p >>= f) ks := by
  intro ts rest last h
  obtain ⟨e, s, hfail, he⟩ := hp ts rest last h
  refine ⟨e, s, ?_, he⟩
  show Parser.bind p f _ = _
  unfold Parser.bind
  rw [hfail]

theorem Refuses.append {p : Parser α} {ks : List TokenKind} (hp : Refuses E p ks)
    (ls : List TokenKind) : Refuses E p (ks ++ ls) := by
  intro ts rest last h
  obtain ⟨us, vs, rfl, hus, -⟩ := List.map_eq_append_iff.mp h
  rw [List.append_assoc]
  exact hp us (vs ++ rest) last hus

theorem Refuses.bind_right {p : Parser α} {f : α → Parser β} {ks ls : List TokenKind} {a : α}
    (hp : Yields p ks a) (hf : Refuses E (f a) ls) : Refuses E (p >>= f) (ks ++ ls) := by
  intro ts rest last h
  obtain ⟨us, vs, rfl, hus, hvs⟩ := List.map_eq_append_iff.mp h
  obtain ⟨e, s, hfail, he⟩ := hf vs rest last hvs
  refine ⟨e, s, ?_, he⟩
  show Parser.bind p f _ = _
  unfold Parser.bind
  rw [List.append_assoc, hp us (vs ++ rest) last hus]
  exact hfail

theorem yields_expect {what : String} {f : Token → Option α} {k : TokenKind} {a : α}
    (h : ∀ t : Token, t.kind = k → f t = some a) : Yields (expect what f) [k] a := by
  intro ts rest last hk
  obtain ⟨t, rfl, ht⟩ : ∃ t, ts = [t] ∧ t.kind = k := by
    match ts, hk with
    | [t], hk => exact ⟨t, rfl, by simpa using hk⟩
  unfold expect
  simp [TokenStream.peek, h t ht, TokenStream.skip]

theorem symbol_eq {o : Symbol} {t : Token} {rest : List Token} {last : Token}
    (ht : t.kind = .symbol o) : symbol o ⟨t :: rest, last⟩ = .ok t ⟨rest, last⟩ := by
  simp [symbol, expect, TokenStream.peek, TokenStream.skip, ht]

theorem yields_symbol_bind {o : Symbol} {p : Parser β} {ls : List TokenKind} {b : β}
    (hp : Yields p ls b) : Yields (symbol o >>= fun _ => p) (.symbol o :: ls) b := by
  intro ts rest last h
  obtain ⟨t, us, rfl, ht, hus⟩ := List.map_eq_cons_iff.mp h
  show Parser.bind (symbol o) _ _ = _
  unfold Parser.bind
  rw [List.cons_append, symbol_eq ht]
  exact hp us rest last hus

theorem refuses_symbol_bind {o : Symbol} {p : Parser β} {ls : List TokenKind}
    (hp : Refuses E p ls) : Refuses E (symbol o >>= fun _ => p) (.symbol o :: ls) := by
  intro ts rest last h
  obtain ⟨t, us, rfl, ht, hus⟩ := List.map_eq_cons_iff.mp h
  obtain ⟨e, s, hfail, he⟩ := hp us rest last hus
  refine ⟨e, s, ?_, he⟩
  show Parser.bind (symbol o) _ _ = _
  unfold Parser.bind
  rw [List.cons_append, symbol_eq ht]
  exact hfail

theorem yields_takeSymbol (o : Symbol) : Yields (takeSymbol o) [.symbol o] true := by
  intro ts rest last h
  obtain ⟨t, us, rfl, ht, hus⟩ := List.map_eq_cons_iff.mp h
  rw [List.map_eq_nil_iff.mp hus]
  simp [takeSymbol, TokenStream.peek, TokenStream.skip, ht]

/-- A symbol that may come next and does not. -/
theorem yields_takeSymbol_bind {o : Symbol} {f : Bool → Parser β} {k : TokenKind}
    {ls : List TokenKind} {b : β} (hk : k ≠ .symbol o) (hf : Yields (f false) (k :: ls) b) :
    Yields (takeSymbol o >>= f) (k :: ls) b := by
  intro ts rest last h
  obtain ⟨t, us, rfl, ht, hus⟩ := List.map_eq_cons_iff.mp h
  have htake : takeSymbol o ⟨t :: us ++ rest, last⟩ = .ok false ⟨t :: us ++ rest, last⟩ := by
    simp [takeSymbol, TokenStream.peek, ht, hk]
  show Parser.bind (takeSymbol o) _ _ = _
  unfold Parser.bind
  rw [htake]
  exact hf (t :: us) rest last (by rw [List.map_cons, ht, hus])

end Parser

namespace Ty

open Attest.Parser

/-- Vector layers around the innermost type. -/
def layers : Ty → Nat
  | vector t _ => t.layers + 1
  | _ => 0

/-- The float bounds of a type are finite. -/
def BoundsFinite : Ty → Prop
  | boundedFloat lo hi => lo.isFinite = true ∧ hi.isFinite = true
  | vector t _ => t.BoundsFinite
  | _ => True

def boundKinds (x : Double) : List TokenKind :=
  (if x.negative then [.symbol .minus] else []) ++ [.float (Double.ofBits x.magnitude)]

def pairKinds (ks ls : List TokenKind) : List TokenKind :=
  .symbol .lparen :: (ks ++ .symbol .comma :: (ls ++ [.symbol .rparen]))

def kinds : Ty → List TokenKind
  | boundedNat lo hi => .typeName .boundedNat :: pairKinds [.nat lo] [.nat hi]
  | boundedFloat lo hi => .typeName .boundedFloat :: pairKinds (boundKinds lo) (boundKinds hi)
  | vector t n => .typeName .vector :: pairKinds t.kinds [.nat n]
  | t => [.typeName t.category]

theorem yields_pairParser {α β : Type} {first : Parser α} {second : Parser β}
    {ks ls : List TokenKind} {a : α} {b : β} (hf : Yields first ks a) (hs : Yields second ls b) :
    Yields (pairParser first second) (pairKinds ks ls) (a, b) := by
  unfold pairParser pairKinds
  refine yields_symbol_bind (hf.bind (yields_symbol_bind (hs.bind (yields_symbol_bind ?_))))
  exact Yields.pure (a, b)

theorem refuses_pairParser {α β : Type} {E : ParseError → Prop} {first : Parser α}
    {second : Parser β} {ks ls : List TokenKind} (hf : Refuses E first ks) :
    Refuses E (pairParser first second) (pairKinds ks ls) := by
  unfold pairParser pairKinds
  exact refuses_symbol_bind (hf.bind.append _)

theorem yields_natural (n : UInt64) : Yields natural [.nat n] n := by
  apply yields_expect
  intro t ht
  rw [ht]

theorem yields_magnitude (x : Double) :
    Yields (expect "number" fun t =>
      match t.kind with
      | .nat n => some (Double.ofNat n.toNat)
      | .float x => some x
      | _ => none) [.float x] x := by
  apply yields_expect
  intro t ht
  rw [ht]

theorem yields_boundParser (x : Double) : Yields boundParser (boundKinds x) x := by
  have hx := x.eq_ofBits_magnitude
  unfold boundParser boundKinds
  by_cases hneg : x.negative = true
  · rw [if_pos hneg] at hx ⊢
    refine (yields_takeSymbol .minus).bind ((yields_magnitude _).bind ?_)
    conv => arg 3; rw [hx]
    exact Yields.pure _
  · rw [if_neg hneg] at hx ⊢
    refine yields_takeSymbol_bind (by simp) (yields_takeSymbol_bind (by simp) ?_)
    refine (yields_magnitude _).bind ?_
    conv => arg 3; rw [hx]
    exact Yields.pure _

theorem yields_category (c : Category) :
    Yields (expect "type" fun t =>
      match t.kind with
      | .typeName c => some c
      | _ => none) [.typeName c] c := by
  apply yields_expect
  intro t ht
  rw [ht]

/-- A type is parsed if there are more levels than it has layers. -/
theorem yields_parserAt {limit d : Nat} {ty : Ty} (h : ty.layers < d) :
    Yields (parserAt limit d) ty.kinds ty := by
  obtain ⟨d, rfl⟩ : ∃ e, d = e + 1 := ⟨d - 1, by omega⟩
  induction ty generalizing d with
  | vector t n ih =>
    obtain ⟨d, rfl⟩ : ∃ e, d = e + 1 := ⟨d - 1, by unfold layers at h; omega⟩
    have ht : t.layers < d + 1 := Nat.lt_of_succ_lt_succ h
    exact (yields_category .vector).bind
      ((yields_pairParser (ih d ht) (yields_natural n)).bind_pure rfl)
  | boundedNat lo hi =>
    exact (yields_category .boundedNat).bind
      ((yields_pairParser (yields_natural lo) (yields_natural hi)).bind_pure rfl)
  | boundedFloat lo hi =>
    exact (yields_category .boundedFloat).bind
      ((yields_pairParser (yields_boundParser lo) (yields_boundParser hi)).bind_pure rfl)
  | _ => exact (yields_category _).bind_pure rfl

/-- A type with as many layers as there are levels, or more, is refused for its nesting. -/
theorem refuses_parserAt {limit d : Nat} {ty : Ty} (h : d ≤ ty.layers) :
    Refuses (·.IsTooDeep limit) (parserAt limit d) ty.kinds := by
  induction d generalizing ty with
  | zero => exact fun ts rest last _ => ⟨_, _, rfl, rfl, rfl⟩
  | succ d ih =>
    cases ty with
    | vector t n =>
      have ht : d ≤ t.layers := Nat.le_of_succ_le_succ h
      exact Refuses.bind_right (yields_category .vector) (refuses_pairParser (ih ht)).bind
    | _ => exact absurd h (Nat.not_succ_le_zero d)

/-- What comes after a part in the text of a type. -/
def Follows (tail : List Char) : Prop := ∀ c ∈ tail.head?, c = ',' ∨ c = ')'

/-- A part of the text of a type is read as tokens of these kinds, whatever follows it there. -/
def ReadsAs (cs : List Char) (ks : List TokenKind) : Prop :=
  ∀ tail ms, Follows tail → Lexer.Reads tail ms → Lexer.Reads (cs ++ tail) (ks ++ ms)

theorem endsNumber_of_follows {tail : List Char} (h : Follows tail) : Lexer.EndsNumber tail := by
  intro c hc
  rcases h c hc with rfl | rfl <;> decide

theorem readsAs_nat (n : UInt64) : ReadsAs (toString n).toList [.nat n] :=
  fun _ _ htail h => Lexer.reads_nat n (endsNumber_of_follows htail) h

theorem readsAs_bound {x : Double} (hx : x.isFinite = true) :
    ReadsAs x.literal.toList (boundKinds x) :=
  fun _ _ htail h => Lexer.reads_literal hx (endsNumber_of_follows htail) h

theorem readsAs_pair (c : Category) {cs ds : List Char} {ks ls : List TokenKind}
    (hcs : ReadsAs cs ks) (hds : ReadsAs ds ls) :
    ReadsAs (c.name.toList ++ '(' :: (cs ++ ',' :: ' ' :: (ds ++ [')'])))
      (.typeName c :: pairKinds ks ls) := by
  intro tail ms _ h
  have hclose : Lexer.Reads (')' :: tail) (.symbol .rparen :: ms) :=
    Lexer.reads_symbol (by simp) h
  have hsecond : Lexer.Reads (' ' :: (ds ++ ')' :: tail)) (ls ++ .symbol .rparen :: ms) :=
    Lexer.reads_space (by decide) (hds _ _ (by rintro _ ⟨⟩; exact .inr rfl) hclose)
  have hcomma : Lexer.Reads (',' :: ' ' :: (ds ++ ')' :: tail))
      (.symbol .comma :: (ls ++ .symbol .rparen :: ms)) :=
    Lexer.reads_symbol (by simp) hsecond
  have hfirst := hcs _ _ (by rintro _ ⟨⟩; exact .inl rfl) hcomma
  have hopen : Lexer.Reads ('(' :: (cs ++ ',' :: ' ' :: (ds ++ ')' :: tail)))
      (.symbol .lparen :: (ks ++ .symbol .comma :: (ls ++ .symbol .rparen :: ms))) :=
    Lexer.reads_symbol (by simp) hfirst
  have hall := Lexer.reads_category c (by rintro _ ⟨⟩; decide) hopen
  unfold pairKinds
  simpa using hall

theorem toList_boundedNat (lo hi : UInt64) : (boundedNat lo hi).render.toList =
    Category.boundedNat.name.toList ++
      '(' :: ((toString lo).toList ++ ',' :: ' ' :: ((toString hi).toList ++ [')'])) := by
  show ("BoundedNat(" ++ toString lo ++ ", " ++ toString hi ++ ")").toList = _
  simp [Category.name]

theorem toList_boundedFloat (lo hi : Double) : (boundedFloat lo hi).render.toList =
    Category.boundedFloat.name.toList ++
      '(' :: (lo.literal.toList ++ ',' :: ' ' :: (hi.literal.toList ++ [')'])) := by
  show ("BoundedFloat(" ++ lo.literal ++ ", " ++ hi.literal ++ ")").toList = _
  simp [Category.name]

theorem toList_vector (t : Ty) (n : UInt64) : (vector t n).render.toList =
    Category.vector.name.toList ++
      '(' :: (t.render.toList ++ ',' :: ' ' :: ((toString n).toList ++ [')'])) := by
  show ("Vector(" ++ t.render ++ (", " ++ toString n ++ ")")).toList = _
  simp [Category.name]

theorem readsAs_render {ty : Ty} (hty : ty.BoundsFinite) : ReadsAs ty.render.toList ty.kinds := by
  induction ty with
  | boundedNat lo hi =>
    rw [toList_boundedNat]
    exact readsAs_pair .boundedNat (readsAs_nat lo) (readsAs_nat hi)
  | boundedFloat lo hi =>
    rw [toList_boundedFloat]
    exact readsAs_pair .boundedFloat (readsAs_bound hty.1) (readsAs_bound hty.2)
  | vector t n ih =>
    rw [toList_vector]
    exact readsAs_pair .vector (ih hty) (readsAs_nat n)
  | _ =>
    intro tail ms htail h
    refine Lexer.reads_category _ ?_ h
    intro c hc
    rcases htail c hc with rfl | rfl <;> decide

/-- What the parser of types answers on the text of a type. -/
theorem parse_render_eq {ty : Ty} (hty : ty.BoundsFinite) :
    ∃ ts last, ts.map (·.kind) = ty.kinds ∧ last.kind = .eof ∧
      parse ty.render = (wholeParser.run ⟨ts, last⟩).mapError SyntaxError.parse := by
  have hread := readsAs_render hty [] [] (by simp [Follows]) Lexer.reads_nil
  rw [List.append_nil, List.append_nil] at hread
  obtain ⟨ts, last, htokenize, hkinds, hlast, hstream⟩ := TokenStream.ofTokens_of_reads hread
  refine ⟨ts, last, hkinds, hlast, ?_⟩
  unfold parse parseText
  rw [htokenize]
  dsimp only
  rw [hstream]
  cases run wholeParser ⟨ts, last⟩ <;> rfl

theorem parse_render {ty : Ty} (hty : ty.BoundsFinite) (h : ty.layers < defaultDepth) :
    parse ty.render = .ok ty := by
  obtain ⟨ts, last, hkinds, hlast, hparse⟩ := parse_render_eq hty
  have hyields : parserAt defaultDepth defaultDepth ⟨ts ++ [], last⟩ = .ok ty ⟨[], last⟩ :=
    yields_parserAt h ts [] last hkinds
  rw [List.append_nil] at hyields
  have hwhole : wholeParser ⟨ts, last⟩ = .ok ty ⟨[], last⟩ := by
    show Parser.bind (parserAt defaultDepth defaultDepth) _ _ = _
    unfold Parser.bind
    rw [hyields]
    have hend : (⟨[], last⟩ : TokenStream).isAtEnd = true := by
      simp [TokenStream.isAtEnd, TokenStream.peek, Token.isEnd, hlast]
    show (if (⟨[], last⟩ : TokenStream).isAtEnd then Pure.pure ty
      else Parser.unexpected ["end of type"] : Parser Ty) ⟨[], last⟩ = .ok ty ⟨[], last⟩
    rw [if_pos hend]
    rfl
  rw [hparse, run, hwhole]
  rfl

theorem parse_render_error {ty : Ty} (hty : ty.BoundsFinite) (h : defaultDepth ≤ ty.layers) :
    ∃ e, parse ty.render = .error (.parse e) ∧ e.IsTooDeep defaultDepth := by
  obtain ⟨ts, last, hkinds, hlast, hparse⟩ := parse_render_eq hty
  obtain ⟨e, s, hfail, he⟩ : ∃ e s,
      parserAt defaultDepth defaultDepth ⟨ts ++ [], last⟩ = .fail e s ∧
        e.IsTooDeep defaultDepth :=
    refuses_parserAt h ts [] last hkinds
  rw [List.append_nil] at hfail
  have hwhole : wholeParser ⟨ts, last⟩ = .fail e s := by
    show Parser.bind (parserAt defaultDepth defaultDepth) _ _ = _
    unfold Parser.bind
    rw [hfail]
  refine ⟨e, ?_, he⟩
  rw [hparse, run, hwhole]
  rfl

/-- A type with finite bounds is read back from its text, to the bit, if it has at most sixty-three
nested vector layers; with more, its text is refused because of them. -/
theorem render_read_back {ty : Ty} (hty : ty.BoundsFinite) :
    (ty.layers ≤ 63 → parse ty.render = .ok ty) ∧
      (63 < ty.layers → ∃ e, parse ty.render = .error (.parse e) ∧ e.IsTooDeep 64) :=
  ⟨fun h => parse_render hty (Nat.lt_succ_of_le h), fun h => parse_render_error hty h⟩

/-- From the negative zero to the largest float, under as many layers as can be read and under one
more. -/
theorem render_read_back_zeroes :
    let deep (n : Nat) : Ty :=
      n.repeat (vector · 3) (boundedFloat Double.zero.neg (.ofBits 0x7fefffffffffffff))
    parse (deep 63).render = .ok (deep 63) ∧
      ∃ e, parse (deep 64).render = .error (.parse e) ∧ e.IsTooDeep 64 := by
  intro deep
  have hfinite : ∀ n, (deep n).BoundsFinite := by
    intro n
    induction n with
    | zero => exact ⟨by decide, by decide⟩
    | succ n ih => exact ih
  exact ⟨(render_read_back (hfinite 63)).1 (by decide),
    (render_read_back (hfinite 64)).2 (by decide)⟩

theorem boundsFinite_of_fault? {ty : Ty} (h : ty.fault? = none) : ty.BoundsFinite := by
  induction ty with
  | boundedFloat lo hi =>
    unfold fault? at h
    split at h
    · cases h
    · next hfin => simpa [BoundsFinite] using hfin
  | vector t n ih => exact ih h
  | _ => trivial

end Ty

namespace Ty

open TokenKind (Lexed)

theorem ensures_pairParser {α β : Type} {K : TokenKind → Prop} {first : Parser α}
    {second : Parser β} {P : α → Prop} {Q : β → Prop} (hf : Parser.Ensures K first P)
    (hs : Parser.Ensures K second Q) :
    Parser.Ensures K (pairParser first second) fun p => P p.1 ∧ Q p.2 := by
  refine .bind (.symbol .lparen) fun _ _ => hf.bind fun a ha => ?_
  refine .bind (.symbol .comma) fun _ _ => hs.bind fun b hb => ?_
  exact .bind (.symbol .rparen) fun _ _ => .pure ⟨ha, hb⟩

theorem ensures_boundParser : Parser.Ensures Lexed boundParser fun x => x.isFinite = true := by
  have hnumber : Parser.Ensures Lexed (Parser.expect "number" fun t : Token =>
      match t.kind with
      | .nat n => some (Double.ofNat n.toNat)
      | .float x => some x
      | _ => none) fun x => x.isFinite = true := by
    refine .expect fun t a hlexed ha => ?_
    split at ha
    · next n _ =>
      cases ha
      exact Double.isFinite_ofNat n.toNat_lt
    · next x hx =>
      cases ha
      rw [hx] at hlexed
      exact (hlexed (by simp)).1
    · cases ha
  refine .bind (.takeSymbol .minus) fun negative _ => ?_
  cases negative with
  | true =>
    refine hnumber.bind fun x hx => .pure ?_
    exact (Double.isFinite_neg x).trans hx
  | false => exact .bind (.takeSymbol .plus) fun _ _ => hnumber.bind fun x hx => .pure hx

theorem ensures_parserAt (limit d : Nat) :
    Parser.Ensures Lexed (parserAt limit d) fun ty => ty.layers < d ∧ ty.BoundsFinite := by
  induction d with
  | zero => exact .refuse _ _
  | succ d ih =>
    refine .bind (.expect fun _ _ _ _ => trivial) fun c _ => ?_
    cases c with
    | boundedNat =>
      exact (ensures_pairParser .natural .natural).bind fun _ _ => .pure ⟨Nat.succ_pos d, trivial⟩
    | boundedFloat =>
      refine (ensures_pairParser ensures_boundParser ensures_boundParser).bind fun p hp => ?_
      exact .pure ⟨Nat.succ_pos d, hp⟩
    | vector =>
      refine (ensures_pairParser ih .natural).bind fun p hp => ?_
      exact .pure ⟨Nat.succ_lt_succ hp.1.1, hp.1.2⟩
    | _ => exact .pure ⟨Nat.succ_pos d, trivial⟩

/-- What is read as a type has few enough layers and finite bounds, so it can be written and read
again. -/
theorem of_parse {source : String} {ty : Ty} (h : parse source = .ok ty) :
    ty.layers < defaultDepth ∧ ty.BoundsFinite := by
  obtain ⟨ts, u, hts, hparse⟩ := Parser.parseText_eq_ok h
  have hstream : (TokenStream.ofTokens ts).MadeOf Lexed :=
    ⟨fun t ht => Lexer.lexed_of_mem_tokenize hts (TokenStream.mem_of_mem_ofTokens ht),
      TokenStream.last_ofTokens ts⟩
  have hwhole : Parser.Ensures Lexed wholeParser fun ty =>
      ty.layers < defaultDepth ∧ ty.BoundsFinite := by
    refine (ensures_parserAt defaultDepth defaultDepth).bind fun t ht => .bind .stream fun s _ => ?_
    split
    · exact .pure ht
    · exact .unexpected _
  exact (hwhole _ _ _ hstream hparse).1

end Ty
end Attest
