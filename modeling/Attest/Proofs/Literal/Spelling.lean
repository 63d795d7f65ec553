import Attest.Literal.Parser
import Attest.Proofs.Token.Passage

/-!
The grammar of literals.

`Spelled d ks v` says that the tokens `ks` spell the literal `v` with at most `d` levels of
nesting.  The parser is sound and complete for it: what it takes spells what it returns, and
wherever a spelling stands, that is taken.
-/

namespace Attest
namespace Literal

open TokenStream (Passes)

inductive Spelled : Nat → List TokenKind → Literal → Prop where
  | token {d k v} (h : ofToken? k = some v) : Spelled (d + 1) [k] v
  | minus {d ks v w} (h : Spelled d ks v) (hw : v.negate? = some w) :
    Spelled (d + 1) (.symbol .minus :: ks) w
  | plus {d ks v} (h : Spelled d ks v) (hv : v.isNumber) :
    Spelled (d + 1) (.symbol .plus :: ks) v
  | vector {d} {items : List (List TokenKind × Literal)} (h : ∀ i ∈ items, Spelled d i.1 i.2) :
    Spelled (d + 1)
      (.symbol .lbracket :: (Parser.listed .comma (items.map (·.1)) ++ [.symbol .rbracket]))
      (.vector (items.map (·.2)))
  | record {d} {items : List (List TokenKind × String × Literal)} (hne : items ≠ [])
      (h : ∀ i ∈ items, Spelled d i.1 i.2.2) :
    Spelled (d + 1)
      (.symbol .lbrace ::
        (Parser.listed .comma (items.map fun i => .ident i.2.1 :: .symbol .colon :: i.1) ++
          [.symbol .rbrace]))
      (.record (items.map (·.2)))

variable {limit d : Nat} {ks : List TokenKind} {v : Literal} {s t : TokenStream}

/-- A field of a record, its value by the given parser. -/
def fieldParser (p : Parser Literal) : Parser (String × Literal) := do
  let (name, _) ← Parser.ident
  let _ ← Parser.symbol .colon
  let value ← p
  return (name, value)

theorem passes_fieldParser {p : Parser Literal} {R : List TokenKind → Literal → Prop}
    (hp : ∀ s v t, s.Ends → p s = .ok v t → ∃ ks, s.Passes ks t ∧ R ks v)
    {f : String × Literal} (hs : s.Ends) (h : fieldParser p s = .ok f t) :
    ∃ i : List TokenKind × String × Literal,
      s.Passes (.ident i.2.1 :: .symbol .colon :: i.1) t ∧ i.2 = f ∧ R i.1 i.2.2 := by
  rw [fieldParser] at h
  obtain ⟨⟨name, position⟩, u, hname, h⟩ := Parser.bind_eq_ok.mp h
  obtain ⟨_, w, hcolon, h⟩ := Parser.bind_eq_ok.mp h
  obtain ⟨v, x, hv, h⟩ := Parser.bind_eq_ok.mp h
  cases h
  obtain ⟨hident, -, rfl⟩ := Parser.ident_eq_ok.mp hname
  obtain ⟨hk, -, rfl⟩ := Parser.symbol_eq_ok.mp hcolon
  have hfirst := Passes.skip hs hident (by simp)
  have hsecond := Passes.skip (hfirst.ends hs) hk (by simp)
  obtain ⟨ks, hks, hR⟩ := hp _ _ _ (hsecond.ends (hfirst.ends hs)) hv
  exact ⟨(ks, name, v), hfirst.trans (hsecond.trans hks), rfl, hR⟩

theorem fieldParser_of_passes {p : Parser Literal} {name : String}
    (hp : ∀ s t, s.Passes ks t → p s = .ok v t)
    (h : s.Passes (.ident name :: .symbol .colon :: ks) t) :
    fieldParser p s = .ok (name, v) t := by
  obtain ⟨hname, h⟩ := h.cons_inv
  obtain ⟨hcolon, h⟩ := h.cons_inv
  exact Parser.bind_eq_ok.mpr ⟨(name, _), _, Parser.ident_eq_ok.mpr ⟨hname, rfl, rfl⟩,
    Parser.bind_eq_ok.mpr ⟨_, _, Parser.symbol_eq_ok.mpr ⟨hcolon, rfl, rfl⟩,
      Parser.bind_eq_ok.mpr ⟨v, t, hp _ _ h, rfl⟩⟩⟩

section Steps

theorem parserAt_token (h : ofToken? s.peek.kind = some v) :
    parserAt limit (d + 1) s = .ok v s.skip := by
  show (Parser.advance >>= _ : Parser Literal) s = _
  rw [Parser.advance_bind, h]
  rfl

theorem parserAt_minus (hk : s.peek.kind = .symbol .minus) :
    parserAt limit (d + 1) s = .ok v t ↔
      ∃ w, parserAt limit d s.skip = .ok w t ∧ w.negate? = some v := by
  show (Parser.advance >>= _ : Parser Literal) s = _ ↔ _
  rw [Parser.advance_bind, hk]
  refine Parser.bind_eq_ok.trans ⟨?_, ?_⟩
  · rintro ⟨w, u, hw, h⟩
    cases hv : w.negate? with
    | none =>
      rw [hv] at h
      cases h
    | some v' =>
      rw [hv] at h
      cases h
      exact ⟨w, hw, hv⟩
  · rintro ⟨w, hw, hv⟩
    refine ⟨w, t, hw, ?_⟩
    rw [hv]
    rfl

theorem parserAt_plus (hk : s.peek.kind = .symbol .plus) :
    parserAt limit (d + 1) s = .ok v t ↔ parserAt limit d s.skip = .ok v t ∧ v.isNumber := by
  show (Parser.advance >>= _ : Parser Literal) s = _ ↔ _
  rw [Parser.advance_bind, hk]
  refine Parser.bind_eq_ok.trans ⟨?_, ?_⟩
  · rintro ⟨w, u, hw, h⟩
    by_cases hnumber : w.isNumber = true
    · rw [if_pos hnumber] at h
      cases h
      exact ⟨hw, hnumber⟩
    · rw [if_neg hnumber] at h
      cases h
  · rintro ⟨hv, hnumber⟩
    exact ⟨v, t, hv, by rw [if_pos hnumber]; rfl⟩

theorem parserAt_lbracket_nil (hk : s.peek.kind = .symbol .lbracket)
    (hclose : s.skip.peek.kind = .symbol .rbracket) :
    parserAt limit (d + 1) s = .ok (.vector []) s.skip.skip := by
  show (Parser.advance >>= _ : Parser Literal) s = _
  rw [Parser.advance_bind, hk]
  show (_ >>= _ : Parser _) _ = _
  rw [Parser.bind_of_ok (Parser.takeSymbol_true hclose)]
  rfl

theorem parserAt_lbracket (hk : s.peek.kind = .symbol .lbracket)
    (hopen : s.skip.peek.kind ≠ .symbol .rbracket) :
    parserAt limit (d + 1) s = (do
      let items ← Parser.sepBy .comma (parserAt limit d)
      let _ ← Parser.symbol .rbracket
      return vector items) s.skip := by
  show (Parser.advance >>= _ : Parser Literal) s = _
  rw [Parser.advance_bind, hk]
  show (_ >>= _ : Parser _) _ = _
  rw [Parser.bind_of_ok (Parser.takeSymbol_false hopen)]
  rfl

theorem parserAt_lbrace (hk : s.peek.kind = .symbol .lbrace) :
    parserAt limit (d + 1) s = (do
      let fields ← Parser.sepBy .comma (fieldParser (parserAt limit d))
      let _ ← Parser.symbol .rbrace
      return record fields) s.skip := by
  show (Parser.advance >>= _ : Parser Literal) s = _
  rw [Parser.advance_bind, hk]
  rfl

end Steps

theorem spelled_of_lbracket (ih : ∀ s v t, s.Ends → parserAt limit d s = .ok v t →
      ∃ ks, s.Passes ks t ∧ Spelled d ks v)
    (hs : s.Ends) (hk : s.peek.kind = .symbol .lbracket)
    (h : parserAt limit (d + 1) s = .ok v t) : ∃ ks, s.Passes ks t ∧ Spelled (d + 1) ks v := by
  have hfirst := Passes.skip hs hk (by simp)
  have hnext := hfirst.ends hs
  by_cases hclose : s.skip.peek.kind = .symbol .rbracket
  · rw [parserAt_lbracket_nil hk hclose] at h
    cases h
    exact ⟨_, hfirst.trans (.skip hnext hclose (by simp)), @Spelled.vector d [] (by simp)⟩
  · rw [parserAt_lbracket hk hclose] at h
    have hitem : ∀ s v t, s.Ends → parserAt limit d s = .ok v t →
        ∃ i : List TokenKind × Literal, s.Passes i.1 t ∧ i.2 = v ∧ Spelled d i.1 i.2 := by
      intro s v t hs h
      obtain ⟨ks, hks, hv⟩ := ih s v t hs h
      exact ⟨(ks, v), hks, rfl, hv⟩
    obtain ⟨items, -, hitems, rfl, hall⟩ := Parser.passes_enclosed hitem hnext h
    exact ⟨_, hfirst.trans hitems, .vector hall⟩

/-- What the parser takes spells what it returns. -/
theorem spelled_of_parserAt (hs : s.Ends) (h : parserAt limit d s = .ok v t) :
    ∃ ks, s.Passes ks t ∧ Spelled d ks v := by
  induction d generalizing s v t with
  | zero => cases h
  | succ d ih =>
    cases hl : ofToken? s.peek.kind with
    | some l =>
      rw [parserAt_token hl] at h
      cases h
      refine ⟨_, .skip hs rfl ?_, .token hl⟩
      intro hk
      rw [hk] at hl
      cases hl
    | none =>
      -- the first token decides, and only four symbols go on
      cases hk : s.peek.kind with
      | symbol o =>
        have hfirst := Passes.skip hs hk (by simp)
        have hnext := hfirst.ends hs
        cases o with
        | minus =>
          obtain ⟨w, hw, hv⟩ := (parserAt_minus hk).mp h
          obtain ⟨ks, hks, hspelled⟩ := ih hnext hw
          exact ⟨_, hfirst.trans hks, .minus hspelled hv⟩
        | plus =>
          obtain ⟨hv, hnumber⟩ := (parserAt_plus hk).mp h
          obtain ⟨ks, hks, hspelled⟩ := ih hnext hv
          exact ⟨_, hfirst.trans hks, .plus hspelled hnumber⟩
        | lbracket => exact spelled_of_lbracket (fun s v t hs h => ih hs h) hs hk h
        | lbrace =>
          rw [parserAt_lbrace hk] at h
          obtain ⟨items, hne, hitems, rfl, hall⟩ := Parser.passes_enclosed
            (R := fun i : List TokenKind × String × Literal => Spelled d i.1 i.2.2)
            (fun s f t hs h => passes_fieldParser (fun s v t hs h => ih hs h) hs h) hnext h
          exact ⟨_, hfirst.trans hitems, .record hne hall⟩
        | _ =>
          rw [parserAt, Parser.advance_bind, hk] at h
          cases h
      | _ =>
        rw [parserAt, Parser.advance_bind, hl, hk] at h
        cases h

namespace Spelled

/-- A spelling begins with a token that closes nothing. -/
theorem exists_cons (h : Spelled d ks v) : ∃ k rest, ks = k :: rest ∧ k ≠ .symbol .rbracket := by
  cases h with
  | @token _ k _ h =>
    refine ⟨k, [], rfl, ?_⟩
    rintro rfl
    cases h
  | minus | plus | vector | record => exact ⟨_, _, rfl, by simp⟩

theorem succ (h : Spelled d ks v) : Spelled (d + 1) ks v := by
  induction h with
  | token h => exact .token h
  | minus _ hw ih => exact .minus ih hw
  | plus _ hv ih => exact .plus ih hv
  | vector _ ih => exact .vector ih
  | record hne _ ih => exact .record hne ih

theorem weaken {d' : Nat} (h : Spelled d ks v) (hd : d ≤ d') : Spelled d' ks v := by
  induction hd with
  | refl => exact h
  | step _ ih => exact ih.succ

theorem parserAt_eq (h : Spelled d ks v) (hpass : s.Passes ks t) :
    parserAt limit d s = .ok v t := by
  induction h generalizing s t with
  | token h =>
    obtain ⟨hk, hpass⟩ := hpass.cons_inv
    rw [parserAt_token (hk ▸ h), hpass.nil_inv]
  | minus _ hw ih =>
    obtain ⟨hk, hpass⟩ := hpass.cons_inv
    exact (parserAt_minus hk).mpr ⟨_, ih hpass, hw⟩
  | plus _ hv ih =>
    obtain ⟨hk, hpass⟩ := hpass.cons_inv
    exact (parserAt_plus hk).mpr ⟨ih hpass, hv⟩
  | @vector d items h ih =>
    obtain ⟨hk, hpass⟩ := hpass.cons_inv
    by_cases hne : items = []
    · subst hne
      obtain ⟨hclose, hpass⟩ := hpass.cons_inv
      rw [parserAt_lbracket_nil hk hclose, hpass.nil_inv]
      rfl
    · have hopen : s.skip.peek.kind ≠ .symbol .rbracket := by
        obtain ⟨i, rest, rfl⟩ := List.exists_cons_of_ne_nil hne
        obtain ⟨k, ks, hks, hk⟩ := (h i (by simp)).exists_cons
        rw [List.map_cons, Parser.listed, hks] at hpass
        rw [hpass.cons_inv.1]
        exact hk
      rw [parserAt_lbracket hk hopen]
      exact Parser.enclosed_of_passes hne (fun i hi s t h => ih i hi h) (by simp) hpass
  | record hne _ ih =>
    obtain ⟨hk, hpass⟩ := hpass.cons_inv
    rw [parserAt_lbrace hk]
    exact Parser.enclosed_of_passes hne
      (fun i hi s t h => fieldParser_of_passes (fun s t h => ih i hi h) h) (by simp) hpass

end Spelled
end Literal
end Attest
