import Attest.Syntax

/-!
What parsers take from a stream.

A parser moves from one stream to another, and the tokens in between are what it has taken.  A
parser of the grammar can be read in both directions: what it takes is a phrase of the grammar, and
where a phrase stands, it takes that.
-/

namespace Attest

namespace TokenStream

/-- The tokens between two streams have these kinds. -/
def Passes (s : TokenStream) (ks : List TokenKind) (s' : TokenStream) : Prop :=
  ∃ ts, s.rest = ts ++ s'.rest ∧ s'.last = s.last ∧ ts.map (·.kind) = ks

/-- The last token is an end, so that the stream does end. -/
def Ends (s : TokenStream) : Prop := s.last.kind = .eof

theorem Ends.peek_kind {s : TokenStream} (hs : s.Ends) (h : s.rest.length ≤ 0) :
    s.peek.kind = .eof := by
  rw [peek, List.eq_nil_of_length_eq_zero (Nat.le_zero.mp h)]
  exact hs

namespace Passes

variable {s t u : TokenStream} {ks ls : List TokenKind} {k : TokenKind}

theorem refl (s : TokenStream) : s.Passes [] s := ⟨[], rfl, rfl, rfl⟩

theorem trans (h : s.Passes ks t) (h' : t.Passes ls u) : s.Passes (ks ++ ls) u := by
  obtain ⟨ts, hrest, hlast, rfl⟩ := h
  obtain ⟨us, hrest', hlast', rfl⟩ := h'
  exact ⟨ts ++ us, by rw [hrest, hrest', List.append_assoc], hlast'.trans hlast, List.map_append⟩

theorem ends (h : s.Passes ks t) (hs : s.Ends) : t.Ends := by
  obtain ⟨-, -, hlast, -⟩ := h
  rw [Ends, hlast]
  exact hs

theorem length_eq (h : s.Passes ks t) : s.rest.length = ks.length + t.rest.length := by
  obtain ⟨ts, hrest, -, rfl⟩ := h
  rw [hrest, List.length_append, List.length_map]

theorem exists_mem (h : s.Passes ks t) (hk : k ∈ ks) : ∃ u ∈ s.rest, u.kind = k := by
  obtain ⟨ts, hrest, -, rfl⟩ := h
  obtain ⟨u, hu, rfl⟩ := List.mem_map.mp hk
  exact ⟨u, by rw [hrest]; exact List.mem_append_left _ hu, rfl⟩

/-- A token that is no end can be passed. -/
theorem skip (hs : s.Ends) (hk : s.peek.kind = k) (hne : k ≠ .eof) : s.Passes [k] s.skip := by
  cases hr : s.rest with
  | nil => exact absurd (hk.symm.trans (hs.peek_kind (by simp [hr]))) hne
  | cons t rest =>
    refine ⟨[t], ?_, rfl, ?_⟩
    · rw [TokenStream.skip, hr]
      rfl
    · rw [TokenStream.peek, hr] at hk
      exact congrArg (fun k => [k]) hk

theorem nil_inv (h : s.Passes [] t) : s = t := by
  obtain ⟨ts, hrest, hlast, hkinds⟩ := h
  rw [List.map_eq_nil_iff.mp hkinds] at hrest
  cases s
  cases t
  simp only at hrest hlast
  rw [hrest, hlast]
  rfl

theorem cons_inv (h : s.Passes (k :: ks) t) : s.peek.kind = k ∧ s.skip.Passes ks t := by
  obtain ⟨ts, hrest, hlast, hkinds⟩ := h
  obtain ⟨u, us, rfl, hu, hus⟩ := List.map_eq_cons_iff.mp hkinds
  refine ⟨?_, us, ?_, hlast, hus⟩
  · rw [TokenStream.peek, hrest]
    exact hu
  · rw [TokenStream.skip, hrest]
    rfl

theorem length_skip (h : s.Passes (k :: ks) t) : s.rest.length = s.skip.rest.length + 1 := by
  rw [h.length_eq, h.cons_inv.2.length_eq, List.length_cons]
  omega

theorem append_inv (h : s.Passes (ks ++ ls) u) : ∃ t, s.Passes ks t ∧ t.Passes ls u := by
  obtain ⟨ts, hrest, hlast, hkinds⟩ := h
  obtain ⟨us, vs, rfl, hus, hvs⟩ := List.map_eq_append_iff.mp hkinds
  exact ⟨⟨vs ++ u.rest, s.last⟩, ⟨us, by rw [hrest, List.append_assoc], rfl, hus⟩,
    vs, rfl, hlast, hvs⟩

end Passes
end TokenStream

namespace Parser

variable {α β : Type} {s t : TokenStream}

theorem bind_eq_ok {p : Parser α} {f : α → Parser β} {b : β} :
    (p >>= f) s = .ok b t ↔ ∃ a u, p s = .ok a u ∧ f a u = .ok b t := by
  show Parser.bind p f s = _ ↔ _
  unfold Parser.bind
  cases p s with
  | ok a u => exact ⟨fun h => ⟨a, u, rfl, h⟩, by rintro ⟨_, _, ⟨⟩, h⟩; exact h⟩
  | fail e u => simp

theorem bind_of_ok {p : Parser α} {f : α → Parser β} {a : α} (h : p s = .ok a t) :
    (p >>= f) s = f a t := by
  show Parser.bind p f s = _
  unfold Parser.bind
  rw [h]

theorem bind_of_fail {p : Parser α} {f : α → Parser β} {e : ParseError} (h : p s = .fail e t) :
    (p >>= f) s = .fail e t := by
  show Parser.bind p f s = _
  unfold Parser.bind
  rw [h]

theorem advance_bind (f : Token → Parser α) : (advance >>= f) s = f s.peek s.skip := rfl

theorem stream_bind (f : TokenStream → Parser α) : (stream >>= f) s = f s s := rfl

theorem run_eq_ok {p : Parser α} {a : α} (h : p.run s = .ok a) : ∃ u, p s = .ok a u := by
  unfold run at h
  cases hp : p s with
  | ok b u =>
    rw [hp] at h
    cases h
    exact ⟨u, rfl⟩
  | fail e u =>
    rw [hp] at h
    cases h

theorem parseText_eq_ok {p : Parser α} {source : String} {a : α}
    (h : p.parseText source = .ok a) :
    ∃ ts u, Lexer.tokenize source = .ok ts ∧ p (TokenStream.ofTokens ts) = .ok a u := by
  unfold parseText at h
  split at h
  · cases h
  · next ts hts =>
    split at h
    · next b hrun =>
      cases h
      obtain ⟨u, hu⟩ := run_eq_ok hrun
      exact ⟨ts, u, hts, hu⟩
    · cases h

theorem expect_eq_ok {what : String} {f : Token → Option α} {a : α} :
    expect what f s = .ok a t ↔ f s.peek = some a ∧ t = s.skip := by
  unfold expect
  cases f s.peek with
  | none => simp
  | some b => simp [eq_comm]

theorem symbol_eq_ok {o : Symbol} {a : Token} :
    symbol o s = .ok a t ↔ s.peek.kind = .symbol o ∧ a = s.peek ∧ t = s.skip := by
  unfold symbol
  rw [expect_eq_ok]
  by_cases h : s.peek.kind = .symbol o
  · simp [h, eq_comm]
  · simp [h]

theorem ident_eq_ok {a : String × Position} :
    ident s = .ok a t ↔ s.peek.kind = .ident a.1 ∧ a.2 = s.peek.position ∧ t = s.skip := by
  unfold ident
  rw [expect_eq_ok]
  obtain ⟨name, position⟩ := a
  split
  next n hn => simp [hn, eq_comm, and_assoc]
  next hn => exact ⟨by rintro ⟨⟨⟩, -⟩, fun h => (hn _ h.1).elim⟩

theorem takeIf_some {f : Token → Option α} {a : α} (h : f s.peek = some a) :
    takeIf f s = .ok (some a) s.skip := by
  unfold takeIf
  rw [h]

theorem takeIf_none {f : Token → Option α} (h : f s.peek = none) : takeIf f s = .ok none s := by
  unfold takeIf
  rw [h]

theorem takeSymbol_true {o : Symbol} (h : s.peek.kind = .symbol o) :
    takeSymbol o s = .ok true s.skip := by
  unfold takeSymbol
  rw [h]
  exact if_pos (beq_self_eq_true _)

theorem takeSymbol_false {o : Symbol} (h : s.peek.kind ≠ .symbol o) :
    takeSymbol o s = .ok false s := by
  unfold takeSymbol
  exact if_neg (by simpa using h)

theorem takeKeyword_true {k : Keyword} (h : s.peek.kind = .keyword k) :
    takeKeyword k s = .ok true s.skip := by
  unfold takeKeyword
  rw [h]
  exact if_pos (beq_self_eq_true _)

theorem takeKeyword_false {k : Keyword} (h : s.peek.kind ≠ .keyword k) :
    takeKeyword k s = .ok false s := by
  unfold takeKeyword
  exact if_neg (by simpa using h)

/-- Phrases with a separator between them. -/
def listed (separator : Symbol) : List (List TokenKind) → List TokenKind
  | [] => []
  | ks :: rest => ks ++ rest.flatMap (.symbol separator :: ·)

theorem mem_listed (separator : Symbol) {kss : List (List TokenKind)} {ks : List TokenKind}
    {k : TokenKind} (hks : ks ∈ kss) (hk : k ∈ ks) : k ∈ listed separator kss := by
  cases hks with
  | head rest => exact List.mem_append_left _ hk
  | tail ls hks =>
    exact List.mem_append_right _ (List.mem_flatMap.mpr ⟨ks, hks, List.mem_cons_of_mem _ hk⟩)

section Lists

-- An item `i` is written as `kinds i`, and its value is `value i`.
variable {ι : Type} {kinds : ι → List TokenKind} {value : ι → α} {p : Parser α}
  {separator : Symbol}

theorem passes_itemsUpTo {R : ι → Prop}
    (hp : ∀ s a t, s.Ends → p s = .ok a t → ∃ i, s.Passes (kinds i) t ∧ value i = a ∧ R i)
    {n : Nat} {s t : TokenStream} {as : List α} (hs : s.Ends)
    (h : itemsUpTo separator p n s = .ok as t) :
    ∃ items : List ι, s.Passes ((items.map kinds).flatMap (.symbol separator :: ·)) t ∧
      items.map value = as ∧ ∀ i ∈ items, R i := by
  induction n generalizing s as with
  | zero =>
    cases h
    exact ⟨[], .refl _, rfl, by simp⟩
  | succ n ih =>
    rw [itemsUpTo] at h
    by_cases hk : s.peek.kind = .symbol separator
    · rw [bind_of_ok (takeSymbol_true hk), if_pos rfl] at h
      obtain ⟨a, u, ha, h⟩ := bind_eq_ok.mp h
      obtain ⟨as', v, has, h⟩ := bind_eq_ok.mp h
      cases h
      have hskip := TokenStream.Passes.skip hs hk (by simp)
      obtain ⟨i, hi, rfl, hR⟩ := hp _ _ _ (hskip.ends hs) ha
      obtain ⟨items, hitems, rfl, hall⟩ := ih (hi.ends (hskip.ends hs)) has
      exact ⟨i :: items, hskip.trans (hi.trans hitems), rfl,
        List.forall_mem_cons.mpr ⟨hR, hall⟩⟩
    · rw [bind_of_ok (takeSymbol_false hk), if_neg (by simp)] at h
      cases h
      exact ⟨[], .refl _, rfl, by simp⟩

theorem passes_sepBy {R : ι → Prop}
    (hp : ∀ s a t, s.Ends → p s = .ok a t → ∃ i, s.Passes (kinds i) t ∧ value i = a ∧ R i)
    {s t : TokenStream} {as : List α} (hs : s.Ends) (h : sepBy separator p s = .ok as t) :
    ∃ items : List ι, items ≠ [] ∧ s.Passes (listed separator (items.map kinds)) t ∧
      items.map value = as ∧ ∀ i ∈ items, R i := by
  rw [sepBy] at h
  obtain ⟨a, u, ha, h⟩ := bind_eq_ok.mp h
  obtain ⟨_, _, hstream, h⟩ := bind_eq_ok.mp h
  cases hstream
  obtain ⟨as', v, has, h⟩ := bind_eq_ok.mp h
  cases h
  obtain ⟨i, hi, rfl, hR⟩ := hp _ _ _ hs ha
  obtain ⟨items, hitems, rfl, hall⟩ := passes_itemsUpTo hp (hi.ends hs) has
  exact ⟨i :: items, by simp, hi.trans hitems, rfl, List.forall_mem_cons.mpr ⟨hR, hall⟩⟩

theorem itemsUpTo_of_passes {items : List ι}
    (hp : ∀ i ∈ items, ∀ s t, s.Passes (kinds i) t → p s = .ok (value i) t) {n : Nat}
    {s t : TokenStream} (hn : s.rest.length ≤ n)
    (h : s.Passes ((items.map kinds).flatMap (.symbol separator :: ·)) t)
    (hstop : t.peek.kind ≠ .symbol separator) :
    itemsUpTo separator p n s = .ok (items.map value) t := by
  induction items generalizing s n with
  | nil =>
    rw [h.nil_inv]
    cases n with
    | zero => rfl
    | succ n =>
      rw [itemsUpTo, bind_of_ok (takeSymbol_false hstop)]
      rfl
  | cons i items ih =>
    obtain ⟨hi, hitems⟩ := List.forall_mem_cons.mp hp
    have hskip := h.length_skip
    obtain ⟨hk, h⟩ := h.cons_inv
    obtain ⟨u, hu, h⟩ := h.append_inv
    have hlength := hu.length_eq
    obtain ⟨m, rfl⟩ : ∃ m, n = m + 1 := ⟨n - 1, by omega⟩
    rw [itemsUpTo, bind_of_ok (takeSymbol_true hk), if_pos rfl, bind_of_ok (hi _ _ hu),
      bind_of_ok (ih hitems (by omega) h)]
    rfl

/-- Items that a parser takes one by one are taken as a list. -/
theorem sepBy_of_passes {items : List ι} (hne : items ≠ [])
    (hp : ∀ i ∈ items, ∀ s t, s.Passes (kinds i) t → p s = .ok (value i) t) {s t : TokenStream}
    (h : s.Passes (listed separator (items.map kinds)) t)
    (hstop : t.peek.kind ≠ .symbol separator) :
    sepBy separator p s = .ok (items.map value) t := by
  cases items with
  | nil => exact absurd rfl hne
  | cons i items =>
    obtain ⟨hi, hitems⟩ := List.forall_mem_cons.mp hp
    obtain ⟨u, hu, h⟩ := h.append_inv
    rw [sepBy, bind_of_ok (hi _ _ hu)]
    show (itemsUpTo separator p u.rest.length >>= fun as => Pure.pure (value i :: as)) u = _
    rw [bind_of_ok (itemsUpTo_of_passes hitems (Nat.le_refl _) h hstop)]
    rfl

theorem passes_enclosed {R : ι → Prop}
    (hp : ∀ s a t, s.Ends → p s = .ok a t → ∃ i, s.Passes (kinds i) t ∧ value i = a ∧ R i)
    {close : Symbol} {f : List α → β} {b : β} (hs : s.Ends)
    (h : (do let as ← sepBy separator p; let _ ← symbol close; return f as) s = .ok b t) :
    ∃ items : List ι, items ≠ [] ∧
      s.Passes (listed separator (items.map kinds) ++ [.symbol close]) t ∧
      b = f (items.map value) ∧ ∀ i ∈ items, R i := by
  obtain ⟨as, u, has, h⟩ := bind_eq_ok.mp h
  obtain ⟨_, _, hclose, h⟩ := bind_eq_ok.mp h
  cases h
  obtain ⟨hk, -, rfl⟩ := symbol_eq_ok.mp hclose
  obtain ⟨items, hne, hitems, rfl, hall⟩ := passes_sepBy hp hs has
  exact ⟨items, hne, hitems.trans (.skip (hitems.ends hs) hk (by simp)), rfl, hall⟩

theorem enclosed_of_passes {items : List ι} (hne : items ≠ [])
    (hp : ∀ i ∈ items, ∀ s t, s.Passes (kinds i) t → p s = .ok (value i) t)
    {close : Symbol} {f : List α → β} (hclose : close ≠ separator)
    (h : s.Passes (listed separator (items.map kinds) ++ [.symbol close]) t) :
    (do let as ← sepBy separator p; let _ ← symbol close; return f as) s =
      .ok (f (items.map value)) t := by
  obtain ⟨u, hu, h⟩ := h.append_inv
  obtain ⟨hk, h⟩ := h.cons_inv
  have hstop : u.peek.kind ≠ .symbol separator := by
    rw [hk]
    simpa using hclose
  rw [bind_of_ok (sepBy_of_passes hne hp hu hstop),
    bind_of_ok (symbol_eq_ok.mpr ⟨hk, rfl, rfl⟩), h.nil_inv]
  rfl

end Lists
end Parser
end Attest
