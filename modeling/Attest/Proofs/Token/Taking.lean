import Attest.Proofs.Token.Passage

/-!
Which tokens parsers take.

Whatever a parser replies, it has only gone on in its stream; a failure leaves the stream somewhere
behind, and a choice looks at how far.  `Takes P` says that, and that with a value all tokens taken
are of kinds that satisfy `P`.  It passes through all that parsers are built from, so it is said of
a grammar rule by rule, without a word on what the phrases are.  `Ensures K p P` goes the other way:
where all tokens are of kinds that satisfy `K`, the values made of them satisfy `P`.
-/

namespace Attest

/-- The way behind the next token; at the end of a stream there is none to pass. -/
theorem TokenStream.Passes.exists_skip (s : TokenStream) :
    ∃ ks, s.Passes ks s.skip ∧ ∀ k ∈ ks, k = s.peek.kind := by
  obtain ⟨rest, last⟩ := s
  cases rest with
  | nil => exact ⟨[], .refl _, by simp⟩
  | cons t rest => exact ⟨[t.kind], ⟨[t], rfl, rfl, rfl⟩, by simp [TokenStream.peek]⟩

theorem TokenStream.Passes.eq_of_length {s t : TokenStream} {ks : List TokenKind}
    (h : s.Passes ks t) (hlength : t.rest.length = s.rest.length) : s = t := by
  have hks := h.length_eq
  rw [List.eq_nil_of_length_eq_zero (show ks.length = 0 by omega)] at h
  exact h.nil_inv

/-- A reply of a parser on a stream that has taken only tokens of some kinds if it has a value. -/
inductive Reply.Behind {α : Type} (P : TokenKind → Prop) (s : TokenStream) : Reply α → Prop where
  | ok {a : α} {t : TokenStream} {ks : List TokenKind} (h : s.Passes ks t) (hks : ∀ k ∈ ks, P k) :
      Behind P s (.ok a t)
  | fail {e : ParseError} {t : TokenStream} {ks : List TokenKind} (h : s.Passes ks t) :
      Behind P s (.fail e t)

theorem Reply.Behind.any {α : Type} {P : TokenKind → Prop} {s : TokenStream} {r : Reply α}
    (h : r.Behind P s) : r.Behind (fun _ => True) s := by
  cases h with
  | ok h _ => exact .ok h fun _ _ => trivial
  | fail h => exact .fail h

namespace Parser

variable {α β : Type} {P : TokenKind → Prop} {p : Parser α} {s t : TokenStream}

/-- A parser takes only tokens of some kinds. -/
def Takes (P : TokenKind → Prop) (p : Parser α) : Prop := ∀ s, (p s).Behind P s

theorem behind_bind {f : α → Parser β} (hp : (p s).Behind P s) (hf : ∀ a, Takes P (f a)) :
    ((p >>= f) s).Behind P s := by
  show (Parser.bind p f s).Behind P s
  unfold Parser.bind
  generalize p s = reply at hp
  cases hp with
  | @ok a t ks h hks =>
    dsimp only
    have hrest := hf a t
    generalize f a t = reply at hrest
    cases hrest with
    | ok h' hks' => exact .ok (h.trans h') (List.forall_mem_append.mpr ⟨hks, hks'⟩)
    | fail h' => exact .fail (h.trans h')
  | fail h => exact .fail h

theorem behind_skip (h : P s.peek.kind) (a : α) : (Reply.ok a s.skip).Behind P s := by
  obtain ⟨ks, hpass, hks⟩ := TokenStream.Passes.exists_skip s
  refine .ok hpass fun k hk => ?_
  rw [hks k hk]
  exact h

theorem behind_advance (h : P s.peek.kind) : (advance s).Behind P s := behind_skip h s.peek

namespace Takes

theorem pure (a : α) : Takes P (Pure.pure a : Parser α) := fun s => .ok (.refl s) (by simp)

theorem fail (e : ParseError) : Takes P (Parser.fail e : Parser α) := fun s => .fail (.refl s)

theorem unexpected (expected : List String) : Takes P (Parser.unexpected expected : Parser α) :=
  fun s => .fail (.refl s)

theorem refuse (expected : List String) (note : String) :
    Takes P (Parser.refuse expected note : Parser α) :=
  fun s => .fail (.refl s)

theorem stream : Takes P Parser.stream := fun s => .ok (.refl s) (by simp)

theorem bind {f : α → Parser β} (hp : Takes P p) (hf : ∀ a, Takes P (f a)) : Takes P (p >>= f) :=
  fun s => behind_bind (hp s) hf

theorem map {f : α → β} (hp : Takes P p) : Takes P (f <$> p) := hp.bind fun _ => .pure _

/-- A token may be taken before it is looked at, if all is over where it is of no such kind. -/
theorem advance_bind {f : Token → Parser α} (hf : ∀ t, Takes P (f t))
    (hno : ∀ t s, ¬ P t.kind → ∃ e, f t s = .fail e s) : Takes P (advance >>= f) := by
  intro s
  by_cases h : P s.peek.kind
  · exact behind_bind (behind_skip h s.peek) hf
  · obtain ⟨e, he⟩ := hno s.peek s.skip h
    obtain ⟨ks, hpass, -⟩ := TokenStream.Passes.exists_skip s
    rw [Parser.advance_bind, he]
    exact .fail hpass

theorem takeIf {f : Token → Option α} (h : ∀ t a, f t = some a → P t.kind) :
    Takes P (Parser.takeIf f) := by
  intro s
  unfold Parser.takeIf
  split
  · next a ha => exact behind_skip (h _ a ha) _
  · exact .ok (.refl s) (by simp)

theorem expect {what : String} {f : Token → Option α} (h : ∀ t a, f t = some a → P t.kind) :
    Takes P (Parser.expect what f) := by
  intro s
  unfold Parser.expect
  split
  · next a ha => exact behind_skip (h _ a ha) _
  · exact .fail (.refl s)

theorem takeKeyword {k : Keyword} (h : P (.keyword k)) : Takes P (Parser.takeKeyword k) := by
  intro s
  unfold Parser.takeKeyword
  split
  · next hk => exact behind_skip (eq_of_beq hk ▸ h) true
  · exact .ok (.refl s) (by simp)

theorem takeSymbol {o : Symbol} (h : P (.symbol o)) : Takes P (Parser.takeSymbol o) := by
  intro s
  unfold Parser.takeSymbol
  split
  · next hk => exact behind_skip (eq_of_beq hk ▸ h) true
  · exact .ok (.refl s) (by simp)

theorem keyword {k : Keyword} (h : P (.keyword k)) : Takes P (Parser.keyword k) := by
  refine expect fun t a ht => ?_
  split at ht
  · next hk => exact eq_of_beq hk ▸ h
  · cases ht

theorem symbol {o : Symbol} (h : P (.symbol o)) : Takes P (Parser.symbol o) := by
  refine expect fun t a ht => ?_
  split at ht
  · next hk => exact eq_of_beq hk ▸ h
  · cases ht

theorem ident (h : ∀ name, P (.ident name)) : Takes P Parser.ident := by
  refine expect fun t a ht => ?_
  split at ht
  · next name hname => exact hname ▸ h name
  · cases ht

theorem natural (h : ∀ n, P (.nat n)) : Takes P Parser.natural := by
  refine expect fun t a ht => ?_
  split at ht
  · next n hn => exact hn ▸ h n
  · cases ht

theorem text {what : String} (h : ∀ s, P (.text s)) : Takes P (Parser.text what) := by
  refine expect fun t a ht => ?_
  split at ht
  · next s hs => exact hs ▸ h s
  · cases ht

end Takes

/-- Without a value, nothing has been taken. -/
theorem optional_eq_ok (hp : Takes P p) {o : Option α} (h : optional p s = .ok o t) :
    o = none ∧ t = s ∨ ∃ a, o = some a ∧ p s = .ok a t := by
  unfold optional at h
  have hreply := hp s
  generalize p s = reply at h hreply
  cases hreply with
  | @ok a u ks _ _ =>
    cases h
    exact .inr ⟨a, rfl, rfl⟩
  | fail hpass =>
    dsimp only at h
    split at h
    · next hlength =>
      cases h
      exact .inl ⟨rfl, (hpass.eq_of_length (eq_of_beq hlength)).symm⟩
    · cases h

theorem Takes.optional (hp : Takes P p) : Takes P (Parser.optional p) := by
  intro s
  unfold Parser.optional
  have hreply := hp s
  generalize p s = reply at hreply
  cases hreply with
  | ok hpass hks => exact .ok hpass hks
  | fail hpass =>
    dsimp only
    split
    · next hlength =>
      rw [← hpass.eq_of_length (eq_of_beq hlength)]
      exact .ok (.refl s) (by simp)
    · exact .fail hpass

theorem Takes.itemsUpTo {separator : Symbol} (hseparator : P (.symbol separator)) (hp : Takes P p)
    (n : Nat) : Takes P (Parser.itemsUpTo separator p n) := by
  induction n with
  | zero => exact .pure []
  | succ n ih =>
    refine (Takes.takeSymbol hseparator).bind fun more => ?_
    split
    · exact hp.bind fun _ => ih.bind fun _ => .pure _
    · exact .pure []

theorem Takes.sepBy {separator : Symbol} (hseparator : P (.symbol separator)) (hp : Takes P p) :
    Takes P (Parser.sepBy separator p) :=
  hp.bind fun _ => .bind .stream fun _ => (hp.itemsUpTo hseparator _).bind fun _ => .pure _

theorem Takes.manyUpTo (hp : Takes P p) (n : Nat) : Takes P (Parser.manyUpTo p n) := by
  induction n with
  | zero => exact .pure []
  | succ n ih =>
    intro s
    unfold Parser.manyUpTo
    have hfirst := hp.optional s
    generalize Parser.optional p s = reply at hfirst
    cases hfirst with
    | fail h => exact .fail h
    | @ok o t ks h hks =>
      cases o with
      | none => exact .ok h hks
      | some a =>
        dsimp only
        split
        · exact .ok h hks
        · have hrest := ih t
          generalize Parser.manyUpTo p n t = reply at hrest
          cases hrest with
          | ok h' hks' => exact .ok (h.trans h') (List.forall_mem_append.mpr ⟨hks, hks'⟩)
          | fail h' => exact .fail (h.trans h')

theorem Takes.many (hp : Takes P p) : Takes P (Parser.many p) := fun s => hp.manyUpTo _ s

theorem passes_manyUpTo {kinds : α → List TokenKind} (hp : Takes P p)
    (hkinds : ∀ s a t, s.Ends → p s = .ok a t → s.Passes (kinds a) t) {n : Nat} {as : List α}
    (hs : s.Ends) (h : manyUpTo p n s = .ok as t) : s.Passes (as.flatMap kinds) t := by
  induction n generalizing s as with
  | zero =>
    cases h
    exact .refl _
  | succ n ih =>
    unfold manyUpTo at h
    split at h
    · cases h
    · next u hnone =>
      cases h
      rcases optional_eq_ok hp hnone with ⟨-, rfl⟩ | ⟨a, ⟨⟩, -⟩
      exact .refl _
    · next a u hsome =>
      rcases optional_eq_ok hp hsome with ⟨⟨⟩, -⟩ | ⟨a', ⟨⟩, ha⟩
      have hfirst := hkinds s a u hs ha
      split at h
      · cases h
        simpa using hfirst
      · split at h
        · next as' v has =>
          cases h
          exact hfirst.trans (ih (hfirst.ends hs) has)
        · cases h

end Parser

/-- A stream of tokens of some kinds, which ends. -/
def TokenStream.MadeOf (K : TokenKind → Prop) (s : TokenStream) : Prop :=
  (∀ t ∈ s.rest, K t.kind) ∧ s.Ends

namespace TokenStream.MadeOf

variable {K : TokenKind → Prop} {s t : TokenStream} {ks : List TokenKind}

theorem passes (hs : s.MadeOf K) (h : s.Passes ks t) : (∀ k ∈ ks, K k) ∧ t.MadeOf K := by
  refine ⟨fun k hk => ?_, ?_, h.ends hs.2⟩
  · obtain ⟨u, hu, rfl⟩ := h.exists_mem hk
    exact hs.1 u hu
  · obtain ⟨ts, hrest, -, -⟩ := h
    intro u hu
    exact hs.1 u (by rw [hrest]; exact List.mem_append_right _ hu)

theorem skip (hs : s.MadeOf K) : s.skip.MadeOf K := by
  obtain ⟨ks, hpass, -⟩ := TokenStream.Passes.exists_skip s
  exact (hs.passes hpass).2

theorem peek (hs : s.MadeOf K) (h : s.peek.kind ≠ .eof) : K s.peek.kind :=
  (hs.passes (.skip hs.2 rfl h)).1 _ List.mem_cons_self

end TokenStream.MadeOf

namespace Parser

variable {α β : Type} {K : TokenKind → Prop} {p : Parser α} {P : α → Prop} {Q : β → Prop}

/-- Of tokens of some kinds a parser makes only values that satisfy `P`. -/
def Ensures (K : TokenKind → Prop) (p : Parser α) (P : α → Prop) : Prop :=
  ∀ s a t, s.MadeOf K → p s = .ok a t → P a ∧ t.MadeOf K

namespace Ensures

theorem pure {a : α} (h : P a) : Ensures K (Pure.pure a : Parser α) P := by
  intro s b t hs hb
  cases hb
  exact ⟨h, hs⟩

theorem bind {f : α → Parser β} (hp : Ensures K p P) (hf : ∀ a, P a → Ensures K (f a) Q) :
    Ensures K (p >>= f) Q := by
  intro s b t hs h
  obtain ⟨a, u, ha, h⟩ := bind_eq_ok.mp h
  obtain ⟨hPa, hu⟩ := hp s a u hs ha
  exact hf a hPa u b t hu h

theorem unexpected (expected : List String) : Ensures K (Parser.unexpected expected) P :=
  fun _ _ _ _ h => by cases h

theorem refuse (expected : List String) (note : String) :
    Ensures K (Parser.refuse expected note) P :=
  fun _ _ _ _ h => by cases h

theorem stream : Ensures K Parser.stream (·.MadeOf K) := by
  intro s a t hs h
  cases h
  exact ⟨hs, hs⟩

theorem expect {what : String} {f : Token → Option α}
    (h : ∀ t a, (t.kind ≠ .eof → K t.kind) → f t = some a → P a) :
    Ensures K (Parser.expect what f) P := by
  intro s a t hs ha
  obtain ⟨hvalue, rfl⟩ := expect_eq_ok.mp ha
  exact ⟨h _ _ hs.peek hvalue, hs.skip⟩

theorem takeSymbol (o : Symbol) : Ensures K (Parser.takeSymbol o) fun _ => True := by
  intro s a t hs ha
  unfold Parser.takeSymbol at ha
  split at ha <;> cases ha
  · exact ⟨trivial, hs.skip⟩
  · exact ⟨trivial, hs⟩

theorem takeKeyword (k : Keyword) : Ensures K (Parser.takeKeyword k) fun _ => True := by
  intro s a t hs ha
  unfold Parser.takeKeyword at ha
  split at ha <;> cases ha
  · exact ⟨trivial, hs.skip⟩
  · exact ⟨trivial, hs⟩

theorem symbol (o : Symbol) : Ensures K (Parser.symbol o) fun _ => True :=
  .expect fun _ _ _ _ => trivial

theorem keyword (k : Keyword) : Ensures K (Parser.keyword k) fun _ => True :=
  .expect fun _ _ _ _ => trivial

theorem natural : Ensures K Parser.natural fun _ => True := .expect fun _ _ _ _ => trivial

/-- What holds of a value by the tokens that it was made of. -/
theorem of_passes
    (h : ∀ s a t, s.Ends → p s = .ok a t → ∃ ks, s.Passes ks t ∧ ((∀ k ∈ ks, K k) → P a)) :
    Ensures K p P := by
  intro s a t hs ha
  obtain ⟨ks, hpass, hP⟩ := h s a t hs.2 ha
  obtain ⟨hks, ht⟩ := hs.passes hpass
  exact ⟨hP hks, ht⟩

theorem of_takes {T : TokenKind → Prop} (ht : Takes T p) : Ensures K p fun _ => True := by
  refine of_passes fun s a t _ ha => ?_
  have hreply := ht s
  rw [ha] at hreply
  cases hreply with
  | @ok _ _ ks hpass _ => exact ⟨ks, hpass, fun _ => trivial⟩

theorem optional {T : TokenKind → Prop} (ht : Takes T p) (hp : Ensures K p P) :
    Ensures K (Parser.optional p) fun o => ∀ a ∈ o, P a := by
  intro s o t hs h
  rcases optional_eq_ok ht h with ⟨rfl, rfl⟩ | ⟨a, rfl, ha⟩
  · exact ⟨by simp, hs⟩
  · obtain ⟨hPa, ht⟩ := hp s a t hs ha
    exact ⟨by simpa using hPa, ht⟩

theorem itemsUpTo {separator : Symbol} (hp : Ensures K p P) (n : Nat) :
    Ensures K (Parser.itemsUpTo separator p n) fun as => ∀ a ∈ as, P a := by
  induction n with
  | zero => exact .pure (by simp)
  | succ n ih =>
    refine (takeSymbol separator).bind fun more _ => ?_
    split
    · exact hp.bind fun a ha => ih.bind fun as has => .pure (List.forall_mem_cons.mpr ⟨ha, has⟩)
    · exact .pure (by simp)

theorem sepBy {separator : Symbol} (hp : Ensures K p P) :
    Ensures K (Parser.sepBy separator p) fun as => ∀ a ∈ as, P a :=
  hp.bind fun _ ha => stream.bind fun _ _ => (hp.itemsUpTo _).bind fun _ has =>
    .pure (List.forall_mem_cons.mpr ⟨ha, has⟩)

end Ensures
end Parser
end Attest
