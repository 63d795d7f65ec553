import Attest.Expr.Parser
import Attest.Proofs.Literal.Spelling
import Attest.Proofs.Token.Lexed
import Attest.Proofs.Token.Quoted

/-!
Literals and their texts.

A literal that was read from a source has a text that spells it.  The spelling need not be the one
it was read from: signs may be repeated in the source, and the text has at most one.
-/

namespace Attest

namespace Lexer

/-- The characters that come behind a phrase in the text of an expression. -/
def delimiters : List Char := [' ', ',', ')', ']', '\x7d', ':']

def Delimits (tail : List Char) : Prop := ∀ c ∈ tail.head?, c ∈ delimiters

/-- A text is read as tokens of these kinds before any delimiter. -/
def ReadsAs (cs : List Char) (ks : List TokenKind) : Prop :=
  ∀ tail ms, Delimits tail → Reads tail ms → Reads (cs ++ tail) (ks ++ ms)

theorem Delimits.endsNumber {tail : List Char} (h : Delimits tail) : EndsNumber tail := by
  intro c hc
  have hc := h c hc
  simp only [delimiters, List.mem_cons, List.not_mem_nil, or_false] at hc
  rcases hc with rfl | rfl | rfl | rfl | rfl | rfl <;> decide

theorem Delimits.isIdentRest {tail : List Char} (h : Delimits tail) :
    ∀ c ∈ tail.head?, Text.isIdentRest c = false := by
  intro c hc
  have hc := h c hc
  simp only [delimiters, List.mem_cons, List.not_mem_nil, or_false] at hc
  rcases hc with rfl | rfl | rfl | rfl | rfl | rfl <;> decide

theorem delimits_cons {c : Char} (hc : c ∈ delimiters) (tail : List Char) :
    Delimits (c :: tail) := by
  rintro _ ⟨⟩
  exact hc

theorem readsAs_word {w : String} (hw : IsWord w) : ReadsAs w.toList [wordKind w] :=
  fun _ _ htail h => reads_word hw htail.isIdentRest h

/-- A phrase between an opening and a closing mark. -/
theorem readsAs_enclosed {cs : List Char} {ks : List TokenKind} (h : ReadsAs cs ks) {a b : Char}
    {o p : Symbol} (ha : (a, o) ∈ marks) (hb : (b, p) ∈ marks) (hdelimits : b ∈ delimiters) :
    ReadsAs (a :: (cs ++ [b])) (.symbol o :: (ks ++ [.symbol p])) := by
  intro tail ms _ htail
  have hclose := h _ _ (delimits_cons hdelimits tail) (reads_symbol hb htail)
  simpa using reads_symbol ha hclose

/-- Phrases with commas between them. -/
theorem readsAs_listed {ι : Type} {text : ι → List Char} {kinds : ι → List TokenKind}
    {items : List ι} (h : ∀ i ∈ items, ReadsAs (text i) (kinds i)) :
    ReadsAs ([',', ' '].intercalate (items.map text))
      (Parser.listed .comma (items.map kinds)) := by
  cases items with
  | nil => exact fun _ _ _ htail => htail
  | cons i items =>
    induction items generalizing i with
    | nil => simpa [Parser.listed] using h i (by simp)
    | cons j items ih =>
      intro tail ms hdelimits htail
      have hrest := ih j (fun k hk => h k (List.mem_cons_of_mem _ hk)) tail ms hdelimits htail
      have hcomma := reads_symbol (c := ',') (o := .comma) (by simp)
        (reads_space (c := ' ') (by decide) hrest)
      have hall := h i (by simp) _ _ (delimits_cons (by decide) _) hcomma
      simpa [Parser.listed] using hall

end Lexer

namespace Literal

open Lexer (ReadsAs)

theorem renderItems_eq_map (items : List Literal) : renderItems items = items.map render := by
  induction items with
  | nil => rfl
  | cons v items ih =>
    show v.render :: renderItems items = _
    rw [ih, List.map_cons]

theorem renderFields_eq_map (fields : List (String × Literal)) :
    renderFields fields = fields.map fun f => f.1 ++ ": " ++ f.2.render := by
  induction fields with
  | nil => rfl
  | cons f fields ih =>
    show (f.1 ++ ": " ++ f.2.render) :: renderFields fields = _
    rw [ih, List.map_cons]

/-- The numbers that signs and tokens give. -/
def Proper : Literal → Prop
  | int i => i.toInt < 0
  | float x => x.isFinite = true
  | _ => True

/-- A number whose text begins with a sign. -/
def isSigned : Literal → Bool
  | int _ => true
  | float x => x.negative
  | _ => false

/-- The text of a literal spells it.  Without a sign it can be an expression. -/
structure Written (v : Literal) : Prop where
  proper : v.Proper
  spelled : ∃ d ks, Spelled d ks v ∧ ReadsAs v.render.toList ks ∧
    (v.isSigned = false → ∃ k rest, ks = k :: rest ∧ Expr.startsLiteral k = true)
  unsigned : v.isSigned = false → ∀ c ∈ v.render.toList.head?, c ≠ '-'

theorem ne_minus_of_digit {n : Nat} {c : Char} (tail : List Char)
    (hc : c ∈ (Nat.toDigits 10 n ++ tail).head?) : c ≠ '-' := by
  rw [List.head?_append_of_ne_nil _ Nat.toDigits_ne_nil] at hc
  rintro rfl
  have := Nat.isDigit_of_mem_toDigits (by decide) (by decide) (List.mem_of_mem_head? hc)
  cases this

theorem written_word {v : Literal} {k : TokenKind} (hw : Lexer.IsWord v.render)
    (hk : Lexer.wordKind v.render = k) (hv : ofToken? k = some v) (hproper : v.Proper)
    (hstart : Expr.startsLiteral k = true) : Written v where
  proper := hproper
  spelled := ⟨1, [k], .token hv, hk ▸ Lexer.readsAs_word hw, fun _ => ⟨_, _, rfl, hstart⟩⟩
  unsigned := by
    rintro - c hc rfl
    cases (hw.2.2 _ hc).2.2

theorem written_nat (n : UInt64) : Written (nat n) where
  proper := trivial
  spelled := ⟨1, [.nat n], .token rfl, fun _ _ htail h => Lexer.reads_nat n htail.endsNumber h,
    fun _ => ⟨_, _, rfl, rfl⟩⟩
  unsigned := by
    intro _ c hc
    rw [show (nat n).render.toList = _ from Nat.toList_repr] at hc
    exact ne_minus_of_digit [] (by simpa using hc)

theorem written_int {i : Int64} (hi : i.toInt < 0) : Written (int i) := by
  obtain ⟨m, hm⟩ : ∃ m, i.toInt = Int.negSucc m := Int.eq_negSucc_of_lt_zero hi
  have hlow : -0x8000000000000000 ≤ i.toInt := i.le_toInt
  have hrange : m + 1 < 2 ^ 64 := by omega
  have hn : (m + 1).toUInt64.toNat = m + 1 := UInt64.toNat_ofNat_of_lt' hrange
  have htext : (int i).render.toList = '-' :: (toString (m + 1).toUInt64).toList := by
    show (toString i.toInt).toList = '-' :: (toString (m + 1).toUInt64.toNat).toList
    rw [hm, hn]
    show ("-" ++ toString (m + 1)).toList = _
    rw [String.toList_append]
    rfl
  have hnegate : (nat (m + 1).toUInt64).negate? = some (int i) := by
    rw [negate?, hn, ofInt?, show -((m + 1 : Nat) : Int) = i.toInt by omega, if_neg (by omega),
      if_pos hlow, Int64.ofInt_toInt]
  refine ⟨hi, ⟨2, [.symbol .minus, .nat (m + 1).toUInt64], .minus (.token rfl) hnegate, ?_, ?_⟩, ?_⟩
  · intro tail ms htail h
    rw [htext, List.cons_append]
    refine Lexer.reads_minus ?_ (Lexer.reads_nat _ htail.endsNumber h)
    intro c hc
    rw [show (toString (m + 1).toUInt64).toList = _ from Nat.toList_repr] at hc
    exact ne_minus_of_digit tail hc
  · rintro ⟨⟩
  · rintro ⟨⟩

theorem written_float {x : Double} (hx : x.isFinite = true) : Written (float x) := by
  have heq := x.eq_ofBits_magnitude
  refine ⟨hx, ⟨2, _, ?_, fun _ _ htail h => Lexer.reads_literal hx htail.endsNumber h, ?_⟩, ?_⟩
  · by_cases hneg : x.negative = true
    · rw [if_pos hneg] at heq ⊢
      exact .minus (.token rfl) (congrArg (some ∘ float) heq.symm)
    · rw [if_neg hneg] at heq ⊢
      exact .token (congrArg (some ∘ float) heq.symm)
  · intro hneg
    rw [if_neg (by simpa [isSigned] using hneg)]
    exact ⟨_, _, rfl, rfl⟩
  · intro hneg c hc
    obtain ⟨whole, fraction, hspelled, -, htext⟩ := Double.literal_eq hx
    rw [show (float x).render = x.literal from rfl, htext,
      if_neg (by simpa [isSigned] using hneg)] at hc
    rintro rfl
    cases hw : whole with
    | nil => exact hspelled.whole_ne hw
    | cons d ds =>
      have hd := hspelled.digit d (by rw [hw]; exact List.mem_cons_self)
      rw [hw] at hc
      rw [show d = '-' by simpa using hc] at hd
      cases hd

theorem written_text (s : String) : Written (text s) where
  proper := trivial
  spelled := ⟨1, [.text s], .token rfl, fun _ _ _ h => Lexer.reads_quote s h,
    fun _ => ⟨_, _, rfl, rfl⟩⟩
  unsigned := by
    intro _ c hc
    have hquote : (text s).render.toList.head? = some '"' := by
      show (Text.quote s).toList.head? = some '"'
      simp [Text.quote, Text.quoteChars]
    rw [hquote] at hc
    cases hc
    decide

theorem written_bool (b : Bool) : Written (bool b) := by
  have hword : Lexer.IsWord (bool b).render := by
    show Lexer.IsWord (if b then "TRUE" else "FALSE")
    unfold Lexer.IsWord
    cases b <;> simp <;> decide
  have hkind : Lexer.wordKind (bool b).render = .bool b := by cases b <;> decide +kernel
  exact written_word hword hkind rfl trivial rfl

theorem written_null : Written null := by
  have hword : Lexer.IsWord null.render := by
    show Lexer.IsWord "NULL"
    unfold Lexer.IsWord
    simp
    decide
  exact written_word hword (show _ = TokenKind.null by decide +kernel) rfl trivial rfl

theorem proper_of_ofInt? {i : Int} {v : Literal} (h : ofInt? i = some v) :
    v.Proper ∧ v.isNumber = true := by
  unfold ofInt? at h
  split_ifs at h with hpos _ hlow
  · cases h
    exact ⟨trivial, rfl⟩
  · cases h
    refine ⟨?_, rfl⟩
    show (Int64.ofInt i).toInt < 0
    rw [Int64.toInt_ofInt_of_le hlow (by omega)]
    omega

theorem proper_of_negate? {v w : Literal} (hv : v.Proper) (h : v.negate? = some w) :
    w.Proper ∧ w.isNumber = true := by
  unfold negate? at h
  split at h
  · exact proper_of_ofInt? h
  · exact proper_of_ofInt? h
  · cases h
    exact ⟨(Double.isFinite_neg _).trans hv, rfl⟩
  · cases h

theorem written_of_isNumber {v : Literal} (hv : v.Proper) (h : v.isNumber = true) :
    Written v := by
  cases v with
  | nat n => exact written_nat n
  | int i => exact written_int hv
  | float x => exact written_float hv
  | _ => cases h

/-- Written literals in a list have spellings under one bound. -/
theorem exists_spellings {ι : Type} {value : ι → Literal} {items : List ι}
    (h : ∀ i ∈ items, Written (value i)) :
    ∃ (d : Nat) (kinds : ι → List TokenKind), ∀ i ∈ items,
      Spelled d (kinds i) (value i) ∧ ReadsAs (value i).render.toList (kinds i) := by
  have hbound : ∃ d, ∀ i ∈ items, ∃ ks,
      Spelled d ks (value i) ∧ ReadsAs (value i).render.toList ks := by
    induction items with
    | nil => exact ⟨0, by simp⟩
    | cons i items ih =>
      obtain ⟨hi, hitems⟩ := List.forall_mem_cons.mp h
      obtain ⟨d, ks, hspelled, hreads, -⟩ := hi.spelled
      obtain ⟨d', hd'⟩ := ih hitems
      refine ⟨max d d', List.forall_mem_cons.mpr ⟨⟨ks, hspelled.weaken (by omega), hreads⟩, ?_⟩⟩
      intro j hj
      obtain ⟨ls, hls, hreads⟩ := hd' j hj
      exact ⟨ls, hls.weaken (by omega), hreads⟩
  obtain ⟨d, hd⟩ := hbound
  choose! kinds hkinds using hd
  exact ⟨d, kinds, hkinds⟩

theorem written_vector {items : List Literal} (h : ∀ v ∈ items, Written v) :
    Written (vector items) := by
  obtain ⟨d, kinds, hkinds⟩ := exists_spellings h
  have htext : (vector items).render.toList =
      '[' :: ([',', ' '].intercalate (items.map (·.render.toList)) ++ [']']) := by
    show ("[" ++ ", ".intercalate (renderItems items) ++ "]").toList = _
    rw [renderItems_eq_map]
    simp [String.toList_intercalate, Function.comp_def]
  have hspelled : Spelled (d + 1) (.symbol .lbracket ::
      (Parser.listed .comma (items.map kinds) ++ [.symbol .rbracket])) (vector items) := by
    have hitems : ∀ i ∈ items.map fun v => (kinds v, v), Spelled d i.1 i.2 := by
      intro i hi
      obtain ⟨v, hv, rfl⟩ := List.mem_map.mp hi
      exact (hkinds v hv).1
    simpa [Function.comp_def] using Spelled.vector hitems
  refine ⟨trivial, ⟨d + 1, _, hspelled, ?_, fun _ => ⟨_, _, rfl, rfl⟩⟩, ?_⟩
  · rw [htext]
    have hitems := Lexer.readsAs_listed fun v hv => (hkinds v hv).2
    exact Lexer.readsAs_enclosed hitems (by decide) (by decide) (by decide)
  · rw [htext]
    rintro - _ ⟨⟩
    decide

theorem readsAs_field {name : String} (hname : TokenKind.Lexed (.ident name)) {cs : List Char}
    {ks : List TokenKind} (h : ReadsAs cs ks) :
    ReadsAs (name.toList ++ ':' :: ' ' :: cs) (.ident name :: .symbol .colon :: ks) := by
  intro tail ms hdelimits htail
  have hvalue := Lexer.reads_space (c := ' ') (by decide) (h tail ms hdelimits htail)
  have hcolon := Lexer.reads_symbol (c := ':') (o := .colon) (by simp) hvalue
  have hword := Lexer.readsAs_word hname.1 _ _ (Lexer.delimits_cons (by decide) _) hcolon
  rw [hname.2] at hword
  simpa using hword

theorem written_record {fields : List (String × Literal)} (hne : fields ≠ [])
    (hnames : ∀ f ∈ fields, TokenKind.Lexed (.ident f.1)) (h : ∀ f ∈ fields, Written f.2) :
    Written (record fields) := by
  obtain ⟨d, kinds, hkinds⟩ := exists_spellings h
  have htext : (record fields).render.toList = '\x7b' :: ([',', ' '].intercalate
      (fields.map fun f => f.1.toList ++ ':' :: ' ' :: f.2.render.toList) ++ ['\x7d']) := by
    show ("\x7b" ++ ", ".intercalate (renderFields fields) ++ "\x7d").toList = _
    rw [renderFields_eq_map]
    simp [String.toList_intercalate, Function.comp_def]
  have hspelled : Spelled (d + 1) (.symbol .lbrace ::
      (Parser.listed .comma (fields.map fun f => .ident f.1 :: .symbol .colon :: kinds f) ++
        [.symbol .rbrace])) (record fields) := by
    have hfields : ∀ i ∈ fields.map fun f => (kinds f, f), Spelled d i.1 i.2.2 := by
      intro i hi
      obtain ⟨f, hf, rfl⟩ := List.mem_map.mp hi
      exact (hkinds f hf).1
    simpa [Function.comp_def] using Spelled.record (by simpa using hne) hfields
  refine ⟨trivial, ⟨d + 1, _, hspelled, ?_, fun _ => ⟨_, _, rfl, rfl⟩⟩, ?_⟩
  · rw [htext]
    have hitems := Lexer.readsAs_listed fun f hf => readsAs_field (hnames f hf) (hkinds f hf).2
    exact Lexer.readsAs_enclosed hitems (by decide) (by decide) (by decide)
  · rw [htext]
    rintro - _ ⟨⟩
    decide

/-- A literal that is spelled by tokens of a source is spelled by its text. -/
theorem written_of_spelled {d : Nat} {ks : List TokenKind} {v : Literal} (h : Spelled d ks v)
    (hks : ∀ k ∈ ks, k.Lexed) : Written v := by
  induction h with
  | @token _ k v h =>
    have hk := hks k (by simp)
    cases k <;> cases h
    · exact written_nat _
    · exact written_float hk.1
    · exact written_text _
    · exact written_bool _
    · exact written_null
  | minus _ hw ih =>
    obtain ⟨hproper, hnumber⟩ :=
      proper_of_negate? (ih fun k hk => hks k (List.mem_cons_of_mem _ hk)).proper hw
    exact written_of_isNumber hproper hnumber
  | plus _ _ ih => exact ih fun k hk => hks k (List.mem_cons_of_mem _ hk)
  | @vector _ items _ ih =>
    refine written_vector fun v hv => ?_
    obtain ⟨i, hi, rfl⟩ := List.mem_map.mp hv
    refine ih i hi fun k hk => hks k (List.mem_cons_of_mem _ (List.mem_append_left _ ?_))
    exact Parser.mem_listed .comma (List.mem_map_of_mem hi) hk
  | @record _ items hne _ ih =>
    have hmem : ∀ i ∈ items, ∀ k ∈ TokenKind.ident i.2.1 :: .symbol .colon :: i.1, k.Lexed := by
      intro i hi k hk
      refine hks k (List.mem_cons_of_mem _ (List.mem_append_left _ ?_))
      exact Parser.mem_listed .comma (List.mem_map.mpr ⟨i, hi, rfl⟩) hk
    refine written_record (by simpa using hne) ?_ ?_
    · intro f hf
      obtain ⟨i, hi, rfl⟩ := List.mem_map.mp hf
      exact hmem i hi _ (List.mem_cons_self ..)
    · intro f hf
      obtain ⟨i, hi, rfl⟩ := List.mem_map.mp hf
      exact ih i hi fun k hk =>
        hmem i hi k (List.mem_cons_of_mem _ (List.mem_cons_of_mem _ hk))

end Literal
end Attest
