import Attest.Proofs.Item.Same
import Attest.Proofs.Text.Instant
import Attest.Proofs.Text.Uuid
import Attest.Proofs.Token.Quoted
import Attest.Proofs.Ty.Same
import Attest.Proofs.Wire.Regular

/-!
Texts of values.

The text of a value does not say of which type it is: a quotation may be a text, an identifier or
an instant.  Of two values of one type, without a NaN in them, it does show which one it is of, and
also where it ends.
-/

namespace Attest

open Text (Tells)

namespace Text

/-- The characters that end a part of the text of a type or a value. -/
def closers : List Char := [',', ']', ')', '\x7d', '|']

def closes (c : Char) : Bool := closers.contains c

theorem closes_of_isDigit (c : Char) (h : c.isDigit = true) : closes c = false := by
  have hnone : closers.all (fun d => !d.isDigit) = true := by decide
  apply Bool.eq_false_iff.mpr
  intro hc
  have hc := List.all_eq_true.mp hnone c (List.contains_iff_mem.mp hc)
  rw [h] at hc
  cases hc

theorem closes_of_mem {c : Char} {cs : List Char} (hcs : cs.all (fun d => !closes d) = true)
    (hc : c ∈ cs) : closes c = false := by
  simpa using List.all_eq_true.mp hcs c hc

end Text

namespace Double

/-- The text of a number without a sign. -/
inductive Bare : List Char → Double → Prop where
  | digits {whole fraction : List Char} (h : Decimal.Spelled whole fraction) :
    Bare (whole ++ '.' :: fraction) (ofDigits whole fraction false [])
  | infinity : Bare ['i', 'n', 'f'] infinity

theorem Bare.mem {cs : List Char} {m : Double} (h : Bare cs m) {c : Char} (hc : c ∈ cs) :
    c.isDigit = true ∨ c ∈ ['.', 'i', 'n', 'f'] := by
  cases h with
  | digits hspelled =>
    have hdigit := hspelled.digit c
    simp only [List.mem_append, List.mem_cons] at hc hdigit ⊢
    tauto
  | infinity => exact .inr (List.mem_cons_of_mem _ hc)

theorem Bare.unique {cs : List Char} {m n : Double} (hm : Bare cs m) (hn : Bare cs n) : m = n := by
  have hpoint : ∀ {whole fraction : List Char}, whole ++ '.' :: fraction ≠ ['i', 'n', 'f'] := by
    intro whole fraction heq
    have hmem : '.' ∈ ['i', 'n', 'f'] := heq ▸ List.mem_append_right _ List.mem_cons_self
    exact absurd hmem (by decide)
  generalize hds : cs = ds at hn
  cases hm with
  | digits h =>
    cases hn with
    | digits h' =>
      -- the digits before the point end at the point
      have hrun : ∀ {whole fraction : List Char}, Decimal.Spelled whole fraction →
          ∀ c ∈ whole, (!c.isDigit) = false := by
        intro whole fraction hspelled c hc
        rw [hspelled.digit c (List.mem_append_left _ hc)]
        rfl
      have htells : Tells (fun c => !c.isDigit) _ _ _ := .run (hrun h) (hrun h') id
      obtain ⟨rfl, hrest⟩ := htells _ _ (Text.ended_cons rfl _) (Text.ended_cons rfl _) hds
      rw [(List.cons.inj hrest).2]
    | infinity => exact absurd hds hpoint
  | infinity =>
    cases hn with
    | digits h' => exact absurd hds.symm hpoint
    | infinity => rfl

theorem bare_literal {x : Double} (hx : x.isNaN = false) :
    ∃ cs, Bare cs (ofBits x.magnitude) ∧
      x.literal.toList = (if x.negative then ['-'] else []) ++ cs := by
  have hsign : (if x.negative then "-" else "").toList = if x.negative then ['-'] else [] := by
    split <;> rfl
  by_cases hfinite : x.isFinite = true
  · obtain ⟨whole, fraction, hspelled, hvalue, htext⟩ := literal_eq hfinite
    refine ⟨whole ++ '.' :: fraction, hvalue ▸ .digits hspelled, ?_⟩
    rw [htext, String.toList_append, hsign, String.toList_ofList]
  · have hmagnitude : x.magnitude = infinityBits := by
      have hlow : ¬ x.magnitude < infinityBits := by simpa [isFinite] using hfinite
      have hhigh : ¬ infinityBits < x.magnitude := by simpa [isNaN] using hx
      omega
    refine ⟨['i', 'n', 'f'], hmagnitude ▸ .infinity, ?_⟩
    have htext : x.literal = (if x.negative then "-" else "") ++ "inf" := by
      unfold literal render
      simp [hx, hfinite]
    rw [htext, String.toList_append, hsign]
    rfl

theorem literal_inj {x y : Double} (hx : x.isNaN = false) (hy : y.isNaN = false)
    (h : x.literal = y.literal) : x = y := by
  obtain ⟨cs, hcs, hxs⟩ := bare_literal hx
  obtain ⟨ds, hds, hys⟩ := bare_literal hy
  have hminus : ∀ {cs : List Char} {m : Double}, Bare cs m → '-' ∉ cs := by
    intro cs m hm hmem
    exact absurd (hm.mem hmem) (by decide)
  have hsame : x.negative = y.negative ∧ cs = ds := by
    rw [h, hys] at hxs
    cases hnx : x.negative <;> cases hny : y.negative <;> simp [hnx, hny] at hxs ⊢
    · exact hxs.symm
    · exact absurd (hxs ▸ List.mem_cons_self) (hminus hcs)
    · exact absurd (hxs ▸ List.mem_cons_self) (hminus hds)
    · exact hxs.symm
  have hmagnitude := hcs.unique (hsame.2 ▸ hds)
  rw [x.eq_ofBits_magnitude, y.eq_ofBits_magnitude, hsame.1, hmagnitude]

theorem tells_literal {x y : Double} (hx : x.isNaN = false) (hy : y.isNaN = false) :
    Tells Text.closes (x = y) x.literal.toList y.literal.toList := by
  have hrun : ∀ {z : Double}, z.isNaN = false → ∀ c ∈ z.literal.toList, Text.closes c = false := by
    intro z hz c hc
    obtain ⟨cs, hcs, htext⟩ := bare_literal hz
    rw [htext] at hc
    rcases List.mem_append.mp hc with hc | hc
    · split at hc
      · exact Text.closes_of_mem (by decide) hc
      · cases hc
    · rcases hcs.mem hc with hdigit | hmem
      · exact Text.closes_of_isDigit c hdigit
      · exact Text.closes_of_mem (by decide) hmem
  exact .run (hrun hx) (hrun hy) fun heq => literal_inj hx hy (String.toList_inj.mp heq)

end Double

namespace Text

theorem tells_nat (m n : UInt64) :
    Tells closes (m = n) (toString m).toList (toString n).toList := by
  rw [show (toString m).toList = zeroed 0 m.toNat from Nat.toList_repr,
    show (toString n).toList = zeroed 0 n.toNat from Nat.toList_repr]
  exact (tells_zeroed closes_of_isDigit 0 0 m.toNat n.toNat).imp UInt64.toNat_inj.mp

theorem toList_int (i : Int64) :
    (toString i).toList = (if i.toInt < 0 then ['-'] else []) ++ zeroed 0 i.toInt.natAbs := by
  show (Int.repr i.toInt).toList = _
  cases i.toInt with
  | ofNat n => exact Nat.toList_repr
  | negSucc n =>
    show ("-" ++ Nat.repr (n + 1)).toList = _
    rw [String.toList_append, Nat.toList_repr, if_pos (Int.negSucc_lt_zero n)]
    rfl

theorem tells_int (i j : Int64) :
    Tells closes (i = j) (toString i).toList (toString j).toList := by
  have hsign : ∀ k : Int64, ∀ c ∈ if k.toInt < 0 then ['-'] else [], c.isDigit = false := by
    intro k c hc
    split at hc
    · rw [List.mem_singleton.mp hc]
      decide
    · cases hc
  rw [toList_int, toList_int]
  refine (tells_signed closes_of_isDigit (hsign i) (hsign j) 0 0 _ _).imp fun ⟨hsame, habs⟩ => ?_
  apply Int64.toInt_inj.mp
  split at hsame <;> split at hsame <;> simp at hsame <;> omega

/-- The text of one truth value is no beginning of the other's. -/
theorem tells_bool (a b : Bool) :
    Tells closes (a = b) (if a then "TRUE" else "FALSE").toList
      (if b then "TRUE" else "FALSE").toList := by
  cases a <;> cases b
  · exact .same rfl _
  · exact .clash (by decide)
  · exact .clash (by decide)
  · exact .same rfl _

/-- A quotation ends with its second quote, whatever stands between them. -/
theorem tells_quote {ends : Char → Bool} (a b : String) :
    Tells ends (a = b) (quote a).toList (quote b).toList := by
  intro s t _ _ heq
  have htext : ∀ (a : String) (tail : List Char), (quote a).toList ++ tail =
      '"' :: (a.toList.flatMap (escapeChar '"') ++ '"' :: tail) := by
    intro a tail
    simp [quote, quoteChars]
  rw [htext, htext] at heq
  have hinner := (List.cons.inj heq).2
  have hread := Lexer.textFrom_quoted 0 [] a.toList s
  rw [hinner, Lexer.textFrom_quoted] at hread
  have hab : a = b := by simpa using (congrArg Prod.fst (Except.ok.inj hread)).symm
  subst hab
  exact ⟨rfl, (List.cons.inj (List.append_cancel_left hinner)).2⟩

end Text

namespace Uuid

theorem closes_of_mem_hyphenated {u : Uuid} {c : Char} (h : c ∈ u.hyphenated.toList) :
    Text.closes c = false := by
  have hdigit : c ∈ u.digits → Text.closes c = false := by
    intro hc
    obtain ⟨i, -, rfl⟩ := List.mem_map.mp hc
    have hall : ∀ d : Fin 16, Text.closes (Text.hexDigit d) = false := by decide
    exact hall ⟨_, Nat.mod_lt _ (by decide)⟩
  have hpart : c = '-' ∨ c ∈ u.digits := by
    unfold hyphenated at h
    rw [String.toList_ofList] at h
    simp only [List.mem_append, List.mem_cons] at h
    grind [List.mem_of_mem_take, List.mem_of_mem_drop]
  rcases hpart with rfl | hc
  · decide
  · exact hdigit hc

theorem hyphenated_inj {u v : Uuid} (h : u.hyphenated = v.hyphenated) : u = v := by
  have hparse := parse_hyphenated u
  rw [h, parse_hyphenated] at hparse
  exact (Except.ok.inj hparse).symm

end Uuid

namespace Text

theorem mem_int {i : Int64} {c : Char} (h : c ∈ (toString i).toList) :
    c = '-' ∨ c.isDigit = true := by
  rw [toList_int] at h
  rcases List.mem_append.mp h with h | h
  · split at h
    · exact .inl (List.mem_singleton.mp h)
    · cases h
  · exact .inr (isDigit_of_mem_zeroed h)

/-- What stands between quotes as it is shows itself if it holds nothing that ends it. -/
theorem tells_bare {P : Prop} {a b : List Char} (ha : ∀ c ∈ a, closes c = false)
    (hb : ∀ c ∈ b, closes c = false) (h : a = b → P) :
    Tells closes P ('"' :: (a ++ ['"'])) ('"' :: (b ++ ['"'])) := by
  have hrun : ∀ {cs : List Char}, (∀ c ∈ cs, closes c = false) →
      ∀ c ∈ '"' :: (cs ++ ['"']), closes c = false := by
    intro cs hcs c hc
    rcases List.mem_cons.mp hc with rfl | hc
    · decide
    · rcases List.mem_append.mp hc with hc | hc
      · exact hcs c hc
      · exact closes_of_mem (by decide) hc
  refine .run (hrun ha) (hrun hb) fun heq => h ?_
  exact List.append_cancel_right (List.cons.inj heq).2

end Text

namespace Value

theorem tells_uuid (u v : Uuid) :
    Tells Text.closes (u = v) (uuid u).render.toList (uuid v).render.toList := by
  have htext : ∀ u, (uuid u).render.toList = '"' :: (u.hyphenated.toList ++ ['"']) := by
    intro u
    simp [render]
  rw [htext, htext]
  refine Text.tells_bare (fun c => Uuid.closes_of_mem_hyphenated)
    (fun c => Uuid.closes_of_mem_hyphenated) fun heq => ?_
  exact Uuid.hyphenated_inj (String.toList_inj.mp heq)

/-- An instant stands between quotes, or as its number if its year has no text. -/
theorem render_timestamp (ms : Int64) :
    (∃ s, Instant.format ms.toInt = some s ∧
        (timestamp ms).render.toList = '"' :: (s.toList ++ ['"'])) ∨
      (timestamp ms).render = toString ms := by
  unfold render
  cases h : Instant.format ms.toInt with
  | some s => exact .inl ⟨s, rfl, by simp⟩
  | none => exact .inr rfl

theorem tells_timestamp (a b : Int64) :
    Tells Text.closes (a = b) (timestamp a).render.toList (timestamp b).render.toList := by
  have hstamp : ∀ {ms : Int} {s : String}, Instant.format ms = some s →
      ∀ c ∈ s.toList, Text.closes c = false := by
    intro ms s hs c hc
    rw [Instant.toList_of_format hs] at hc
    rcases Instant.mem_stamp hc with hdigit | hmem
    · exact Text.closes_of_isDigit c hdigit
    · exact Text.closes_of_mem (by decide) hmem
  have hnumber : ∀ i : Int64, ∃ c cs, (toString i).toList = c :: cs ∧ '"' ≠ c := by
    intro i
    cases hcs : (toString i).toList with
    | nil =>
      rw [Text.toList_int] at hcs
      exact absurd (List.append_eq_nil_iff.mp (List.append_eq_nil_iff.mp hcs).2).2
        Nat.toDigits_ne_nil
    | cons c cs =>
      refine ⟨c, cs, rfl, ?_⟩
      rintro rfl
      exact absurd (Text.mem_int (hcs ▸ List.mem_cons_self)) (by decide)
  rcases render_timestamp a with ⟨s, hs, ha⟩ | ha <;>
    rcases render_timestamp b with ⟨t, ht, hb⟩ | hb
  · rw [ha, hb]
    refine Text.tells_bare (hstamp hs) (hstamp ht) fun heq => Int64.toInt_inj.mp ?_
    exact Instant.format_inj hs (String.toList_inj.mp heq ▸ ht)
  · obtain ⟨c, cs, hcs, hne⟩ := hnumber b
    rw [ha, hb, hcs]
    exact .clash hne
  · obtain ⟨c, cs, hcs, hne⟩ := hnumber a
    rw [ha, hb, hcs]
    exact .clash hne.symm
  · rw [ha, hb]
    exact Text.tells_int a b

theorem toList_scores (s : Scores) :
    (scores s).render.toList = "\x7bstructure: ".toList ++ ((toString s.layout).toList ++
      ',' :: (" context: ".toList ++ ((toString s.context).toList ++
        ',' :: (" evidence: ".toList ++ ((toString s.evidence).toList ++
          ',' :: (" reasoning: ".toList ++ ((toString s.reasoning).toList ++
            ',' :: (" clarity: ".toList ++ ((toString s.clarity).toList ++ ['\x7d']))))))))) := by
  have hcolon : (toString ": ").toList = [':', ' '] := rfl
  show s.render.toList = _
  simp [Scores.render, Scores.entries, Scores.names, Scores.values, hcolon]

theorem tells_scores (r s : Scores) :
    Tells Text.closes (r = s) (scores r).render.toList (scores s).render.toList := by
  have hnat := Text.tells_nat
  rw [toList_scores, toList_scores]
  refine .behind _ (.imp ((hnat _ _).chain rfl <| .behind _ <| (hnat _ _).chain rfl <| .behind _ <|
    (hnat _ _).chain rfl <| .behind _ <| (hnat _ _).chain rfl <| .behind _ <|
      (hnat _ _).close rfl []) ?_)
  rintro ⟨hlayout, hcontext, hevidence, hreasoning, hclarity⟩
  cases r
  cases s
  simp_all

theorem renderItems_eq_map (items : List Value) : renderItems items = items.map render := by
  induction items with
  | nil => rfl
  | cons v items ih => rw [renderItems, ih, List.map_cons]

theorem toList_vector (items : List Value) : (vector items).render.toList =
    '[' :: ([',', ' '].intercalate (items.map (·.render.toList)) ++ [']']) := by
  rw [render, renderItems_eq_map]
  simp [String.toList_intercalate, Function.comp_def]

theorem tells_vector {items items' : List Value} (hlength : items.length = items'.length)
    (h : ∀ v ∈ items, ∀ w ∈ items', Tells Text.closes (v = w) v.render.toList w.render.toList) :
    Tells Text.closes (vector items = vector items') (vector items).render.toList
      (vector items').render.toList := by
  rw [toList_vector, toList_vector]
  exact (((Tells.joined rfl hlength h).close rfl []).behind ['[']).imp (congrArg vector)

/-- Texts of two values of one type show whether they are the same. -/
theorem tells_render {ty : Ty} {v w : Value} (hv : (ty.decide v).isHolds = true)
    (hw : (ty.decide w).isHolds = true) (hvn : v.Floats (·.isNaN = false))
    (hwn : w.Floats (·.isNaN = false)) :
    Tells Text.closes (v = w) v.render.toList w.render.toList := by
  induction ty generalizing v w with
  | vector t n ih =>
    obtain ⟨-, vs, rfl, hvlength, hvs⟩ := Ty.isHolds_vector.mp hv
    obtain ⟨-, ws, rfl, hwlength, hws⟩ := Ty.isHolds_vector.mp hw
    cases hvn with
    | vector hvn =>
      cases hwn with
      | vector hwn =>
        exact tells_vector (hvlength.trans hwlength.symm) fun a ha b hb =>
          ih (hvs a ha) (hws b hb) (hvn a ha) (hwn b hb)
  | nat | boundedNat lo hi =>
    cases Ty.shaped_of_isHolds hv
    cases Ty.shaped_of_isHolds hw
    exact (Text.tells_nat _ _).imp (congrArg nat)
  | int =>
    cases Ty.shaped_of_isHolds hv
    cases Ty.shaped_of_isHolds hw
    exact (Text.tells_int _ _).imp (congrArg int)
  | float | boundedFloat lo hi | confidence =>
    cases Ty.shaped_of_isHolds hv
    cases Ty.shaped_of_isHolds hw
    cases hvn with
    | float hx =>
      cases hwn with
      | float hy => exact (Double.tells_literal hx hy).imp (congrArg float)
  | string | nonEmptyString =>
    cases Ty.shaped_of_isHolds hv
    cases Ty.shaped_of_isHolds hw
    exact (Text.tells_quote _ _).imp (congrArg text)
  | bool =>
    cases Ty.shaped_of_isHolds hv
    cases Ty.shaped_of_isHolds hw
    exact (Text.tells_bool _ _).imp (congrArg bool)
  | uuid =>
    cases Ty.shaped_of_isHolds hv
    cases Ty.shaped_of_isHolds hw
    exact (tells_uuid _ _).imp (congrArg uuid)
  | timestamp =>
    cases Ty.shaped_of_isHolds hv
    cases Ty.shaped_of_isHolds hw
    exact (tells_timestamp _ _).imp (congrArg timestamp)
  | promptScores =>
    cases Ty.shaped_of_isHolds hv
    cases Ty.shaped_of_isHolds hw
    exact (tells_scores _ _).imp (congrArg scores)

end Value

end Attest
