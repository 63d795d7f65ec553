import Attest.Proofs.Checker.Statement
import Attest.Proofs.Node.Lowering

/-!
Literals of conditions.

A literal beside a column takes the base of the column's type, and only its form is looked at: a
vector of another size and a score above the best pass the checks.  Lowering gives every literal its
type by the definition, so it refuses what is left of the conditions of a base type.  That is all
that it refuses in a checked statement.
-/

namespace Attest

namespace Ty

/-- Whether vectors have the size of their type and scores are in range.  A type that is its own
base asks for nothing else of a value of the right form. -/
def measures : Ty → Value → Bool
  | vector element size, .vector items =>
    items.length == size.toNat && items.all element.measures
  | promptScores, .scores s => s.entries.all fun e => e.2 ≤ Scores.best
  | _, _ => true

theorem fault?_of_base {ty : Ty} (h : ty.base = ty) : ty.fault? = none := by
  induction ty with
  | vector element size ih =>
    have helement : element.base = element := by injection h
    exact ih helement
  | boundedNat lo hi => cases h
  | boundedFloat lo hi => cases h
  | _ => rfl

end Ty

/-- Where every item holds or fails, so does the list, and it holds if all of them do. -/
theorem Decision.items_answered {f : Value → Decision} {vs : List Value}
    (h : ∀ v ∈ vs, (f v).isHolds = true ∨ ∃ why, f v = .fails why) (index : Nat) :
    (∀ v ∈ vs, (f v).isHolds = true) ∨ ∃ why, items f index vs = .error (.fails why) := by
  induction vs generalizing index with
  | nil => exact .inl (by simp)
  | cons v vs ih =>
    obtain ⟨hv, hvs⟩ := List.forall_mem_cons.mp h
    cases hd : f v with
    | holds e =>
      rcases ih hvs (index + 1) with hall | ⟨why, hwhy⟩
      · exact .inl (List.forall_mem_cons.mpr ⟨by rw [hd]; rfl, hall⟩)
      · exact .inr ⟨why, by simp only [items, hd, hwhy]⟩
    | fails why => exact .inr ⟨.element index why, by simp only [items, hd]⟩
    | undecidable why => simp [hd, isHolds] at hv

namespace Ty

/-- A value of the right form for a base type is of the type exactly if it measures up. -/
theorem isHolds_eq_measures {ty : Ty} {v : Value} (hbase : ty.base = ty) (h : ty.Shaped v) :
    (ty.decide v).isHolds = ty.measures v := by
  induction h with
  | boundedNat lo hi n => cases hbase
  | boundedFloat lo hi x => cases hbase
  | nonEmptyString s => cases hbase
  | confidence x => cases hbase
  | promptScores s =>
    show (decideScores s).isHolds = s.entries.all fun e => e.2 ≤ Scores.best
    unfold decideScores
    cases hfind : s.entries.find? fun e => Scores.best < e.2 with
    | none =>
      rw [List.find?_eq_none] at hfind
      symm
      simpa [Decision.isHolds] using hfind
    | some e =>
      have hbad := List.find?_some hfind
      exact (List.all_eq_false.mpr
        ⟨e, List.mem_of_find?_eq_some hfind, by simpa using hbad⟩).symm
  | @vector element size items _ ih =>
    have helement : element.base = element := by injection hbase
    have hall : (∀ w ∈ items, (element.decide w).isHolds = true) ↔
        items.all element.measures = true := by
      rw [List.all_eq_true]
      exact forall₂_congr fun w hw => by rw [ih w hw helement]
    rw [Bool.eq_iff_iff, isHolds_vector, measures, Bool.and_eq_true, beq_iff_eq, ← hall]
    constructor
    · rintro ⟨-, vs, hvs, hlength, hvalues⟩
      cases hvs
      exact ⟨hlength, hvalues⟩
    · rintro ⟨hlength, hvalues⟩
      exact ⟨fault?_of_base helement, items, rfl, hlength, hvalues⟩
  | _ => rfl

/-- A value of the right form for a base type is of the type or fails: the answer is not left
open. -/
theorem answered_of_shaped {ty : Ty} {v : Value} (hbase : ty.base = ty) (h : ty.Shaped v) :
    (ty.decide v).isHolds = true ∨ ∃ why, ty.decide v = .fails why := by
  induction h with
  | boundedNat lo hi n => cases hbase
  | boundedFloat lo hi x => cases hbase
  | nonEmptyString s => cases hbase
  | confidence x => cases hbase
  | promptScores s =>
    show (decideScores s).isHolds = true ∨ ∃ why, decideScores s = .fails why
    unfold decideScores
    split
    · exact .inr ⟨_, rfl⟩
    · exact .inl rfl
  | @vector element size items _ ih =>
    have helement : element.base = element := by injection hbase
    have hfault : (vector element size).fault? = none := fault?_of_base hbase
    by_cases hlength : items.length = size.toNat
    · rcases Decision.items_answered (fun w hw => ih w hw helement) 0 with hall | ⟨why, hwhy⟩
      · exact .inl (isHolds_vector.mpr ⟨hfault, items, rfl, hlength, hall⟩)
      · refine .inr ⟨why, ?_⟩
        unfold decide
        rw [hfault]
        dsimp only
        rw [if_neg (by simpa using hlength), hwhy]
    · refine .inr ⟨.size items.length size, ?_⟩
      unfold decide
      rw [hfault]
      dsimp only
      rw [if_pos (by simpa using hlength)]
  | _ => exact .inl rfl

end Ty

/-- What keeps a value of the right form from a base type is a violation. -/
theorem TypedValue.violated_of_make {ty : Ty} {v : Value} {why : RefinementError}
    (hbase : ty.base = ty) (hshaped : ty.Shaped v) (h : make ty v = .error why) :
    (ty.decide v).isHolds = false ∧
      ∃ violation, ty.decide v = .fails violation ∧ why = .violated ty violation := by
  unfold make at h
  split at h
  · cases h
  · next violation hviolation =>
    cases h
    exact ⟨by rw [hviolation]; rfl, violation, hviolation, rfl⟩
  · next doubt hdoubt =>
    rcases Ty.answered_of_shaped hbase hshaped with hholds | ⟨violation, hviolation⟩
    · simp [hdoubt, Decision.isHolds] at hholds
    · simp [hdoubt] at hviolation

/-- What a literal is for a type has the form for it. -/
theorem Literal.shaped_of_coerce {l : Literal} {ty : Ty} {v : Value} (h : l.coerce ty = .ok v) :
    ty.Shaped v := by
  induction ty generalizing l v with
  | vector element size ih =>
    cases l with
    | vector items =>
      unfold coerce at h
      obtain ⟨vs, hvs, h⟩ := Outcome.bind_eq_ok.mp h
      cases h
      exact .vector size (Outcome.forall_mem (Outcome.mapM_eq_ok.mp hvs) ih)
    | _ => cases h
  | int =>
    cases l with
    | nat n =>
      rw [coerce, coerceInt] at h
      split at h
      · cases h
        exact .int _
      · cases h
    | int i =>
      cases h
      exact .int i
    | _ => cases h
  | timestamp =>
    cases l with
    | nat n =>
      rw [coerce, coerceTimestamp] at h
      split at h
      · cases h
        exact .timestamp _
      · cases h
    | int i =>
      cases h
      exact .timestamp i
    | text s =>
      rw [coerce, coerceInstant] at h
      split at h
      · cases h
        exact .timestamp _
      · cases h
    | _ => cases h
  | uuid =>
    cases l with
    | text s =>
      rw [coerce, coerceUuid] at h
      split at h
      · cases h
        exact .uuid _
      · cases h
    | _ => cases h
  | promptScores =>
    cases l with
    | record fields =>
      rw [coerce, coerceScores] at h
      split at h
      · cases h
      · split at h
        · cases h
          exact .promptScores _
        · cases h
    | _ => cases h
  | _ => cases l <;> cases h <;> constructor

namespace TypedExpr

def literals : TypedExpr → List (Value × Ty)
  | column _ => []
  | literal v ty => [(v, ty)]
  | unary _ e _ => e.literals
  | binary _ l r _ => l.literals ++ r.literals
  | isNull e _ => e.literals

end TypedExpr

def TypedStatement.literals (t : TypedStatement) : List (Value × Ty) :=
  (t.predicate.map TypedExpr.literals).getD []

/-- Literals have base types, and the form for them. -/
theorem Checker.Elaborates.shaped {s : Schema} {e : Expr} {t : TypedExpr} (h : Elaborates s e t) :
    ∀ l ∈ t.literals, l.2.base = l.2 ∧ l.2.Shaped l.1 := by
  induction h with
  | column h => simp [TypedExpr.literals]
  | constant _ hbase hv =>
    intro l hl
    rw [TypedExpr.literals, List.mem_singleton] at hl
    rw [hl]
    exact ⟨hbase, Literal.shaped_of_coerce hv⟩
  | isNull _ _ _ ih => exact ih
  | not _ _ _ ih => exact ih
  | sign _ _ _ _ ih => exact ih
  | logical _ _ _ _ _ _ ihl ihr => exact List.forall_mem_append.mpr ⟨ihl, ihr⟩
  | comparison _ _ _ _ _ _ ihl ihr => exact List.forall_mem_append.mpr ⟨ihl, ihr⟩
  | concat _ _ _ _ _ ihl ihr => exact List.forall_mem_append.mpr ⟨ihl, ihr⟩
  | arithmetic _ _ _ _ _ _ ihl ihr => exact List.forall_mem_append.mpr ⟨ihl, ihr⟩

theorem Checker.shaped_of_check {s : Schema} {v : Verifier} {st : Statement} {t : TypedStatement}
    (h : Checker.check s v st = .ok t) :
    ∀ l ∈ t.literals, l.2.base = l.2 ∧ l.2.Shaped l.1 := by
  have hpredicate := elaborates_of_predicate (checked_of_check h).condition
  unfold TypedStatement.literals
  generalize st.condition = e, t.predicate = t' at hpredicate
  cases hpredicate with
  | none => simp
  | some h => exact h.1.shaped

namespace Predicate

/-- What becomes of the literals of an expression: all have their types, or the first that has not
its type is refused. -/
theorem ofTyped_literals (e : TypedExpr) :
    (∃ p, ofTyped e = .ok p ∧ ∀ l ∈ e.literals, (l.2.decide l.1).isHolds = true) ∨
      ∃ before l after why, e.literals = before ++ l :: after ∧
        (∀ m ∈ before, (m.2.decide m.1).isHolds = true) ∧ TypedValue.make l.2 l.1 = .error why ∧
          ofTyped e = .error why := by
  induction e with
  | column c => exact .inl ⟨_, rfl, by simp [TypedExpr.literals]⟩
  | literal v ty =>
    cases hmake : TypedValue.make ty v with
    | ok w =>
      obtain ⟨rfl, rfl⟩ := TypedValue.make_eq_ok.mp hmake
      refine .inl ⟨.literal w, by rw [ofTyped, hmake]; rfl, ?_⟩
      intro l hl
      cases List.mem_singleton.mp hl
      exact w.fits
    | error why =>
      exact .inr ⟨[], (v, ty), [], why, rfl, by simp, hmake, by rw [ofTyped, hmake]; rfl⟩
  | unary op e ty ih =>
    rcases ih with ⟨p, hp, hall⟩ | ⟨before, l, after, why, hl, hbefore, hmake, hwhy⟩
    · exact .inl ⟨.unary op p, by rw [ofTyped, hp]; rfl, hall⟩
    · exact .inr ⟨before, l, after, why, hl, hbefore, hmake, by rw [ofTyped, hwhy]; rfl⟩
  | isNull e negated ih =>
    rcases ih with ⟨p, hp, hall⟩ | ⟨before, l, after, why, hl, hbefore, hmake, hwhy⟩
    · exact .inl ⟨.isNull p negated, by rw [ofTyped, hp]; rfl, hall⟩
    · exact .inr ⟨before, l, after, why, hl, hbefore, hmake, by rw [ofTyped, hwhy]; rfl⟩
  | binary op l r ty ihl ihr =>
    rcases ihl with ⟨p, hp, hall⟩ | ⟨before, l', after, why, hl, hbefore, hmake, hwhy⟩
    · rcases ihr with ⟨q, hq, hall'⟩ | ⟨before, r', after, why, hr, hbefore, hmake, hwhy⟩
      · refine .inl ⟨.binary op p q, by rw [ofTyped, hp, hq]; rfl, ?_⟩
        exact List.forall_mem_append.mpr ⟨hall, hall'⟩
      · refine .inr ⟨l.literals ++ before, r', after, why, ?_, ?_, hmake, ?_⟩
        · rw [TypedExpr.literals, hr, List.append_assoc]
        · exact List.forall_mem_append.mpr ⟨hall, hbefore⟩
        · rw [ofTyped, hp, hwhy]
          rfl
    · refine .inr ⟨before, l', after ++ r.literals, why, ?_, hbefore, hmake, ?_⟩
      · rw [TypedExpr.literals, hl, List.append_assoc]
        rfl
      · rw [ofTyped, hwhy]
        rfl

end Predicate

namespace Node

/-- What is made of the condition of a statement, by its literals. -/
theorem predicateOf_literals (t : TypedStatement) :
    (∃ q, predicateOf t = .ok q ∧ ∀ l ∈ t.literals, (l.2.decide l.1).isHolds = true) ∨
      ∃ before l after why, t.literals = before ++ l :: after ∧
        (∀ m ∈ before, (m.2.decide m.1).isHolds = true) ∧ TypedValue.make l.2 l.1 = .error why ∧
          predicateOf t = .error (.refinement why) := by
  unfold predicateOf TypedStatement.literals
  cases t.predicate with
  | none => exact .inl ⟨none, rfl, by simp⟩
  | some e =>
    rcases Predicate.ofTyped_literals e with
      ⟨p, hp, hall⟩ | ⟨before, l, after, why, hl, hbefore, hmake, hwhy⟩
    · exact .inl ⟨some p, by simp only [hp], hall⟩
    · exact .inr ⟨before, l, after, why, hl, hbefore, hmake, by simp only [hwhy]⟩

/-- A checked statement, with a record if it is a change, is lowered exactly if the literals of its
condition measure up, which is all that they need to be of their types.  Otherwise the first that
does not is refused, and for that only. -/
theorem lower_checked_iff {s : Schema} {v : Verifier} {st : Statement} {t : TypedStatement}
    {p : Option Provenance} (cache : CertificateCache) (h : Checker.check s v st = .ok t)
    (hp : st.kind.isMutation = true → p.isSome = true) :
    (∀ l ∈ t.literals, (l.2.decide l.1).isHolds = l.2.measures l.1) ∧
      ((∃ n, (lower cache t p).1 = .ok n) ↔ ∀ l ∈ t.literals, l.2.measures l.1 = true) ∧
      ∀ e, (lower cache t p).1 = .error e →
        ∃ before l after why, t.literals = before ++ l :: after ∧
          (∀ m ∈ before, m.2.measures m.1 = true) ∧ l.2.measures l.1 = false ∧
            l.2.decide l.1 = .fails why ∧ e = .refinement (.violated l.2 why) := by
  have hshaped := Checker.shaped_of_check h
  have hmeasures : ∀ l ∈ t.literals, (l.2.decide l.1).isHolds = l.2.measures l.1 :=
    fun l hl => Ty.isHolds_eq_measures (hshaped l hl).1 (hshaped l hl).2
  rw [← (Checker.checked_of_check h).kind] at hp
  obtain ⟨provenance, hprovenance⟩ := provenanceOf_of_isSome hp
  rw [lower_of_provenanceOf hprovenance]
  refine ⟨hmeasures, ?_⟩
  rcases predicateOf_literals t with
    ⟨q, hq, hall⟩ | ⟨before, l, after, why, hl, hbefore, hmake, hwhy⟩
  · rw [hq]
    refine ⟨⟨fun _ l hl => ?_, fun _ => ⟨_, rfl⟩⟩, fun e he => by cases he⟩
    rw [← hmeasures l hl]
    exact hall l hl
  · have hmem : l ∈ t.literals := by simp [hl]
    obtain ⟨hfalse, violation, hviolation, rfl⟩ :=
      TypedValue.violated_of_make (hshaped l hmem).1 (hshaped l hmem).2 hmake
    rw [hmeasures l hmem] at hfalse
    rw [hwhy]
    refine ⟨⟨fun ⟨n, hn⟩ => (by cases hn), fun hall => ?_⟩, fun e he => ?_⟩
    · rw [hall l hmem] at hfalse
      cases hfalse
    · cases he
      refine ⟨before, l, after, violation, hl, fun m hm => ?_, hfalse, hviolation, rfl⟩
      rw [← hmeasures m (by simp [hl, hm])]
      exact hbefore m hm

end Node

def Schema.samples : Schema where
  name := "samples"
  columns := [⟨"id", .nat, true, true⟩, ⟨"triple", .vector (.boundedNat 0 9) 3, false, false⟩]
  valid := rfl

/-- `SELECT id FROM samples WHERE NOT id = 7 AND triple = items`. -/
def Statement.asksTriple (items : List Literal) : Statement :=
  .select ⟨"samples", default⟩ (.columns [⟨"id", default⟩])
    (some (.binary .and
      (.unary .not (.binary .eq (.column ⟨"id", default⟩) (.literal (.nat 7) default) default)
        default)
      (.binary .eq (.column ⟨"triple", default⟩) (.literal (.vector items) default) default)
      default)) [] none

namespace Node

/-- A condition on a vector of three may ask for one with an item out of bounds, but not for two
items: that passes the checks and is refused here. -/
theorem asksTriple_lowered :
    ∃ t t' n, Checker.check .samples .interval (.asksTriple [.nat 1, .nat 2, .nat 30]) = .ok t ∧
      (lower { capacity := 0 } t none).1 = .ok n ∧
      Checker.check .samples .interval (.asksTriple [.nat 1, .nat 2]) = .ok t' ∧
      t'.literals = [(.nat 7, .nat), (.vector [.nat 1, .nat 2], .vector .nat 3)] ∧
      ¬ ∃ n', (lower { capacity := 0 } t' none).1 = .ok n' := by
  obtain ⟨t, ht, hl⟩ : ∃ t,
      Checker.check .samples .interval (.asksTriple [.nat 1, .nat 2, .nat 30]) = .ok t ∧
        t.literals = [(.nat 7, .nat), (.vector [.nat 1, .nat 2, .nat 30], .vector .nat 3)] :=
    ⟨_, rfl, rfl⟩
  obtain ⟨t', ht', hl'⟩ : ∃ t,
      Checker.check .samples .interval (.asksTriple [.nat 1, .nat 2]) = .ok t ∧
        t.literals = [(.nat 7, .nat), (.vector [.nat 1, .nat 2], .vector .nat 3)] :=
    ⟨_, rfl, rfl⟩
  have hfull := (lower_checked_iff (p := none) { capacity := 0 } ht (by decide)).2.1
  have hshort := (lower_checked_iff (p := none) { capacity := 0 } ht' (by decide)).2.1
  rw [hl] at hfull
  rw [hl'] at hshort
  obtain ⟨n, hn⟩ := hfull.mpr (by decide)
  exact ⟨t, t', n, ht, hn, ht', hl', mt hshort.mp (by decide)⟩

end Node
end Attest
