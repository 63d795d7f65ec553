import Attest.Permission
import Attest.Proofs.Node.Lowering

/-!
What a profile lets through.

The validator looks at a node, in which constants are folded and the statement is split into cells,
a condition and columns.  Nothing is lost on the way: a change passes exactly if its role may touch
every column that the source names, and for a deletion every column of the table.
-/

namespace Attest

theorem Dialect.ne_inferred {d : Dialect} : d ≠ .inferred ↔ d = .explicit := by
  cases d <;> simp

namespace Profile

variable {p : Profile} {n : Node}

theorem denied?_eq_none {cs : List (String × Category)} :
    p.denied? cs = none ↔ ∀ c ∈ cs, p.allows c.2 = true := by
  induction cs with
  | nil => simp [denied?]
  | cons c cs ih =>
    rw [denied?, List.forall_mem_cons, ← ih]
    by_cases h : p.allows c.2 = true
    · simp [h]
    · simp [h]

theorem implicit?_eq_none :
    p.implicit? n = none ↔ (p.level = .strict → n.kind.isMutation = true →
      ∀ c ∈ n.cells, c.dialect = .explicit) := by
  unfold implicit?
  by_cases h : p.level = .strict ∧ n.kind.isMutation = true
  · simp [h.1, h.2, Dialect.ne_inferred]
  · rw [if_neg (by simpa using h)]
    simp only [true_iff]
    intro hlevel hkind
    exact absurd ⟨hlevel, hkind⟩ h

/-- What the validator asks of a node. -/
structure Permits (p : Profile) (n : Node) : Prop where
  cells : ∀ c ∈ n.cells, p.allows c.value.ty.category = true
  explicit : p.level = .strict → n.kind.isMutation = true → ∀ c ∈ n.cells, c.dialect = .explicit
  condition : p.level = .strict ∨ n.kind.isMutation = true →
    ∀ c ∈ (n.predicate.map Predicate.columns).getD [], p.allows c.ty.category = true
  projection : p.level = .strict ∨ n.kind.isMutation = true →
    ∀ c ∈ n.projection, p.allows c.ty.category = true

theorem denied?_written :
    p.denied? (written n) = none ↔ ∀ c ∈ n.cells, p.allows c.value.ty.category = true := by
  rw [denied?_eq_none, written, List.forall_mem_map]

theorem denied?_touched :
    p.denied? (touched n) = none ↔
      (∀ c ∈ (n.predicate.map Predicate.columns).getD [], p.allows c.ty.category = true) ∧
        ∀ c ∈ n.projection, p.allows c.ty.category = true := by
  rw [denied?_eq_none, touched, List.forall_mem_map, List.forall_mem_append]

theorem validate_eq_ok : p.validate n = .ok () ↔ p.Permits n := by
  have hreads : (p.level == .strict || n.kind.isMutation) = true ↔
      (p.level = .strict ∨ n.kind.isMutation = true) := by simp
  unfold validate
  cases hwritten : p.denied? (written n) with
  | some e =>
    refine iff_of_false nofun fun h => ?_
    rw [denied?_written.mpr h.cells] at hwritten
    cases hwritten
  | none =>
    cases himplicit : p.implicit? n with
    | some e =>
      refine iff_of_false nofun fun h => ?_
      rw [implicit?_eq_none.mpr h.explicit] at himplicit
      cases himplicit
    | none =>
      have hcells := denied?_written.mp hwritten
      have hexplicit := implicit?_eq_none.mp himplicit
      dsimp only
      split
      · next hlooks =>
        rw [hreads] at hlooks
        cases htouched : p.denied? (touched n) with
        | some e =>
          refine iff_of_false nofun fun h => ?_
          rw [denied?_touched.mpr ⟨h.condition hlooks, h.projection hlooks⟩] at htouched
          cases htouched
        | none =>
          obtain ⟨hcondition, hprojection⟩ := denied?_touched.mp htouched
          exact iff_of_true rfl ⟨hcells, hexplicit, fun _ => hcondition, fun _ => hprojection⟩
      · next hlooks =>
        rw [hreads] at hlooks
        exact iff_of_true rfl
          ⟨hcells, hexplicit, fun h => absurd h hlooks, fun h => absurd h hlooks⟩

end Profile

/-- The columns that a statement names in its assignments, values included, and in its condition. -/
def Statement.named (st : Statement) : List Ident :=
  st.assignments.flatMap (fun a => a.column :: a.value.columns) ++
    (st.condition.map Expr.columns).getD []

namespace Checker

variable {s : Schema} {st : Statement} {t : TypedStatement}

theorem Follows.forall_named (h : Follows s st t) {P : Ident → Prop} :
    (∀ id ∈ st.named, P id) ↔ (∀ a ∈ st.assignments, P a.column) ∧
      ∀ id ∈ (st.condition.map Expr.columns).getD [], P id := by
  rw [Statement.named, List.forall_mem_append]
  refine and_congr_left fun _ => ?_
  constructor
  · intro hall a ha
    exact hall a.column (List.mem_flatMap.mpr ⟨a, ha, List.mem_cons_self⟩)
  · intro hall id hid
    obtain ⟨a, ha, hid⟩ := List.mem_flatMap.mp hid
    obtain ⟨b, -, hab⟩ := (Outcome.exists_of_forall₂ h.assignments).1 a ha
    rw [hab.constant, List.mem_singleton] at hid
    exact hid ▸ hall a ha

/-- Every column that a change names is one of the table. -/
theorem Follows.isSome_column? (h : Follows s st t) :
    ∀ id ∈ st.named, (s.column? id.name).isSome = true := by
  refine h.forall_named.mpr ⟨fun a ha => ?_, fun id hid => ?_⟩
  · obtain ⟨b, -, hab⟩ := (Outcome.exists_of_forall₂ h.assignments).1 a ha
    obtain ⟨c, hc, -⟩ := hab.category
    rw [hc]
    rfl
  · obtain ⟨c, -, hc⟩ := (Outcome.exists_of_forall₂ h.condition).1 id hid
    obtain ⟨d, hd, -⟩ := resolve_eq_ok.mp hc
    rw [hd]
    rfl

variable {p : Profile}

theorem Follows.forall_assigned (h : Follows s st t) :
    (∀ a ∈ st.assignments, ∀ c ∈ s.column? a.column.name, p.allows c.ty.category = true) ↔
      ∀ b ∈ t.assignments, p.allows b.value.ty.category = true := by
  refine Outcome.forall_mem_iff h.assignments fun hab => ?_
  obtain ⟨c, hc, hcategory⟩ := hab.category
  simp [hc, hcategory]

theorem Follows.forall_asked (h : Follows s st t) :
    (∀ id ∈ (st.condition.map Expr.columns).getD [], ∀ c ∈ s.column? id.name,
        p.allows c.ty.category = true) ↔
      ∀ c ∈ (t.predicate.map TypedExpr.columns).getD [], p.allows c.ty.category = true := by
  refine Outcome.forall_mem_iff h.condition fun hc => ?_
  obtain ⟨d, hd, rfl⟩ := resolve_eq_ok.mp hc
  simp [hd]

theorem Follows.forall_removed (h : Follows s st t) :
    (st.kind = .delete → ∀ c ∈ s.columns, p.allows c.ty.category = true) ↔
      ∀ c ∈ t.projection, p.allows c.ty.category = true := by
  rw [h.projection]
  by_cases hkind : st.kind = .delete
  · rw [if_pos hkind, allColumns, List.forall_mem_map]
    simp [hkind]
  · rw [if_neg hkind]
    simp [hkind]

end Checker

namespace Profile

/-- A change that passed the checks names columns of the table only.  Its node passes the validator
exactly if the role may touch all of them, for a deletion all columns of the table, and, if it is
held to types that are written out, every value has one. -/
theorem validate_change_iff {s : Schema} {v : Verifier} {st : Statement} {t : TypedStatement}
    {cache : CertificateCache} {provenance : Option Provenance} {n : Node} (p : Profile)
    (hst : st.kind.isMutation = true) (ht : Checker.check s v st = .ok t) (hc : cache.Reachable)
    (hn : (Node.lower cache t provenance).1 = .ok n) :
    (∀ id ∈ st.named, (s.column? id.name).isSome = true) ∧
      (p.validate n = .ok () ↔
        (∀ id ∈ st.named, ∀ c ∈ s.column? id.name, p.allows c.ty.category = true) ∧
          (st.kind = .delete → ∀ c ∈ s.columns, p.allows c.ty.category = true) ∧
            (p.level = .strict → ∀ a ∈ st.assignments, a.declared.isSome = true)) := by
  have hf := Checker.follows_of_check ht hst
  obtain ⟨provenance, q, -, hq, rfl⟩ := Node.lower_eq_ok hc.faithful hn
  refine ⟨hf.isSome_column?, ?_⟩
  have hmutation : t.kind.isMutation = true := by rw [hf.kind, hst]
  have hannotated : (∀ a ∈ st.assignments, a.declared.isSome = true) ↔
      ∀ b ∈ t.assignments, b.dialect = .explicit :=
    Outcome.forall_mem_iff hf.assignments fun hab => hab.explicit.symm
  rw [validate_eq_ok, hf.forall_named, hf.forall_assigned, hf.forall_asked, hf.forall_removed,
    hannotated, ← Node.columns_predicateOf hq]
  constructor
  · rintro ⟨hcells, hexplicit, hcondition, hprojection⟩
    have hcells := List.forall_mem_map.mp hcells
    refine ⟨⟨hcells, hcondition (.inr hmutation)⟩, hprojection (.inr hmutation), fun hlevel => ?_⟩
    exact List.forall_mem_map.mp (hexplicit hlevel hmutation)
  · rintro ⟨⟨hcells, hcondition⟩, hprojection, hexplicit⟩
    refine ⟨List.forall_mem_map.mpr hcells, fun hlevel _ => ?_, fun _ => hcondition,
      fun _ => hprojection⟩
    exact List.forall_mem_map.mpr (hexplicit hlevel)

end Profile

def Schema.notes : Schema where
  name := "notes"
  columns := [⟨"title", .nonEmptyString, false, true⟩, ⟨"score", .nat, false, false⟩]
  valid := rfl

/-- `UPDATE notes SET score = 2 + 3 : ty WHERE title = "x"`, or without the type. -/
def Statement.raisesScore (ty : Option Ty) : Statement :=
  .update ⟨"notes", default⟩
    [⟨⟨"score", default⟩,
      .binary .add (.literal (.nat 2) default) (.literal (.nat 3) default) default, ty⟩]
    (some (.binary .eq (.column ⟨"title", default⟩) (.literal (.text "x") default) default)) {}

namespace Profile

/-- With both categories the annotated update passes under strict rules and the other one does not;
the category of the value alone is not enough. -/
theorem raisesScore_validated :
    ∃ t n t' n', Checker.check .notes .interval (.raisesScore (some .nat)) = .ok t ∧
      (Node.lower { capacity := 0 } t (some ⟨"clerk", 3, "a recount", rfl, rfl⟩)).1 = .ok n ∧
      Checker.check .notes .interval (.raisesScore none) = .ok t' ∧
      (Node.lower { capacity := 0 } t' (some ⟨"clerk", 3, "a recount", rfl, rfl⟩)).1 = .ok n' ∧
      (ofCategories "editor" [.nat, .nonEmptyString]).strict.validate n = .ok () ∧
      (ofCategories "editor" [.nat, .nonEmptyString]).validate n' = .ok () ∧
      (ofCategories "editor" [.nat, .nonEmptyString]).strict.validate n' ≠ .ok () ∧
      (ofCategories "clerk" [.nat]).validate n ≠ .ok () := by
  obtain ⟨t, n, ht, hn⟩ : ∃ t n, Checker.check .notes .interval (.raisesScore (some .nat)) = .ok t ∧
      (Node.lower { capacity := 0 } t (some ⟨"clerk", 3, "a recount", rfl, rfl⟩)).1 = .ok n :=
    ⟨_, _, rfl, rfl⟩
  obtain ⟨t', n', ht', hn'⟩ : ∃ t n, Checker.check .notes .interval (.raisesScore none) = .ok t ∧
      (Node.lower { capacity := 0 } t (some ⟨"clerk", 3, "a recount", rfl, rfl⟩)).1 = .ok n :=
    ⟨_, _, rfl, rfl⟩
  have annotated := fun p => (validate_change_iff p rfl ht (.empty 0) hn).2
  have bare := fun p => (validate_change_iff p rfl ht' (.empty 0) hn').2
  exact ⟨t, n, t', n', ht, hn, ht', hn', (annotated _).mpr (by decide), (bare _).mpr (by decide),
    mt (bare _).mp (by decide), mt (annotated _).mp (by decide)⟩

end Profile
end Attest
