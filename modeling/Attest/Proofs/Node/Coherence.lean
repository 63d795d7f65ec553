import Attest.Proofs.Node.Lowering
import Attest.Proofs.Wire.Readable

/-!
Whether the parts of a node agree.

Lowering writes down what access a node needs from the node's own contents.  Reading takes every
part of an item by itself: the access may say anything, rows may repeat a column and the condition
of a deletion may be missing.  So a node that is read is as coherent as the item that says it.
-/

namespace Attest

namespace Category

theorem mem_setOf {c : Category} {cs : List Category} : c ∈ setOf cs ↔ c ∈ cs := by
  have hall : c ∈ all := by cases c <;> decide
  simp [setOf, hall]

end Category

namespace Node

/-- The types of all that a node writes, returns or asks about. -/
def types (n : Node) : List Ty :=
  n.cells.map (·.value.ty) ++ n.projection.map (·.ty)
    ++ (n.predicate.map fun p => p.columns.map (·.ty)).getD []

theorem mem_types {n : Node} {ty : Ty} : ty ∈ n.types ↔
    (∃ c ∈ n.cells, c.value.ty = ty) ∨ (∃ c ∈ n.projection, c.ty = ty) ∨
      ∃ p ∈ n.predicate, ∃ c ∈ p.columns, c.ty = ty := by
  unfold types
  cases n.predicate <;> simp

/-- The parts of a node agree with each other. -/
structure Coherent (n : Node) : Prop where
  conditional : n.kind = .delete → n.predicate.isSome = true
  distinct : (n.cells.map (·.column)).Nodup
  dialect : n.access.dialect = .inferred ↔ ∃ c ∈ n.cells, c.dialect = .inferred
  categories : ∀ ty ∈ n.types, ty.category ∈ n.access.categories

theorem isSome_of_predicateOf {s : TypedStatement} {p : Option Predicate}
    (h : predicateOf s = .ok p) : p.isSome = s.predicate.isSome := by
  unfold predicateOf at h
  split at h
  · next hnone =>
    cases h
    rw [hnone]
    rfl
  · next e he =>
    split at h
    · cases h
      rw [he]
      rfl
    · cases h

theorem dialect_eq_inferred {s : TypedStatement} :
    s.dialect = .inferred ↔ ∃ c ∈ s.assignments.map mintedCell, c.dialect = .inferred := by
  have hany : (∃ c ∈ s.assignments.map mintedCell, c.dialect = .inferred) ↔
      s.assignments.any (·.dialect == .inferred) = true := by
    simp [mintedCell]
  rw [hany]
  unfold TypedStatement.dialect
  split
  · next h => simp [h]
  · next h => simp [h]

/-- A checked statement is lowered to a coherent node. -/
theorem coherent_of_lower {s : Schema} {v : Verifier} {st : Statement} {t : TypedStatement}
    {cache : CertificateCache} {p : Option Provenance} {n : Node}
    (ht : Checker.check s v st = .ok t) (hc : cache.Faithful) (hn : (lower cache t p).1 = .ok n)
    (role : String) : (n.bindRole role).Coherent := by
  obtain ⟨hnodup, hdelete⟩ := Checker.form_of_check ht
  obtain ⟨provenance, predicate, -, hpredicate, rfl⟩ := lower_eq_ok hc hn
  refine ⟨fun hkind => ?_, ?_, dialect_eq_inferred, fun ty hty => ?_⟩
  · exact (isSome_of_predicateOf hpredicate).trans (hdelete hkind)
  · show ((t.assignments.map mintedCell).map (·.column)).Nodup
    rwa [List.map_map]
  · refine Category.mem_setOf.mpr ?_
    rw [List.mem_append, List.mem_append, List.mem_append]
    rcases mem_types.mp hty with ⟨c, hmem, rfl⟩ | ⟨c, hmem, rfl⟩ | ⟨q, hq, c, hmem, rfl⟩
    · exact .inl (.inl (.inl (List.mem_map.mpr ⟨c, hmem, rfl⟩)))
    · exact .inl (.inl (.inr (List.mem_map.mpr ⟨c, hmem, rfl⟩)))
    · cases hq
      exact .inr (List.mem_map.mpr ⟨c, hmem, rfl⟩)

end Node

namespace Item

def listed (i : Item) (name : String) : List Item := ((i.field? name).bind toArray?).getD []

/-- The parts of the item of a condition that are conditions. -/
def operands (i : Item) : List Item :=
  match i.field? "op" with
  | some (text op) =>
    if op == "column" || op == "literal" then []
    else if op == "is_null" then (i.field? "operand").toList
    else match i.field? "right" with
      | some r => (i.field? "left").toList ++ [r]
      | none => (i.field? "operand").toList
  | _ => []

/-- The item of a condition names a column of a type. -/
inductive AsksAbout (ty : Ty) : Item → Prop where
  | column {i : Item} {s : String} (hop : i.field? "op" = some (text "column"))
      (hs : i.field? "type" = some (text s)) (hty : Ty.parse s = .ok ty) : AsksAbout ty i
  | part {i j : Item} (hj : j ∈ i.operands) (h : AsksAbout ty j) : AsksAbout ty i

/-- The item of a node has a row, a column or a condition of a type. -/
inductive Mentions (i : Item) (ty : Ty) : Prop where
  | row {row j fields : Item} {v : Value} (hrow : row ∈ i.listed "rows")
      (hj : row.field? "value" = some j) (hparts : j.toParts = .ok (ty, v, fields))
  | column {column : Item} {s : String} (hcolumn : column ∈ i.listed "projection")
      (hs : column.field? "type" = some (text s)) (hty : Ty.parse s = .ok ty)
  | condition {j : Item} (hj : i.present? "predicate" = some j) (h : j.AsksAbout ty)

/-- The fields of an item agree with each other. -/
structure Agrees (i : Item) : Prop where
  conditional : i.field? "kind" = some (text "DELETE") → (i.present? "predicate").isSome = true
  distinct : ((i.listed "rows").map (·.field? "column")).Nodup
  dialect : (i.field? "permission").bind (·.field? "dialect") = some (text "inferred") ↔
    ∃ row ∈ i.listed "rows", row.field? "dialect" = some (text "inferred")
  categories : ∀ ty, i.Mentions ty → ∃ j, i.field? "permission" = some j ∧
    text ty.category.name ∈ j.listed "required_categories"

theorem Lists.forall₂ {α : Type} {i : Item} {name : String} {f : Item → Except WireError α}
    {as : List α} (h : i.Lists name f as) :
    List.Forall₂ (fun j a => f j = .ok a) (i.listed name) as := by
  obtain ⟨items, hitems, hread⟩ := h
  unfold listed
  rw [hitems]
  exact hread

/-- The columns of a condition that an item says are of the types that the item asks about. -/
theorem Says.asksAbout_iff {i : Item} {p : Predicate} (h : Says i p) {ty : Ty} :
    i.AsksAbout ty ↔ ∃ c ∈ p.columns, c.ty = ty := by
  -- whatever the form, the rest is settled by the operands that it leaves
  have hstep : ∀ {i : Item} {p : Predicate}, Says i p → p.form ≠ "column" →
      (i.AsksAbout ty ↔ ∃ j ∈ i.operands, j.AsksAbout ty) := by
    intro i p hsays hform
    constructor
    · intro hasks
      cases hasks with
      | column hop =>
        rw [Says.form hsays] at hop
        simp only [Option.some.injEq, text.injEq] at hop
        exact absurd hop hform
      | part hj hasks => exact ⟨_, hj, hasks⟩
    · rintro ⟨j, hj, hasks⟩
      exact .part hj hasks
  induction h with
  | @column i c hop hc =>
    obtain ⟨s, hs, hparse⟩ := type_of_toColumn hc
    simp only [Predicate.columns, List.mem_singleton, exists_eq_left]
    constructor
    · intro hasks
      cases hasks with
      | column hop' hs' hty =>
        rw [hs] at hs'
        cases hs'
        rw [hparse] at hty
        cases hty
        rfl
      | part hj => simp [operands, hop] at hj
    · rintro rfl
      exact .column hop hs hparse
  | literal hop hj hv =>
    rw [hstep (.literal hop hj hv) (by simp [Predicate.form])]
    simp [operands, hop, Predicate.columns]
  | isNull hop hj hp hn ih =>
    rw [hstep (.isNull hop hj hp hn) (by simp [Predicate.form])]
    simp [operands, hop, hj, Predicate.columns, ih]
  | @unary i j op p hop hright hj hp ih =>
    obtain ⟨hcolumn, hliteral, hnull⟩ := unary_name_ne op
    rw [hstep (.unary hop hright hj hp) (ne_of_beq_false hcolumn)]
    simp [operands, hop, hright, hj, hcolumn, hliteral, hnull, Predicate.columns, ih]
  | @binary i j k op l r hop hj hk hl hr ihl ihr =>
    obtain ⟨hcolumn, hliteral, hnull⟩ := binary_name_ne op
    rw [hstep (.binary hop hj hk hl hr) (ne_of_beq_false hcolumn)]
    simp [operands, hop, hj, hk, hcolumn, hliteral, hnull, Predicate.columns, ihl, ihr,
      or_and_right, exists_or]

/-- What the item of a node mentions, the node has. -/
theorem SaysNode.mentions_iff {i : Item} {n : Node} (h : i.SaysNode n) {ty : Ty} :
    i.Mentions ty ↔ ty ∈ n.types := by
  have hcells := Outcome.exists_of_forall₂ h.cells.forall₂
  have hcolumns := Outcome.exists_of_forall₂ h.projection.forall₂
  have hpredicate := h.predicate
  rw [Node.mem_types]
  constructor
  · intro hmentions
    cases hmentions with
    | row hrow hj hparts =>
      obtain ⟨c, hc, hread⟩ := hcells.1 _ hrow
      obtain ⟨⟨j', hj', hv⟩, -, -⟩ := fields_of_toCell hread
      obtain ⟨fields, -, hparts', -⟩ := toTypedValue_eq_ok.mp hv
      rw [hj] at hj'
      cases hj'
      rw [hparts] at hparts'
      cases hparts'
      exact .inl ⟨c, hc, rfl⟩
    | column hcolumn hs hty =>
      obtain ⟨c, hc, hread⟩ := hcolumns.1 _ hcolumn
      obtain ⟨s', hs', hty'⟩ := type_of_toColumn hread
      rw [hs] at hs'
      cases hs'
      rw [hty] at hty'
      cases hty'
      exact .inr (.inl ⟨c, hc, rfl⟩)
    | condition hj hasks =>
      rw [hj] at hpredicate
      generalize hp : n.predicate = o at hpredicate
      cases hpredicate with
      | some hsays => exact .inr (.inr ⟨_, rfl, (Says.asksAbout_iff hsays).mp hasks⟩)
  · rintro (⟨c, hc, rfl⟩ | ⟨c, hc, rfl⟩ | ⟨p, hp, hasked⟩)
    · obtain ⟨row, hrow, hread⟩ := hcells.2 c hc
      obtain ⟨⟨j, hj, hv⟩, -, -⟩ := fields_of_toCell hread
      obtain ⟨fields, -, hparts, -⟩ := toTypedValue_eq_ok.mp hv
      exact .row hrow hj hparts
    · obtain ⟨column, hcolumn, hread⟩ := hcolumns.2 c hc
      obtain ⟨s, hs, hparse⟩ := type_of_toColumn hread
      exact .column hcolumn hs hparse
    · rw [Option.mem_def.mp hp] at hpredicate
      obtain ⟨j, hj, hsays⟩ := exists_of_rel hpredicate
      exact .condition hj ((Says.asksAbout_iff hsays).mpr hasked)

theorem SaysNode.conditional_iff {i : Item} {n : Node} (h : i.SaysNode n) :
    (n.kind = .delete → n.predicate.isSome = true) ↔
      (i.field? "kind" = some (text "DELETE") → (i.present? "predicate").isSome = true) := by
  have hkind : n.kind = .delete ↔ i.field? "kind" = some (text "DELETE") := by
    rw [h.kind]
    cases n.kind <;> simp [StatementKind.name]
  have hsome : ∀ {o : Option Item} {o' : Option Predicate}, Option.Rel Says o o' →
      o'.isSome = o.isSome := by
    intro o o' hrel
    cases hrel <;> rfl
  rw [hkind, hsome h.predicate]

theorem SaysNode.distinct_iff {i : Item} {n : Node} (h : i.SaysNode n) :
    (n.cells.map (·.column)).Nodup ↔ ((i.listed "rows").map (·.field? "column")).Nodup := by
  have hcolumns : (i.listed "rows").map (·.field? "column") =
      (n.cells.map (·.column)).map fun s => some (text s) := by
    rw [List.map_map, ← List.forall₂_eq_eq_eq, List.forall₂_map_left_iff,
      List.forall₂_map_right_iff]
    exact h.cells.forall₂.imp fun _ _ hread => (fields_of_toCell hread).2.1
  rw [hcolumns]
  exact (List.nodup_map_iff fun s t heq => by simpa using heq).symm

theorem inferred_iff {o : Option Item} {d : Dialect} (h : o = some (text d.name)) :
    d = .inferred ↔ o = some (text "inferred") := by
  rw [h]
  cases d <;> simp [Dialect.name]

theorem SaysNode.dialect_iff {i : Item} {n : Node} (h : i.SaysNode n) :
    (n.access.dialect = .inferred ↔ ∃ c ∈ n.cells, c.dialect = .inferred) ↔
      ((i.field? "permission").bind (·.field? "dialect") = some (text "inferred") ↔
        ∃ row ∈ i.listed "rows", row.field? "dialect" = some (text "inferred")) := by
  obtain ⟨j, hj, haccess⟩ := h.access
  have hcells := Outcome.exists_of_forall₂ h.cells.forall₂
  have hrows : (∃ c ∈ n.cells, c.dialect = .inferred) ↔
      ∃ row ∈ i.listed "rows", row.field? "dialect" = some (text "inferred") := by
    constructor
    · rintro ⟨c, hc, hinferred⟩
      obtain ⟨row, hrow, hread⟩ := hcells.2 c hc
      exact ⟨row, hrow, (inferred_iff (fields_of_toCell hread).2.2).mp hinferred⟩
    · rintro ⟨row, hrow, hinferred⟩
      obtain ⟨c, hc, hread⟩ := hcells.1 row hrow
      exact ⟨c, hc, (inferred_iff (fields_of_toCell hread).2.2).mpr hinferred⟩
  rw [hrows, hj, Option.bind_some, inferred_iff (fields_of_toAccess haccess).1]

theorem SaysNode.categories_iff {i : Item} {n : Node} (h : i.SaysNode n) (c : Category) :
    c ∈ n.access.categories ↔ ∃ j, i.field? "permission" = some j ∧
      text c.name ∈ j.listed "required_categories" := by
  obtain ⟨j, hj, haccess⟩ := h.access
  obtain ⟨-, cs, hlists, heq⟩ := fields_of_toAccess haccess
  have hnames := Outcome.exists_of_forall₂ hlists.forall₂
  rw [heq, Category.mem_setOf]
  constructor
  · intro hc
    obtain ⟨k, hk, hread⟩ := hnames.2 c hc
    rw [toCategory_eq_ok.mp hread] at hk
    exact ⟨j, hj, hk⟩
  · rintro ⟨j', hj', hc⟩
    rw [hj] at hj'
    cases hj'
    obtain ⟨d, hd, hread⟩ := hnames.1 _ hc
    rw [toCategory_text] at hread
    cases hread
    exact hd

/-- The parts of a node agree exactly if the fields of the item that says it do. -/
theorem SaysNode.coherent_iff {i : Item} {n : Node} (h : i.SaysNode n) :
    n.Coherent ↔ i.Agrees := by
  constructor
  · intro hn
    refine ⟨h.conditional_iff.mp hn.conditional, h.distinct_iff.mp hn.distinct,
      h.dialect_iff.mp hn.dialect, fun ty hty => ?_⟩
    exact (h.categories_iff _).mp (hn.categories ty (h.mentions_iff.mp hty))
  · intro hi
    refine ⟨h.conditional_iff.mpr hi.conditional, h.distinct_iff.mpr hi.distinct,
      h.dialect_iff.mpr hi.dialect, fun ty hty => ?_⟩
    exact (h.categories_iff _).mpr (hi.categories ty (h.mentions_iff.mpr hty))

end Item

namespace Node

/-- Lowered nodes are coherent.  A node that is read is so exactly if the fields of its item agree,
which reading does not ask for: with rows dropped or repeated, the condition left out and any
access at all, the node can be read as well. -/
theorem read_coherent_iff {i : Item} {n : Node} (h : i.toNode = .ok n) :
    (n.Coherent ↔ i.Agrees) ∧
    (∀ (cells : List Cell) (a : Access), cells ⊆ n.cells →
      Category.setOf a.categories = a.categories →
        (∃ j : Item, j.toNode = .ok { n with cells := cells, access := a }) ∧
          ∃ j : Item, j.toNode = .ok { n with cells := cells, predicate := none, access := a }) ∧
    ∀ {s : Schema} {v : Verifier} {st : Statement} {t : TypedStatement}
      {cache : CertificateCache} {p : Option Provenance} {m : Node},
      Checker.check s v st = .ok t → cache.Reachable → (lower cache t p).1 = .ok m →
        ∀ role, (m.bindRole role).Coherent := by
  refine ⟨(Item.toNode_eq_ok.mp h).coherent_iff, ?_,
    fun ht hc hm role => coherent_of_lower ht hc.faithful hm role⟩
  intro cells a hcells ha
  obtain ⟨hsound, hlayers⟩ := readable_iff.mp ⟨i, h⟩
  have hrows := fun c hc => hsound.cells c (hcells hc)
  constructor
  · refine readable_iff.mpr ⟨?_, hlayers⟩
    exact ⟨hrows, hsound.projection, hsound.columns, hsound.attributed, ha⟩
  · refine readable_iff.mpr ⟨?_, by simp [literals]⟩
    exact ⟨hrows, hsound.projection, by simp, hsound.attributed, ha⟩

end Node

def Schema.tasks : Schema :=
  { name := "tasks", columns := [⟨"done", .bool, false, false⟩], valid := rfl }

/-- `DELETE FROM tasks WHERE done` -/
def Statement.clearsDone : Statement :=
  .delete ⟨"tasks", default⟩ (.column ⟨"done", default⟩) {}

def TypedStatement.clearsDone : TypedStatement where
  kind := .delete
  table := "tasks"
  projection := [⟨"done", .bool⟩]
  predicate := some (.column ⟨"done", .bool⟩)

def Node.clearsDone : Node where
  kind := .delete
  table := "tasks"
  cells := []
  projection := [⟨"done", .bool⟩]
  predicate := some (.column ⟨"done", .bool⟩)
  orderBy := []
  limit := none
  normalForm := none
  provenance := some ⟨"clerk", 2, "tidying up", rfl, rfl⟩
  access := ⟨none, .explicit, [.bool]⟩

/-- The deletion of everything, which needs access to nothing. -/
def Node.clearsAll : Node :=
  { Node.clearsDone with predicate := none, access := ⟨none, .inferred, []⟩ }

namespace Node

theorem clearsAll_read :
    (clearsDone.bindRole "r").toItem.toNode = .ok (clearsDone.bindRole "r") ∧
    (clearsDone.bindRole "r").Coherent ∧ (clearsDone.bindRole "r").toItem.Agrees ∧
    (∃ j : Item, j.toNode = .ok clearsAll ∧ ¬ j.Agrees) ∧
    clearsAll.kind = .delete ∧ clearsAll.predicate = none ∧ clearsAll.access.dialect = .inferred ∧
    clearsAll.cells = [] ∧ .bool ∈ clearsAll.types ∧ clearsAll.access.categories = [] := by
  have hcheck : Checker.check .tasks .interval .clearsDone = .ok .clearsDone := rfl
  have hlower : (lower { capacity := 0 } .clearsDone clearsDone.provenance).1 = .ok clearsDone :=
    rfl
  have hcolumns : ∀ c ∈ Schema.tasks.columns, c.ty.BoundsFinite ∧ c.ty.layers < defaultDepth := by
    intro c hc
    rw [List.mem_singleton.mp hc]
    exact ⟨trivial, by decide⟩
  have hcache : CertificateCache.Reachable { capacity := 0 } := .empty 0
  have hsound := sound_of_lower (Checker.about_of_check hcheck) hcolumns hcache.faithful hlower "r"
  have hread := (toNode_toItem_iff hsound).mpr ⟨rfl, by simp [literals, clearsDone, bindRole,
    Predicate.literals]⟩
  obtain ⟨hagrees, hvaried, hcoherent⟩ := read_coherent_iff hread
  have hdone := hcoherent hcheck hcache hlower "r"
  obtain ⟨-, j, hj⟩ := hvaried [] ⟨none, .inferred, []⟩ (List.nil_subset _) rfl
  refine ⟨hread, hdone, hagrees.mp hdone, ⟨j, hj, fun hall => ?_⟩, rfl, rfl, rfl, rfl, by decide, rfl⟩
  -- a deletion without a condition
  cases ((read_coherent_iff hj).1.mpr hall).conditional rfl

end Node
end Attest
