import Attest.Proofs.Wire.Node

/-!
Which nodes can be read.

Whatever an item says, the types in it were parsed, its certificates are of their values, and its
categories make a set.  Any node that is so can be read from its own item, so that these are
exactly the nodes that come from the wire.
-/

namespace Attest

namespace Item

theorem typeOf_eq_ok {s : String} {ty : Ty} : typeOf s = .ok ty ↔ Ty.parse s = .ok ty := by
  unfold typeOf
  cases Ty.parse s <;> simp

theorem type_of_toColumn {i : Item} {c : ColumnRef} (h : i.toColumn = .ok c) :
    ∃ s, i.field? "type" = some (text s) ∧ Ty.parse s = .ok c.ty := by
  unfold toColumn at h
  obtain ⟨name, -, h⟩ := Outcome.bind_eq_ok.mp h
  obtain ⟨s, hs, h⟩ := Outcome.bind_eq_ok.mp h
  obtain ⟨ty, hty, h⟩ := Outcome.bind_eq_ok.mp h
  cases h
  exact ⟨s, textField_eq_ok.mp hs, typeOf_eq_ok.mp hty⟩

theorem of_toColumn {i : Item} {c : ColumnRef} (h : i.toColumn = .ok c) :
    c.ty.BoundsFinite ∧ c.ty.layers < defaultDepth := by
  obtain ⟨s, -, hparse⟩ := type_of_toColumn h
  exact (Ty.of_parse hparse).symm

/-- No tag stands for a vector. -/
theorem layers_of_toTagged {t : Tag} {i : Item} {ty : Ty} {v : Value}
    (h : toTagged t i = .ok (ty, v)) : ty.layers = 0 := by
  cases t with
  | boundedNat =>
    obtain ⟨lo, -, h⟩ := Outcome.bind_eq_ok.mp h
    obtain ⟨hi, -, h⟩ := Outcome.bind_eq_ok.mp h
    obtain ⟨n, -, h⟩ := Outcome.bind_eq_ok.mp h
    cases h
    rfl
  | nonEmptyString =>
    obtain ⟨s, -, h⟩ := Outcome.bind_eq_ok.mp h
    cases h
    rfl
  | confidence =>
    obtain ⟨j, -, h⟩ := Outcome.bind_eq_ok.mp h
    obtain ⟨x, -, h⟩ := Outcome.bind_eq_ok.mp h
    cases h
    rfl
  | promptScores =>
    obtain ⟨s, -, h⟩ := Outcome.bind_eq_ok.mp h
    cases h
    rfl
  | proof => cases h

theorem layers_of_toParts {i fields : Item} {ty : Ty} {v : Value}
    (h : i.toParts = .ok (ty, v, fields)) : ty.layers < defaultDepth := by
  cases i with
  | tag n content =>
    unfold toParts at h
    dsimp only at h
    split at h
    · cases h
    · obtain ⟨inner, -, h⟩ := Outcome.bind_eq_ok.mp h
      obtain ⟨⟨ty', v'⟩, htagged, h⟩ := Outcome.bind_eq_ok.mp h
      cases h
      rw [layers_of_toTagged htagged]
      decide
  | map entries =>
    obtain ⟨source, -, h⟩ := Outcome.bind_eq_ok.mp h
    obtain ⟨ty', hty, h⟩ := Outcome.bind_eq_ok.mp h
    obtain ⟨j, -, h⟩ := Outcome.bind_eq_ok.mp h
    obtain ⟨v', -, h⟩ := Outcome.bind_eq_ok.mp h
    cases h
    exact (Ty.of_parse (typeOf_eq_ok.mp hty)).1
  | _ => cases h

theorem of_toTypedValue {i : Item} {v : TypedValue} {c : Certificate}
    (h : i.toTypedValue = .ok (v, c)) : v.ty.layers < defaultDepth ∧ c.mismatch? v = none := by
  obtain ⟨fields, p, hparts, -, -, hmatch⟩ := toTypedValue_eq_ok.mp h
  exact ⟨layers_of_toParts hparts, hmatch⟩

theorem of_toCell {i : Item} {c : Cell} (h : i.toCell = .ok c) :
    c.value.ty.layers < defaultDepth ∧ c.certificate.mismatch? c.value = none := by
  obtain ⟨⟨j, -, hv⟩, -, -⟩ := fields_of_toCell h
  exact of_toTypedValue hv

theorem toCategory_eq_ok {i : Item} {c : Category} : i.toCategory = .ok c ↔ i = text c.name := by
  constructor
  · intro h
    obtain ⟨s, hs, h⟩ := Outcome.bind_eq_ok.mp h
    split at h
    · next d hd =>
      cases h
      have hname : c.name = s := by simpa using List.find?_some hd
      rw [expectField_eq_ok] at hs
      cases i with
      | text s' =>
        cases hs
        rw [hname]
      | _ => cases hs
    · cases h
  · rintro rfl
    exact toCategory_text c

theorem fields_of_toAccess {i : Item} {a : Access} (h : i.toAccess = .ok a) :
    i.field? "dialect" = some (text a.dialect.name) ∧
      ∃ cs, i.Lists "required_categories" toCategory cs ∧ a.categories = Category.setOf cs := by
  unfold toAccess at h
  dsimp only at h
  -- the role is read in two ways, and the rest alike
  split at h
  all_goals
    obtain ⟨role, -, h⟩ := Outcome.bind_eq_ok.mp h
    obtain ⟨names, hnames, h⟩ := Outcome.bind_eq_ok.mp h
    obtain ⟨categories, hcategories, h⟩ := Outcome.bind_eq_ok.mp h
    obtain ⟨dialect, hdialect, h⟩ := Outcome.bind_eq_ok.mp h
    cases h
    exact ⟨dialect_of_toDialect hdialect, categories,
      lists_iff.mpr ⟨names, hnames, hcategories⟩, rfl⟩

/-- Every type that a condition is read with has few layers. -/
theorem Says.readable {i : Item} {p : Predicate} (h : Says i p) :
    (∀ c ∈ p.columns, c.ty.BoundsFinite ∧ c.ty.layers < defaultDepth) ∧
      ∀ v ∈ p.literals, v.ty.layers < defaultDepth := by
  induction h with
  | column hop hc =>
    refine ⟨fun d hd => ?_, by simp [Predicate.literals]⟩
    rw [List.mem_singleton.mp hd]
    exact of_toColumn hc
  | literal hop hj hv =>
    refine ⟨by simp [Predicate.columns], fun w hw => ?_⟩
    rw [List.mem_singleton.mp hw]
    exact (of_toTypedValue hv).1
  | isNull hop hj hp hn ih => exact ih
  | unary hop hright hj hp ih => exact ih
  | binary hop hj hk hl hr ihl ihr =>
    constructor
    · intro c hc
      rcases List.mem_append.mp hc with hc | hc
      · exact ihl.1 c hc
      · exact ihr.1 c hc
    · intro v hv
      rcases List.mem_append.mp hv with hv | hv
      · exact ihl.2 v hv
      · exact ihr.2 v hv

theorem Lists.forall_mem {α : Type} {i : Item} {name : String} {f : Item → Except WireError α}
    {as : List α} {P : α → Prop} (h : i.Lists name f as) (hf : ∀ {j a}, f j = .ok a → P a) :
    ∀ a ∈ as, P a := by
  obtain ⟨items, -, hread⟩ := h
  exact Outcome.forall_mem hread hf

/-- What an item says is a sound node, with values of few layers in its condition. -/
theorem SaysNode.sound {i : Item} {n : Node} (h : i.SaysNode n) :
    n.Sound ∧ ∀ v ∈ n.literals, v.ty.layers < defaultDepth := by
  have hcondition : ∀ p, n.predicate = some p → ∃ j, Says j p := by
    intro p hp
    have hpredicate := h.predicate
    rw [hp] at hpredicate
    obtain ⟨j, -, hsays⟩ := exists_of_rel hpredicate
    exact ⟨j, hsays⟩
  constructor
  · refine ⟨h.cells.forall_mem of_toCell, h.projection.forall_mem of_toColumn, ?_, h.attributed, ?_⟩
    · intro p hp
      obtain ⟨j, hsays⟩ := hcondition p hp
      exact (Says.readable hsays).1
    · obtain ⟨j, -, haccess⟩ := h.access
      obtain ⟨-, cs, -, heq⟩ := fields_of_toAccess haccess
      rw [heq, Category.setOf_setOf]
  · unfold Node.literals
    cases hp : n.predicate with
    | none => simp
    | some p =>
      obtain ⟨j, hsays⟩ := hcondition p hp
      exact (Says.readable hsays).2

end Item

theorem Node.readable_iff {n : Node} : (∃ i : Item, i.toNode = .ok n) ↔
    n.Sound ∧ ∀ v ∈ n.literals, v.ty.layers < defaultDepth := by
  constructor
  · rintro ⟨i, h⟩
    exact (Item.toNode_eq_ok.mp h).sound
  · rintro ⟨hsound, hlayers⟩
    exact ⟨n.toItem, (toNode_toItem_iff hsound).mpr ⟨rfl, hlayers⟩⟩

end Attest
