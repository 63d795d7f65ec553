import Attest.Proofs.Wire.Predicate

/-!
Nodes on the wire.

Reading takes a node from exactly the items that say it field by field.  The item of a node says
it if its certificates are of their values and no type in it has too many layers.
-/

namespace Attest

namespace Category

theorem setOf_setOf (cs : List Category) : setOf (setOf cs) = setOf cs := by
  unfold setOf
  refine List.filter_congr fun c hc => ?_
  rw [Bool.eq_iff_iff, List.contains_iff_mem, List.mem_filter]
  exact and_iff_right hc

end Category

namespace Item

theorem maybe_eq_ok {α : Type} {i : Item} {name : String} {f : Item → Except WireError α}
    {o : Option α} :
    i.maybe name f = .ok o ↔ Option.Rel (fun j a => f j = .ok a) (i.present? name) o := by
  unfold maybe
  cases i.present? name with
  | none =>
    constructor
    · intro h
      cases h
      exact .none
    · intro h
      cases h
      rfl
  | some j =>
    dsimp only
    rw [Outcome.map_eq_ok]
    constructor
    · rintro ⟨a, ha, rfl⟩
      exact .some ha
    · intro h
      cases h with
      | some ha => exact ⟨_, ha, rfl⟩

theorem exists_of_rel {α β : Type} {R : α → β → Prop} {o : Option α} {b : β}
    (h : Option.Rel R o (some b)) : ∃ a, o = some a ∧ R a b := by
  cases h with
  | some hr => exact ⟨_, rfl, hr⟩

/-- A part that may be missing is there if it was put in. -/
theorem present?_ofFields {fields : List (String × Item)} (hn : (fields.map Prod.fst).Nodup)
    {name : String} {o : Option Item} (h : fields.lookup name = some (optional o))
    (ho : ∀ j, o = some j → j.isNull = false) : (ofFields fields).present? name = o := by
  unfold present?
  rw [field?_ofFields hn, h]
  cases o with
  | none => rfl
  | some j => simp [optional, Option.filter, ho j rfl]

theorem checkProvenance_eq_ok {kind : StatementKind} {p : Option Provenance} {u : Unit} :
    checkProvenance kind p = .ok u ↔ p.isSome = kind.isMutation := by
  unfold checkProvenance
  cases kind.isMutation <;> cases p <;> simp

/-- A field holds an array of things that can be read. -/
def Lists {α : Type} (i : Item) (name : String) (f : Item → Except WireError α) (as : List α) :
    Prop :=
  ∃ items, i.field? name = some (array items) ∧ List.Forall₂ (fun j a => f j = .ok a) items as

theorem lists_iff {α : Type} {i : Item} {name : String} {f : Item → Except WireError α}
    {as : List α} :
    i.Lists name f as ↔ ∃ items, i.arrayField name = .ok items ∧ items.mapM f = .ok as := by
  simp only [Lists, arrayField_eq_ok, Outcome.mapM_eq_ok]

structure SaysNode (i : Item) (n : Node) : Prop where
  kind : i.field? "kind" = some (text n.kind.name)
  table : i.field? "table" = some (text n.table)
  cells : i.Lists "rows" toCell n.cells
  projection : i.Lists "projection" toColumn n.projection
  predicate : Option.Rel Says (i.present? "predicate") n.predicate
  orderBy : i.Lists "order_by" toSortKey n.orderBy
  limit : Option.Rel (fun j w => j = unsigned w) (i.present? "limit") n.limit
  normalForm : Option.Rel (fun j f => j.toNormalForm = .ok f) (i.present? "normal_form")
    n.normalForm
  provenance : Option.Rel (fun j p => j.toProvenance = .ok p) (i.present? "provenance")
    n.provenance
  attributed : n.provenance.isSome = n.kind.isMutation
  access : ∃ j, i.field? "permission" = some j ∧ j.toAccess = .ok n.access

theorem named_kind (k : StatementKind) :
    named "kind" StatementKind.all StatementKind.name k.name = .ok k :=
  named_eq_ok (by decide) (by cases k <;> decide)

theorem expect_limit {j : Item} {w : UInt64} :
    expectField "limit" "unsigned integer" j.toWord? = .ok w ↔ j = unsigned w := by
  rw [expectField_eq_ok]
  cases j <;> simp [toWord?]

theorem toNode_eq_ok {i : Item} {n : Node} : i.toNode = .ok n ↔ SaysNode i n := by
  have hpredicate : ∀ o : Option Predicate,
      i.maybe "predicate" toPredicate = .ok o ↔ Option.Rel Says (i.present? "predicate") o := by
    simp only [maybe_eq_ok, toPredicate_eq_ok, implies_true]
  have hlimit : ∀ o : Option UInt64,
      i.maybe "limit" (fun v => expectField "limit" "unsigned integer" v.toWord?) = .ok o ↔
        Option.Rel (fun j w => j = unsigned w) (i.present? "limit") o := by
    simp only [maybe_eq_ok, expect_limit, implies_true]
  constructor
  · intro h
    cases i with
    | map entries =>
      unfold toNode at h
      obtain ⟨name, hname, h⟩ := Outcome.bind_eq_ok.mp h
      obtain ⟨kind, hkind, h⟩ := Outcome.bind_eq_ok.mp h
      obtain ⟨table, htable, h⟩ := Outcome.bind_eq_ok.mp h
      obtain ⟨rows, hrows, h⟩ := Outcome.bind_eq_ok.mp h
      obtain ⟨cells, hcells, h⟩ := Outcome.bind_eq_ok.mp h
      obtain ⟨columns, hcolumns, h⟩ := Outcome.bind_eq_ok.mp h
      obtain ⟨projection, hprojection, h⟩ := Outcome.bind_eq_ok.mp h
      obtain ⟨predicate, hp, h⟩ := Outcome.bind_eq_ok.mp h
      obtain ⟨keys, hkeys, h⟩ := Outcome.bind_eq_ok.mp h
      obtain ⟨orderBy, horder, h⟩ := Outcome.bind_eq_ok.mp h
      obtain ⟨limit, hl, h⟩ := Outcome.bind_eq_ok.mp h
      obtain ⟨normalForm, hform, h⟩ := Outcome.bind_eq_ok.mp h
      obtain ⟨provenance, hprovenance, h⟩ := Outcome.bind_eq_ok.mp h
      obtain ⟨u, hcheck, h⟩ := Outcome.bind_eq_ok.mp h
      obtain ⟨permission, hpermission, h⟩ := Outcome.bind_eq_ok.mp h
      obtain ⟨access, haccess, h⟩ := Outcome.bind_eq_ok.mp h
      cases h
      rw [← name_of_named hkind] at hname
      exact {
        kind := textField_eq_ok.mp hname
        table := textField_eq_ok.mp htable
        cells := lists_iff.mpr ⟨rows, hrows, hcells⟩
        projection := lists_iff.mpr ⟨columns, hcolumns, hprojection⟩
        predicate := (hpredicate predicate).mp hp
        orderBy := lists_iff.mpr ⟨keys, hkeys, horder⟩
        limit := (hlimit limit).mp hl
        normalForm := maybe_eq_ok.mp hform
        provenance := maybe_eq_ok.mp hprovenance
        attributed := checkProvenance_eq_ok.mp hcheck
        access := ⟨permission, required_eq_ok.mp hpermission, haccess⟩ }
    | _ => cases h
  · intro h
    obtain ⟨rows, hrows, hcells⟩ := lists_iff.mp h.cells
    obtain ⟨columns, hcolumns, hprojection⟩ := lists_iff.mp h.projection
    obtain ⟨keys, hkeys, horder⟩ := lists_iff.mp h.orderBy
    obtain ⟨permission, hpermission, haccess⟩ := h.access
    cases i with
    | map entries =>
      unfold toNode
      dsimp only
      rw [textField_eq_ok.mpr h.kind, Outcome.ok_bind, named_kind, Outcome.ok_bind,
        textField_eq_ok.mpr h.table, Outcome.ok_bind, hrows, Outcome.ok_bind, hcells,
        Outcome.ok_bind, hcolumns, Outcome.ok_bind, hprojection, Outcome.ok_bind,
        (hpredicate _).mpr h.predicate, Outcome.ok_bind, hkeys, Outcome.ok_bind, horder,
        Outcome.ok_bind, (hlimit _).mpr h.limit, Outcome.ok_bind, maybe_eq_ok.mpr h.normalForm,
        Outcome.ok_bind, maybe_eq_ok.mpr h.provenance, Outcome.ok_bind,
        (checkProvenance_eq_ok (u := ())).mpr h.attributed, Outcome.ok_bind,
        required_eq_ok.mpr hpermission, Outcome.ok_bind, haccess]
      rfl
    | _ => cases h.kind

theorem toDialect_eq_ok {i : Item} {d : Dialect} (h : i.field? "dialect" = some (text d.name)) :
    i.toDialect = .ok d := by
  unfold toDialect
  rw [textField_eq_ok.mpr h, Outcome.ok_bind]
  exact named_eq_ok (by decide) (by cases d <;> decide)

theorem dialect_of_toDialect {i : Item} {d : Dialect} (h : i.toDialect = .ok d) :
    i.field? "dialect" = some (text d.name) := by
  obtain ⟨s, hs, h⟩ := Outcome.bind_eq_ok.mp h
  rw [name_of_named h]
  exact textField_eq_ok.mp hs

theorem toCell_toItem {c : Cell} (h : c.value.ty.layers < defaultDepth)
    (hc : c.certificate.mismatch? c.value = none) : c.toItem.toCell = .ok c := by
  have hvalue : c.toItem.field? "value" = some (c.value.toItem c.certificate) := by
    simp [Cell.toItem, List.lookup]
  have hcolumn : c.toItem.field? "column" = some (text c.column) := by
    simp [Cell.toItem, List.lookup]
  have hdialect : c.toItem.field? "dialect" = some (text c.dialect.name) := by
    simp [Cell.toItem, List.lookup]
  unfold toCell
  rw [required_eq_ok.mpr hvalue, Outcome.ok_bind, toTypedValue_toItem h hc, Outcome.ok_bind]
  dsimp only
  rw [textField_eq_ok.mpr hcolumn, Outcome.ok_bind, toDialect_eq_ok hdialect]
  rfl

theorem fields_of_toCell {i : Item} {c : Cell} (h : i.toCell = .ok c) :
    (∃ j, i.field? "value" = some j ∧ j.toTypedValue = .ok (c.value, c.certificate)) ∧
      i.field? "column" = some (text c.column) ∧
      i.field? "dialect" = some (text c.dialect.name) := by
  unfold toCell at h
  obtain ⟨j, hj, h⟩ := Outcome.bind_eq_ok.mp h
  obtain ⟨⟨v, certificate⟩, hv, h⟩ := Outcome.bind_eq_ok.mp h
  obtain ⟨column, hcolumn, h⟩ := Outcome.bind_eq_ok.mp h
  obtain ⟨dialect, hdialect, h⟩ := Outcome.bind_eq_ok.mp h
  cases h
  exact ⟨⟨j, required_eq_ok.mp hj, hv⟩, textField_eq_ok.mp hcolumn, dialect_of_toDialect hdialect⟩

theorem toColumn_toItem {c : ColumnRef} (hc : c.ty.BoundsFinite)
    (h : c.ty.layers < defaultDepth) : c.toItem.toColumn = .ok c :=
  toColumn_eq_ok (by simp [ColumnRef.toItem, List.lookup]) (by simp [ColumnRef.toItem, List.lookup])
    hc h

theorem toSortKey_toItem (k : SortKey) : k.toItem.toSortKey = .ok k := by
  have hcolumn : k.toItem.field? "column" = some (text k.column) := by
    simp [SortKey.toItem, List.lookup]
  have hdirection : k.toItem.field? "direction" = some (text k.direction.name) := by
    simp [SortKey.toItem, List.lookup]
  have hnamed : named "direction" SortDirection.all SortDirection.name k.direction.name =
      .ok k.direction := named_eq_ok (by decide) (by cases k.direction <;> decide)
  unfold toSortKey
  rw [textField_eq_ok.mpr hcolumn, Outcome.ok_bind, textField_eq_ok.mpr hdirection,
    Outcome.ok_bind, hnamed]
  rfl

theorem toCategory_text (c : Category) : (text c.name).toCategory = .ok c := by
  have hc : Category.ofName? c.name = some c := by cases c <;> decide
  unfold toCategory
  rw [toText?, expectField, Outcome.ok_bind, hc]
  rfl

theorem toAccess_toItem {a : Access} (h : Category.setOf a.categories = a.categories) :
    a.toItem.toAccess = .ok a := by
  have hrole : a.toItem.present? "role_id" = a.role.map text :=
    present?_ofFields (by simp) (by simp [List.lookup]) (by cases a.role <;> simp [isNull])
  have hcategories : a.toItem.field? "required_categories" =
      some (array (a.categories.map fun c => text c.name)) := by
    simp [Access.toItem, List.lookup]
  have hdialect : a.toItem.field? "dialect" = some (text a.dialect.name) := by
    simp [Access.toItem, List.lookup]
  unfold toAccess
  dsimp only
  rw [hrole, arrayField_eq_ok.mpr hcategories, toDialect_eq_ok hdialect]
  obtain ⟨role, dialect, categories⟩ := a
  simp only [Outcome.ok_bind, Outcome.mapM_map fun c (_ : c ∈ categories) => toCategory_text c]
  rw [h]
  cases role <;> rfl

theorem toProvenance_toItem (p : Provenance) : p.toItem.toProvenance = .ok p := by
  have hmake : Provenance.make p.actor p.timestamp p.rationale = .ok p := by
    unfold Provenance.make
    rw [dif_neg (by simp [p.valid.1]), dif_neg (by simp [p.valid.2])]
  have htime : p.toItem.field? "timestamp" = some (unsigned p.timestamp) := by
    simp [Provenance.toItem, List.lookup]
  have hactor : p.toItem.field? "actor_id" = some (text p.actor) := by
    simp [Provenance.toItem, List.lookup]
  have hrationale : p.toItem.field? "rationale" = some (text p.rationale) := by
    simp [Provenance.toItem, List.lookup]
  unfold toProvenance
  rw [wordField_eq_ok.mpr htime, Outcome.ok_bind, textField_eq_ok.mpr hactor, Outcome.ok_bind,
    textField_eq_ok.mpr hrationale, Outcome.ok_bind, hmake]
  rfl

theorem toNormalForm_text (f : NormalForm) : (text f.name).toNormalForm = .ok f := by
  have hf : NormalForm.ofName? f.name = some f := by cases f <;> decide +kernel
  unfold toNormalForm
  rw [toText?, expectField, Outcome.ok_bind, hf]
  rfl

end Item

namespace Node

/-- Nodes that say nothing the wire cannot hold, but for the values of their conditions. -/
structure Sound (n : Node) : Prop where
  cells : ∀ c ∈ n.cells, c.value.ty.layers < defaultDepth ∧ c.certificate.mismatch? c.value = none
  projection : ∀ c ∈ n.projection, c.ty.BoundsFinite ∧ c.ty.layers < defaultDepth
  columns : ∀ p, n.predicate = some p →
    ∀ c ∈ p.columns, c.ty.BoundsFinite ∧ c.ty.layers < defaultDepth
  attributed : n.provenance.isSome = n.kind.isMutation
  categories : Category.setOf n.access.categories = n.access.categories

def literals (n : Node) : List TypedValue := (n.predicate.map Predicate.literals).getD []

def fields (n : Node) : List (String × Item) :=
  [("kind", .text n.kind.name), ("table", .text n.table),
   ("rows", .array (n.cells.map Cell.toItem)),
   ("projection", .array (n.projection.map ColumnRef.toItem)),
   ("predicate", .optional (n.predicate.map Predicate.toItem)),
   ("order_by", .array (n.orderBy.map SortKey.toItem)),
   ("limit", .optional (n.limit.map .unsigned)),
   ("normal_form", .optional (n.normalForm.map fun f => .text f.name)),
   ("provenance", .optional (n.provenance.map Provenance.toItem)),
   ("permission", n.access.toItem)]

theorem nodup_fields (n : Node) : (n.fields.map Prod.fst).Nodup := by simp [fields]

theorem field?_toItem (n : Node) (name : String) :
    n.toItem.field? name = n.fields.lookup name := Item.field?_ofFields n.nodup_fields name

theorem present?_toItem {n : Node} {name : String} {o : Option Item}
    (h : n.fields.lookup name = some (.optional o)) (ho : ∀ j, o = some j → j.isNull = false) :
    n.toItem.present? name = o := Item.present?_ofFields n.nodup_fields h ho

theorem present?_predicate (n : Node) :
    n.toItem.present? "predicate" = n.predicate.map Predicate.toItem := by
  refine present?_toItem rfl fun j hj => ?_
  obtain ⟨p, -, rfl⟩ := Option.map_eq_some_iff.mp hj
  cases p <;> rfl

theorem lists_toItem {α : Type} {n : Node} {name : String} {f : α → Item}
    {g : Item → Except WireError α} {as : List α}
    (h : n.fields.lookup name = some (.array (as.map f))) (hg : ∀ a ∈ as, g (f a) = .ok a) :
    n.toItem.Lists name g as := by
  refine ⟨as.map f, by rw [field?_toItem, h], ?_⟩
  exact Outcome.mapM_eq_ok.mp (Outcome.mapM_map hg)

/-- The item of a node with values of few enough layers says it. -/
theorem saysNode_toItem {n : Node} (hn : n.Sound)
    (h : ∀ v ∈ n.literals, v.ty.layers < defaultDepth) : n.toItem.SaysNode n where
  kind := field?_toItem n "kind"
  table := field?_toItem n "table"
  cells := lists_toItem rfl fun c hc => Item.toCell_toItem (hn.cells c hc).1 (hn.cells c hc).2
  projection := lists_toItem rfl fun c hc =>
    Item.toColumn_toItem (hn.projection c hc).1 (hn.projection c hc).2
  predicate := by
    rw [present?_predicate]
    cases hp : n.predicate with
    | none => exact .none
    | some p =>
      refine .some (Item.says_toItem (hn.columns p hp) ?_)
      rw [literals, hp] at h
      exact h
  orderBy := lists_toItem rfl fun k _ => Item.toSortKey_toItem k
  limit := by
    rw [present?_toItem rfl (by simp +contextual [Item.isNull])]
    cases n.limit with
    | none => exact .none
    | some w => exact .some rfl
  normalForm := by
    rw [present?_toItem rfl (by simp +contextual [Item.isNull])]
    cases n.normalForm with
    | none => exact .none
    | some f => exact .some (Item.toNormalForm_text f)
  provenance := by
    have hnull : ∀ p : Provenance, p.toItem.isNull = false := fun _ => rfl
    rw [present?_toItem rfl (by simp +contextual [hnull])]
    cases n.provenance with
    | none => exact .none
    | some p => exact .some (Item.toProvenance_toItem p)
  attributed := hn.attributed
  access := ⟨n.access.toItem, field?_toItem n "permission", Item.toAccess_toItem hn.categories⟩

/-- The item of a node says a node only if the values of the condition have few enough layers. -/
theorem layers_of_saysNode {n m : Node} (h : n.toItem.SaysNode m) :
    ∀ v ∈ n.literals, v.ty.layers < defaultDepth := by
  have hp := h.predicate
  rw [present?_predicate] at hp
  rw [literals]
  cases hpred : n.predicate with
  | none => simp
  | some p =>
    rw [hpred, Option.map_some] at hp
    generalize m.predicate = q at hp
    cases hp with
    | some hsays => exact Item.Says.layers hsays

/-- A node reads back from its item exactly if the values of its condition have few enough
layers, and else nothing does. -/
theorem toNode_toItem_iff {n m : Node} (hn : n.Sound) :
    n.toItem.toNode = .ok m ↔ m = n ∧ ∀ v ∈ n.literals, v.ty.layers < defaultDepth := by
  constructor
  · intro h
    have hlayers := layers_of_saysNode (Item.toNode_eq_ok.mp h)
    have hback := Item.toNode_eq_ok.mpr (saysNode_toItem hn hlayers)
    rw [h] at hback
    cases hback
    exact ⟨rfl, hlayers⟩
  · rintro ⟨rfl, hlayers⟩
    exact Item.toNode_eq_ok.mpr (saysNode_toItem hn hlayers)

end Node
end Attest
