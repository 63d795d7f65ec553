import Attest.Item.Cbor
import Attest.Proofs.Item.Levels
import Attest.Proofs.Item.Order
import Attest.Proofs.Wire.Node

/-!
How deep the items of nodes nest.

Every operator of a condition adds a level.  All else in a sound node stays far below the limit.
-/

namespace Attest

mutual

def Value.levels : Value → Nat
  | .vector items => Value.levelsOf items + 1
  | .scores _ => 2
  | _ => 1

def Value.levelsOf : List Value → Nat
  | [] => 0
  | v :: rest => max (Value.levels v) (Value.levelsOf rest)

end

def TypedValue.levels (v : TypedValue) : Nat :=
  match v.ty with
  | .boundedNat _ _ => 5
  | .nonEmptyString => 5
  | .confidence => 5
  | .promptScores => 5
  | _ => max v.value.levels 3 + 1

def Predicate.levels : Predicate → Nat
  | column _ => 2
  | literal v => v.levels + 1
  | unary _ p => p.levels + 1
  | binary _ l r => max l.levels r.levels + 1
  | isNull p _ => p.levels + 1

namespace Item

theorem levels_ofFields (fields : List (String × Item)) :
    (ofFields fields).levels = fields.foldr (fun f d => max f.2.levels d) 0 + 1 := by
  have hfold : ∀ d, fields.foldr (fun f d => max f.2.levels d) 0 ≤ d ↔
      ∀ f ∈ fields, f.2.levels ≤ d := by
    intro d
    induction fields with
    | nil => simp
    | cons f fields ih => rw [List.foldr_cons, Nat.max_le, ih, List.forall_mem_cons]
  have hentries : ∀ d, levelsOfEntries
      ((Sorting.sort fieldLess fields).map fun f => (text f.1, f.2)) ≤ d ↔
        ∀ f ∈ fields, f.2.levels ≤ d := by
    intro d
    rw [levelsOfEntries_le, List.forall_mem_map]
    have hperm := Sorting.sort_perm fieldLess fields
    constructor
    · exact fun h f hf => (h f (hperm.mem_iff.mpr hf)).2
    · intro h f hf
      have hle := h f (hperm.mem_iff.mp hf)
      exact ⟨Nat.le_trans f.2.levels_pos hle, hle⟩
  -- Two numbers are equal that have the same upper bounds.
  have heq := Nat.le_antisymm ((hentries _).mpr ((hfold _).mp (Nat.le_refl _)))
    ((hfold _).mpr ((hentries _).mp (Nat.le_refl _)))
  rw [ofFields_eq, levels, heq]

theorem levels_int (i : Int64) : (int i).levels = 1 := by
  unfold int
  split <;> rfl

mutual

theorem levels_value : ∀ v : Value, v.toItem.levels = v.levels
  | .nat _ => rfl
  | .int i => levels_int i
  | .float _ => rfl
  | .text _ => rfl
  | .bool _ => rfl
  | .uuid _ => rfl
  | .timestamp ms => levels_int ms
  | .vector items => congrArg (· + 1) (levels_values items)
  | .scores s => levels_ofFields s.fields

theorem levels_values : ∀ vs : List Value, levelsOf (Value.toItems vs) = Value.levelsOf vs
  | [] => rfl
  | v :: vs => congrArg₂ max (levels_value v) (levels_values vs)

end

theorem levels_certificate (c : Certificate) : c.toItem.levels = 3 := by
  rw [Certificate.toItem, levels, levels_ofFields]
  rfl

theorem levels_typedValue (v : TypedValue) (c : Certificate) :
    (v.toItem c).levels = v.levels := by
  obtain ⟨ty, value, fits⟩ := v
  have hshaped := Ty.shaped_of_isHolds fits
  have hc := levels_certificate c
  have henvelope : (ofFields
      [("type", .text ty.render), ("value", value.toItem), ("proof", c.toItem)]).levels =
      max value.levels 3 + 1 := by
    have hpos := value.toItem.levels_pos
    rw [levels_value] at hpos
    simp only [levels_ofFields, List.foldr_cons, List.foldr_nil, levels_value, hc, levels]
    omega
  cases hshaped with
  | boundedNat lo hi n =>
    show (tag _ (ofFields _)).levels = 5
    simp [levels, levels_ofFields, hc]
  | nonEmptyString s =>
    show (tag _ (ofFields _)).levels = 5
    simp [levels, levels_ofFields, hc]
  | confidence x =>
    show (tag _ (ofFields _)).levels = 5
    simp [levels, levels_ofFields, hc]
  | promptScores s =>
    show (tag _ (ofFields _)).levels = 5
    simp [levels, levels_ofFields, hc, Scores.fields, Scores.entries, Scores.names, Scores.values]
  | _ => exact henvelope

theorem levels_predicate (p : Predicate) : p.toItem.levels = p.levels := by
  induction p with
  | column c => rw [Predicate.toItem, levels_ofFields]; rfl
  | literal v =>
    have hpos := (v.toItem (Certificate.ofValue v)).levels_pos
    rw [levels_typedValue] at hpos
    simp only [Predicate.toItem, levels_ofFields, List.foldr_cons, List.foldr_nil, levels,
      levels_typedValue, Predicate.levels]
    omega
  | unary op p ih =>
    have hpos := p.toItem.levels_pos
    simp only [Predicate.toItem, levels_ofFields, List.foldr_cons, List.foldr_nil, levels,
      Predicate.levels, ← ih]
    omega
  | binary op l r ihl ihr =>
    have hpos := l.toItem.levels_pos
    simp only [Predicate.toItem, levels_ofFields, List.foldr_cons, List.foldr_nil, levels,
      Predicate.levels, ← ihl, ← ihr]
    omega
  | isNull p negated ih =>
    have hpos := p.toItem.levels_pos
    simp only [Predicate.toItem, levels_ofFields, List.foldr_cons, List.foldr_nil, levels,
      Predicate.levels, ← ih]
    omega

theorem levelsOf_values_le {vs : List Value} {d : Nat} :
    Value.levelsOf vs ≤ d ↔ ∀ v ∈ vs, v.levels ≤ d := by
  induction vs with
  | nil => simp [Value.levelsOf]
  | cons v vs ih => rw [Value.levelsOf, Nat.max_le, ih, List.forall_mem_cons]

theorem levels_of_shaped {ty : Ty} {v : Value} (h : ty.Shaped v) : v.levels ≤ ty.layers + 2 := by
  induction h with
  | vector size h ih =>
    have hitems := levelsOf_values_le.mpr ih
    rw [Value.levels, Ty.layers]
    omega
  | _ => exact Nat.le_add_left _ _

/-- Values of few layers have few levels. -/
theorem levels_le_layers (v : TypedValue) : v.levels ≤ v.ty.layers + 5 := by
  obtain ⟨ty, value, fits⟩ := v
  have hvalue := levels_of_shaped (Ty.shaped_of_isHolds fits)
  cases ty <;> simp only [TypedValue.levels] <;> omega

theorem levels_array_le {α : Type} {as : List α} {f : α → Item} {d : Nat}
    (h : ∀ a ∈ as, (f a).levels ≤ d) : (array (as.map f)).levels ≤ d + 1 :=
  Nat.succ_le_succ (levelsOf_le.mpr (List.forall_mem_map.mpr h))

theorem levels_optional_le {o : Option Item} {d : Nat} (hd : 0 < d) :
    (optional o).levels ≤ d ↔ ∀ i ∈ o, i.levels ≤ d := by
  cases o with
  | none => simpa [optional, levels] using Nat.succ_le_of_lt hd
  | some i => simp [optional]

end Item

/-- Of a sound node, the condition alone can nest too deep. -/
theorem Node.levels_le_iff {n : Node} (hn : n.Sound) :
    n.toItem.levels ≤ Cbor.maxDepth ↔ ∀ p ∈ n.predicate, p.levels < Cbor.maxDepth := by
  -- The values of cells are of columns' types, which have few layers; all else is flat.
  have hcells : (Item.array (n.cells.map Cell.toItem)).levels ≤ 127 := by
    refine Item.levels_array_le fun c hc => ?_
    have hlayers := (hn.cells c hc).1
    have hlevels := Item.levels_le_layers c.value
    simp only [Cell.toItem, Item.levels_ofFields, List.foldr_cons, List.foldr_nil, Item.levels,
      Item.levels_typedValue]
    unfold defaultDepth at hlayers
    omega
  have hprojection : (Item.array (n.projection.map ColumnRef.toItem)).levels ≤ 127 :=
    Item.levels_array_le fun c _ => by simp [ColumnRef.toItem, Item.levels_ofFields, Item.levels]
  have horder : (Item.array (n.orderBy.map SortKey.toItem)).levels ≤ 127 :=
    Item.levels_array_le fun k _ => by simp [SortKey.toItem, Item.levels_ofFields, Item.levels]
  have hlimit : (Item.optional (n.limit.map .unsigned)).levels ≤ 127 := by
    cases n.limit <;> simp [Item.optional, Item.levels]
  have hform : (Item.optional (n.normalForm.map fun f => .text f.name)).levels ≤ 127 := by
    cases n.normalForm <;> simp [Item.optional, Item.levels]
  have hprovenance : (Item.optional (n.provenance.map Provenance.toItem)).levels ≤ 127 := by
    cases n.provenance <;>
      simp [Item.optional, Item.levels, Provenance.toItem, Item.levels_ofFields]
  have haccess : n.access.toItem.levels ≤ 127 := by
    have hcategories : (Item.array (n.access.categories.map fun c => .text c.name)).levels ≤ 2 :=
      Item.levels_array_le fun c _ => Nat.le_refl 1
    have hrole : (Item.optional (n.access.role.map .text)).levels ≤ 2 := by
      cases n.access.role <;> simp [Item.optional, Item.levels]
    simp only [Access.toItem, Item.levels_ofFields, List.foldr_cons, List.foldr_nil]
    simp only [Item.levels] at *
    omega
  have hpredicate : (Item.optional (n.predicate.map Predicate.toItem)).levels ≤ 127 ↔
      ∀ p ∈ n.predicate, p.levels < Cbor.maxDepth := by
    rw [Item.levels_optional_le (by decide)]
    cases n.predicate with
    | none => simp
    | some p => simp [Item.levels_predicate, Cbor.maxDepth, Nat.lt_succ_iff]
  rw [← hpredicate]
  simp only [Node.toItem, Item.levels_ofFields, List.foldr_cons, List.foldr_nil, Cbor.maxDepth]
  simp only [Item.levels] at *
  omega

end Attest
