import Attest.Proofs.Item.Document
import Attest.Proofs.Wire.Node

/-!
The items of nodes are regular.
-/

namespace Attest

/-- Every float in a value has a property. -/
inductive Value.Floats (P : Double → Prop) : Value → Prop where
  | nat (n : UInt64) : Floats P (.nat n)
  | int (i : Int64) : Floats P (.int i)
  | float {x : Double} (h : P x) : Floats P (.float x)
  | text (s : String) : Floats P (.text s)
  | bool (b : Bool) : Floats P (.bool b)
  | uuid (u : Uuid) : Floats P (.uuid u)
  | timestamp (ms : Int64) : Floats P (.timestamp ms)
  | vector {items : List Value} (h : ∀ v ∈ items, Floats P v) : Floats P (.vector items)
  | scores (s : Scores) : Floats P (.scores s)

theorem Value.floats_of_shaped {ty : Ty} {v : Value} (h : ty.Shaped v) :
    v.Floats fun _ => True := by
  induction h with
  | vector size h ih => exact .vector ih
  | float x => exact .float trivial
  | boundedFloat lo hi x => exact .float trivial
  | confidence x => exact .float trivial
  | _ => constructor

def Node.Floats (P : Double → Prop) (n : Node) : Prop :=
  (∀ c ∈ n.cells, c.value.value.Floats P) ∧ ∀ v ∈ n.literals, v.value.Floats P

namespace Item

variable {P : Double → Prop}

theorem regular_scores (s : Scores) : Regular P (ofFields s.fields) := by
  refine regular_ofFields ?_ ?_ ?_
  · simp [Scores.fields, Scores.entries, Scores.names, Scores.values]
  · simp [Scores.fields, Scores.entries, Scores.names, Scores.values, tagMember]
  · exact ⟨.unsigned _, .unsigned _, .unsigned _, .unsigned _, .unsigned _⟩

theorem regular_value {v : Value} (h : v.Floats P) : Regular P v.toItem := by
  induction h with
  | nat n => exact .unsigned n
  | int i => exact .int i
  | float h => exact .float h
  | text s => exact .text s
  | bool b => exact .bool b
  | uuid u => exact .text _
  | timestamp ms => exact .int ms
  | scores s => exact regular_scores s
  | vector h ih =>
    rw [Value.toItem, toItems_eq_map]
    refine .array fun i hi => ?_
    obtain ⟨v, hv, rfl⟩ := List.mem_map.mp hi
    exact ih v hv

theorem regular_certificate (c : Certificate) : Regular P c.toItem :=
  regular_tag Tag.proof (by simp) (by simp [tagMember]) ⟨.text _, .text _, .text _, .bool _⟩

theorem regular_typedValue {v : TypedValue} (h : v.value.Floats P) (c : Certificate) :
    Regular P (v.toItem c) := by
  obtain ⟨ty, value, fits⟩ := v
  have hshaped := Ty.shaped_of_isHolds fits
  have hvalue : Regular P value.toItem := regular_value h
  have hc : Regular P c.toItem := regular_certificate c
  have henvelope : Regular P (ofFields
      [("type", .text ty.render), ("value", value.toItem), ("proof", c.toItem)]) :=
    regular_ofFields (by simp) (by simp [tagMember]) ⟨.text _, hvalue, hc⟩
  cases hshaped with
  | boundedNat lo hi n =>
    exact regular_tag Tag.boundedNat (by simp) (by simp [tagMember])
      ⟨.unsigned lo, .unsigned hi, hvalue, hc⟩
  | nonEmptyString s =>
    exact regular_tag Tag.nonEmptyString (by simp) (by simp [tagMember]) ⟨hvalue, hc⟩
  | confidence x =>
    exact regular_tag Tag.confidence (by simp) (by simp [tagMember]) ⟨hvalue, hc⟩
  | promptScores s =>
    refine regular_tag Tag.promptScores ?_ ?_ ?_
    · simp [Scores.fields, Scores.entries, Scores.names, Scores.values]
    · simp [Scores.fields, Scores.entries, Scores.names, Scores.values, tagMember]
    · exact ⟨.unsigned _, .unsigned _, .unsigned _, .unsigned _, .unsigned _, hc⟩
  | _ => exact henvelope

theorem regular_predicate {p : Predicate} (h : ∀ v ∈ p.literals, v.value.Floats P) :
    Regular P p.toItem := by
  induction p with
  | column c =>
    exact regular_ofFields (by simp) (by simp [tagMember]) ⟨.text _, .text _, .text _⟩
  | literal v =>
    exact regular_ofFields (by simp) (by simp [tagMember])
      ⟨.text _, regular_typedValue (h v List.mem_cons_self) _⟩
  | unary op p ih =>
    exact regular_ofFields (by simp) (by simp [tagMember]) ⟨.text _, ih h⟩
  | binary op l r ihl ihr =>
    exact regular_ofFields (by simp) (by simp [tagMember])
      ⟨.text _, ihl fun v hv => h v (List.mem_append_left _ hv),
        ihr fun v hv => h v (List.mem_append_right _ hv)⟩
  | isNull p negated ih =>
    exact regular_ofFields (by simp) (by simp [tagMember]) ⟨.text _, ih h, .bool _⟩

theorem regular_map {α : Type} {as : List α} {f : α → Item} (h : ∀ a ∈ as, Regular P (f a)) :
    Regular P (array (as.map f)) := by
  refine .array fun i hi => ?_
  obtain ⟨a, ha, rfl⟩ := List.mem_map.mp hi
  exact h a ha

theorem regular_cell {c : Cell} (h : c.value.value.Floats P) : Regular P c.toItem :=
  regular_ofFields (by simp) (by simp [tagMember]) ⟨.text _, regular_typedValue h _, .text _⟩

theorem regular_column (c : ColumnRef) : Regular P c.toItem :=
  regular_ofFields (by simp) (by simp [tagMember]) ⟨.text _, .text _⟩

theorem regular_sortKey (k : SortKey) : Regular P k.toItem :=
  regular_ofFields (by simp) (by simp [tagMember]) ⟨.text _, .text _⟩

theorem regular_provenance (p : Provenance) : Regular P p.toItem :=
  regular_ofFields (by simp) (by simp [tagMember]) ⟨.text _, .unsigned _, .text _⟩

theorem regular_access (a : Access) : Regular P a.toItem := by
  refine regular_ofFields (by simp) (by simp [tagMember]) ?_
  refine ⟨regular_optional ?_, .text _, regular_map fun c _ => .text _⟩
  simp +contextual [Regular.text]

theorem regular_node {n : Node} (h : n.Floats P) : Regular P n.toItem := by
  refine regular_ofFields n.nodup_fields (by simp [tagMember]) ?_
  refine ⟨.text _, .text _, regular_map fun c hc => regular_cell (h.1 c hc),
    regular_map fun c _ => regular_column c, regular_optional ?_,
    regular_map fun k _ => regular_sortKey k, regular_optional ?_, regular_optional ?_,
    regular_optional ?_, regular_access n.access⟩
  · intro i hi
    obtain ⟨p, hp, rfl⟩ := Option.map_eq_some_iff.mp hi
    have hliterals := h.2
    rw [Node.literals, hp] at hliterals
    exact regular_predicate hliterals
  · simp +contextual [Regular.unsigned]
  · simp +contextual [Regular.text]
  · simp +contextual [regular_provenance]

end Item
end Attest
