import Attest.Proofs.Node.Lowering
import Attest.Proofs.Wire.Regular

/-!
Lowered nodes read back from the wire.

Conditions may be of any size.  A type is written as a text, and the wire holds only types whose
text can be read: they have fewer layers than the parser's limit.  For columns this is given.  It
has to be asked of the values in a condition as well, since the checker gives a literal any type that
it infers.
-/

namespace Attest
namespace Node

/-- A checked statement over columns that the wire can hold, lowered with any cache and bound to any
role, reads back from its item exactly if the wire can hold the values of its condition too.  With
finite floats its item reads back from a document. -/
theorem lowered_round_trip {s : Schema} {v : Verifier} {st : Statement} {t : TypedStatement}
    {cache : CertificateCache} {p : Option Provenance} {n : Node}
    (hs : ∀ c ∈ s.columns, c.ty.BoundsFinite ∧ c.ty.layers < defaultDepth)
    (ht : Checker.check s v st = .ok t) (hc : cache.Reachable)
    (hn : (lower cache t p).1 = .ok n) (role : String) :
    (∀ m, (n.bindRole role).toItem.toNode = .ok m ↔
        m = n.bindRole role ∧ ∀ w ∈ n.literals, w.ty.layers < defaultDepth) ∧
      (n.Floats (fun x => x.isFinite = true) →
        ((n.bindRole role).toItem.toJson >>= Item.ofJson) = .ok (n.bindRole role).toItem) := by
  have hsound := sound_of_lower (Checker.about_of_check ht) hs hc.faithful hn role
  refine ⟨fun m => toNode_toItem_iff hsound, fun hfinite => ?_⟩
  exact Item.ofJson_toJson (Item.regular_node (n := n.bindRole role) hfinite)

end Node

def Schema.natural : Schema :=
  { name := "t", columns := [⟨"a", .nat, false, false⟩], valid := rfl }

/-- A number in so many vectors of one item. -/
def Literal.nested : Nat → Literal
  | 0 => .nat 1
  | k + 1 => .vector [nested k]

def Value.nested : Nat → Value
  | 0 => .nat 1
  | k + 1 => .vector [nested k]

def Ty.nested : Nat → Ty
  | 0 => .nat
  | k + 1 => .vector (nested k) 1

theorem Ty.fault?_nested (k : Nat) : (nested k).fault? = none := by
  induction k with
  | zero => rfl
  | succ k ih => rw [nested, fault?, ih]

theorem Ty.decide_nested (k : Nat) : ((nested k).decide (.nested k)).isHolds = true := by
  induction k with
  | zero => rfl
  | succ k ih =>
    have hfault := fault?_nested (k + 1)
    cases hk : (nested k).decide (.nested k) with
    | holds e =>
      rw [nested, Value.nested, decide]
      rw [nested] at hfault
      rw [hfault]
      simp only [Decision.items, hk]
      cases (nested k).isRefined <;> rfl
    | fails why =>
      rw [hk] at ih
      cases ih
    | undecidable why =>
      rw [hk] at ih
      cases ih

theorem Literal.infer_nested (k : Nat) : (nested k).infer = .ok (.nested k) := by
  induction k with
  | zero => rfl
  | succ k ih =>
    rw [nested, infer, ih]
    rfl

theorem Literal.coerce_nested (k : Nat) : (nested k).coerce (.nested k) = .ok (.nested k) := by
  induction k with
  | zero => rfl
  | succ k ih =>
    rw [nested, Ty.nested, coerce, List.mapM_cons, ih]
    rfl

theorem Value.floats_nested {P : Double → Prop} (k : Nat) : (nested k).Floats P := by
  induction k with
  | zero => exact .nat 1
  | succ k ih =>
    refine .vector fun v hv => ?_
    rw [List.mem_singleton.mp hv]
    exact ih

/-- The number in its vectors, of the type that is inferred for it. -/
def TypedValue.nested (k : Nat) : TypedValue := ⟨.nested k, .nested k, Ty.decide_nested k⟩

/-- `SELECT * FROM t WHERE [..[1]..] IS NULL` -/
def Statement.asksNested (k : Nat) : Statement :=
  .select ⟨"t", default⟩ .all (some (.isNull (.literal (.nested k) default) false default)) [] none

def TypedStatement.asksNested (k : Nat) : TypedStatement where
  kind := .select
  table := "t"
  projection := [⟨"a", .nat⟩]
  predicate := some (.isNull (.literal (.nested k) (.nested k)) false)

def Node.asksNested (k : Nat) : Node where
  kind := .select
  table := "t"
  cells := []
  projection := [⟨"a", .nat⟩]
  predicate := some (.isNull (.literal (.nested k)) false)
  orderBy := []
  limit := none
  normalForm := none
  provenance := none
  access := ⟨none, .explicit, [.nat]⟩

theorem Checker.check_asksNested (k : Nat) :
    check .natural .interval (.asksNested k) = .ok (.asksNested k) := by
  have hnull : (Literal.nested k).isNull = false := by cases k <;> rfl
  have hliteral : typeLiteral (.nested k) default none =
      .ok (.literal (.nested k) (.nested k)) := by
    simp [typeLiteral, hnull, ownLiteral, Literal.infer_nested, Literal.coerce_nested]
  have hpredicate : typePredicate .natural (.isNull (.literal (.nested k) default) false default) =
      .ok (.isNull (.literal (.nested k) (.nested k)) false) := by
    simp [typePredicate, typeExpr, isConstant, hliteral, TypedExpr.ty]
  have hbody : body .natural .interval (.asksNested k) = .ok (.asksNested k) := by
    unfold Statement.asksNested
    simp only [body, predicate, hpredicate]
    rfl
  have htable : ¬ ((Statement.asksNested k).table.name != Schema.natural.name) = true := by
    show ¬ ("t" != "t") = true
    decide
  rw [check, if_neg htable, hbody]

theorem Node.lower_asksNested (k : Nat) :
    (lower { capacity := 0 } (.asksNested k) none).1 = .ok (asksNested k) := by
  have hmake : TypedValue.make (.nested k) (.nested k) = .ok (.nested k) :=
    TypedValue.make_eq_ok.mpr ⟨rfl, rfl⟩
  have hpredicate : predicateOf (.asksNested k) =
      .ok (some (.isNull (.literal (.nested k)) false)) := by
    unfold predicateOf TypedStatement.asksNested
    simp [Predicate.ofTyped, hmake]
  unfold lower
  rw [hpredicate]
  rfl

namespace Node

theorem lowered_nested_three :
    ((asksNested 3).bindRole "r").toItem.toNode = .ok ((asksNested 3).bindRole "r") ∧
      (((asksNested 3).bindRole "r").toItem.toJson >>= Item.ofJson) =
        .ok ((asksNested 3).bindRole "r").toItem := by
  have hcolumns : ∀ c ∈ Schema.natural.columns, c.ty.BoundsFinite ∧ c.ty.layers < defaultDepth := by
    intro c hc
    rw [List.mem_singleton.mp hc]
    exact ⟨trivial, by decide⟩
  obtain ⟨hitem, hdocument⟩ := lowered_round_trip hcolumns (Checker.check_asksNested 3)
    (.empty 0) (lower_asksNested 3) "r"
  refine ⟨(hitem _).mpr ⟨rfl, ?_⟩, hdocument ⟨by simp [asksNested], ?_⟩⟩
  · intro w hw
    rw [List.mem_singleton.mp hw]
    decide
  · intro w hw
    rw [List.mem_singleton.mp hw]
    exact Value.floats_nested 3

theorem lowered_nested_refused :
    Checker.check .natural .interval (.asksNested 64) = .ok (.asksNested 64) ∧
      (lower { capacity := 0 } (.asksNested 64) none).1 = .ok (asksNested 64) ∧
      ∀ m, ((asksNested 64).bindRole "r").toItem.toNode ≠ .ok m := by
  refine ⟨Checker.check_asksNested 64, lower_asksNested 64, fun m h => ?_⟩
  have hlayers := layers_of_saysNode (Item.toNode_eq_ok.mp h) (.nested 64) List.mem_cons_self
  exact absurd hlayers (by decide)

end Node
end Attest
