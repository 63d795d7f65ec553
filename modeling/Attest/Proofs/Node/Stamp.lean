import Attest.Permission
import Attest.Proofs.Item.Order
import Attest.Proofs.Node.Lowering
import Attest.Wire

/-!
Nodes that differ in the time of their provenance only.

Lowering looks at the clock for nothing else.  Permissions do not see the time, and whether a node
can be written does not depend on it.
-/

namespace Attest

open Outcome (Agree)

namespace Provenance

def stamp (t : UInt64) (p : Provenance) : Provenance := { p with timestamp := t }

theorem agree_make (actor rationale : String) (time time' : UInt64) :
    Agree (fun p q => q = p.stamp time') (make actor time rationale)
      (make actor time' rationale) := by
  unfold make
  split
  · exact .error _
  · split
    · exact .error _
    · exact .ok rfl

end Provenance

/-- Two clocks make a difference in the time of the record only. -/
theorem ProvenanceClause.agree_resolve (clause defaults : ProvenanceClause) (kind : StatementKind)
    (clock clock' : Clock) (now now' : UInt64) :
    Agree (fun p q => ∃ t, q = p.map (Provenance.stamp t))
      (clause.resolve defaults kind clock now).1 (clause.resolve defaults kind clock' now').1 := by
  unfold resolve
  split
  · exact .ok ⟨0, rfl⟩
  · split
    · exact .error _
    · exact .error _
    · next actor rationale _ _ =>
      cases clock.tick now with
      | mk time clock =>
        cases clock'.tick now' with
        | mk time' clock' =>
          have hmake := Provenance.agree_make actor rationale time time'
          dsimp only
          generalize Provenance.make actor time rationale = x at hmake
          generalize Provenance.make actor time' rationale = y at hmake
          cases hmake with
          | ok h => exact .ok ⟨time', congrArg some h⟩
          | error e => exact .error _

namespace Node

def stamp (t : UInt64) (n : Node) : Node :=
  { n with provenance := n.provenance.map (Provenance.stamp t) }

theorem agree_provenanceOf (s : TypedStatement) (t : UInt64) (p : Option Provenance) :
    Agree (fun p q => q = p.map (Provenance.stamp t)) (provenanceOf s p)
      (provenanceOf s (p.map (Provenance.stamp t))) := by
  unfold provenanceOf
  split
  · exact .ok rfl
  · cases p with
    | none => exact .error _
    | some p => exact .ok rfl

/-- What two faithful caches hold makes no difference to the node. -/
theorem agree_lower {cache cache' : CertificateCache} (hc : cache.Faithful) (hc' : cache'.Faithful)
    (s : TypedStatement) (t : UInt64) (p : Option Provenance) :
    Agree (fun n m => m = n.stamp t) (lower cache s p).1
      (lower cache' s (p.map (Provenance.stamp t))).1 := by
  have hprovenance := agree_provenanceOf s t p
  unfold lower
  generalize provenanceOf s p = x at hprovenance
  generalize provenanceOf s (p.map (Provenance.stamp t)) = y at hprovenance
  cases hprovenance with
  | error e => exact .error e
  | ok h =>
    subst h
    have hcells : (cellsOf cache s.assignments).1 = (cellsOf cache' s.assignments).1 := by
      rw [(cellsOf_faithful hc s.assignments).1, (cellsOf_faithful hc' s.assignments).1]
    dsimp only
    split
    · exact .error _
    · rw [hcells]
      exact .ok rfl

end Node

theorem Profile.validate_stamp (p : Profile) (n : Node) (t : UInt64) :
    p.validate (n.stamp t) = p.validate n := rfl

namespace Item

/-- Two items that have documents, or neither for the same reason. -/
def Twin (i j : Item) : Prop := Agree (fun _ _ => True) i.toJson j.toJson

theorem Twin.refl (i : Item) : i.Twin i := Agree.refl (fun _ => trivial) _

theorem agree_toJsonMembers {fields fields' : List (String × Item)}
    (h : List.Forall₂ (fun f g => f.1 = g.1 ∧ f.2.Twin g.2) fields fields')
    (members members' : List (String × Json)) :
    Agree (fun _ _ => True) (toJsonMembers members (fields.map fun f => (text f.1, f.2)))
      (toJsonMembers members' (fields'.map fun f => (text f.1, f.2))) := by
  induction h generalizing members members' with
  | nil => exact .ok trivial
  | @cons f g fields fields' hfg _ ih =>
    obtain ⟨hname, htwin⟩ := hfg
    rw [List.map_cons, List.map_cons, toJsonMembers, toJsonMembers, ← hname]
    exact htwin.bind fun _ => ih _ _

theorem Twin.ofFields {fields fields' : List (String × Item)}
    (h : List.Forall₂ (fun f g => f.1 = g.1 ∧ f.2.Twin g.2) fields fields') :
    (ofFields fields).Twin (ofFields fields') := by
  have hsort : List.Forall₂ (fun f g => f.1 = g.1 ∧ f.2.Twin g.2)
      (Sorting.sort fieldLess fields) (Sorting.sort fieldLess fields') := by
    refine Sorting.sort_forall₂ ?_ h
    intro f f' g g' hf hg
    unfold fieldLess
    rw [hf.1, hg.1]
  unfold Twin
  rw [ofFields_eq, ofFields_eq, toJson, toJson]
  exact (agree_toJsonMembers hsort [] []).map fun _ => trivial

theorem twin_provenance (t : UInt64) (p : Provenance) : p.toItem.Twin (p.stamp t).toItem :=
  .ofFields (.cons ⟨rfl, .refl _⟩ (.cons ⟨rfl, .ok trivial⟩ (.cons ⟨rfl, .refl _⟩ .nil)))

theorem twin_node (t : UInt64) (n : Node) : n.toItem.Twin (n.stamp t).toItem := by
  have hprovenance : (optional (n.provenance.map Provenance.toItem)).Twin
      (optional ((n.stamp t).provenance.map Provenance.toItem)) := by
    unfold Node.stamp
    cases n.provenance with
    | none => exact .refl _
    | some p => exact twin_provenance t p
  refine .ofFields ?_
  iterate 8 refine .cons ⟨rfl, .refl _⟩ ?_
  exact .cons ⟨rfl, hprovenance⟩ (.cons ⟨rfl, .refl _⟩ .nil)

end Item

namespace Format

theorem agree_write (f : Format) {i j : Item} (h : i.Twin j) :
    Agree (fun e e' => e'.warnings = e.warnings) (f.write i) (f.write j) := by
  cases f with
  | cbor => exact .ok rfl
  | packed => exact .ok rfl
  | json =>
    have htext : Agree (fun _ _ => True) i.toDocument j.toDocument := h.map fun _ => trivial
    exact htext.map fun _ => rfl
  | sql => exact .error _

/-- A node is written at any time or never, and with the same warnings. -/
theorem agree_writeNode (f : Format) (t : UInt64) (n : Node) :
    Agree (fun e e' => e'.warnings = e.warnings) (f.writeNode n) (f.writeNode (n.stamp t)) := by
  unfold writeNode
  split
  · have hwarnings : Sql.warnings (n.stamp t) = Sql.warnings n := by
      unfold Sql.warnings Node.stamp
      cases n.provenance <;> rfl
    exact .ok hwarnings
  · exact f.agree_write (Item.twin_node t n)

end Format
end Attest
