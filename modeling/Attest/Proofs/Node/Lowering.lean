import Attest.Node.Lowering
import Attest.Proofs.Checker
import Attest.Proofs.Wire.Node

/-!
Lowered nodes.

Lowering gives every value the certificate that was minted for it, from whatever went before, and
names no column but those of the statement.
-/

namespace Attest

/-- Caches as they come to be: empty at first, and then whatever lowering or clearing leaves. -/
inductive CertificateCache.Reachable : CertificateCache → Prop where
  | empty (capacity : Nat) : Reachable { capacity }
  | lower {c : CertificateCache} (h : Reachable c) (s : TypedStatement) (p : Option Provenance) :
      Reachable (Node.lower c s p).2
  | clear {c : CertificateCache} (h : Reachable c) : Reachable c.clear

namespace Node

/-- The cell of an assignment with the certificate that is minted for it. -/
def mintedCell (a : TypedAssignment) : Cell :=
  ⟨a.column, a.value, Certificate.mint a.method a.evidence a.value, a.dialect⟩

theorem cellOf_faithful {cache : CertificateCache} (hc : cache.Faithful) (a : TypedAssignment) :
    (cellOf cache a).1 = mintedCell a ∧ (cellOf cache a).2.Faithful := by
  obtain ⟨hminted, hfaithful⟩ := CertificateCache.getOrMint_mint hc a.method a.evidence a.value
  refine ⟨?_, hfaithful⟩
  unfold cellOf mintedCell
  dsimp only
  rw [hminted]

theorem cellsOf_faithful {cache : CertificateCache} (hc : cache.Faithful)
    (as : List TypedAssignment) :
    (cellsOf cache as).1 = as.map mintedCell ∧ (cellsOf cache as).2.Faithful := by
  induction as generalizing cache with
  | nil => exact ⟨rfl, hc⟩
  | cons a as ih =>
    obtain ⟨hcell, hfaithful⟩ := cellOf_faithful hc a
    obtain ⟨hcells, hrest⟩ := ih hfaithful
    refine ⟨?_, hrest⟩
    show (cellOf cache a).1 :: (cellsOf (cellOf cache a).2 as).1 = _
    rw [hcell, hcells, List.map_cons]

theorem lower_faithful {cache : CertificateCache} (hc : cache.Faithful) (s : TypedStatement)
    (p : Option Provenance) : (lower cache s p).2.Faithful := by
  unfold lower
  split
  · exact hc
  · dsimp only
    split
    · exact (cellsOf_faithful hc s.assignments).2
    · exact (cellsOf_faithful hc s.assignments).2

/-- What a statement is lowered to, whatever the cache holds. -/
theorem lower_eq_assemble {cache : CertificateCache} {s : TypedStatement} {p : Option Provenance}
    {n : Node} (h : (lower cache s p).1 = .ok n) :
    ∃ provenance predicate, provenanceOf s p = .ok provenance ∧ predicateOf s = .ok predicate ∧
      n = assemble s provenance (cellsOf cache s.assignments).1 predicate := by
  unfold lower at h
  split at h
  · cases h
  · next provenance hprovenance =>
    dsimp only at h
    split at h
    · cases h
    · next predicate hpredicate =>
      cases h
      exact ⟨provenance, predicate, hprovenance, hpredicate, rfl⟩

theorem lower_eq_ok {cache : CertificateCache} (hc : cache.Faithful) {s : TypedStatement}
    {p : Option Provenance} {n : Node} (h : (lower cache s p).1 = .ok n) :
    ∃ provenance predicate, provenanceOf s p = .ok provenance ∧ predicateOf s = .ok predicate ∧
      n = assemble s provenance (s.assignments.map mintedCell) predicate := by
  rw [← (cellsOf_faithful hc s.assignments).1]
  exact lower_eq_assemble h

theorem columns_cellsOf (cache : CertificateCache) (as : List TypedAssignment) :
    (cellsOf cache as).1.map (·.column) = as.map (·.column) := by
  induction as generalizing cache with
  | nil => rfl
  | cons a as ih => exact congrArg (a.column :: ·) (ih (cellOf cache a).2)

end Node

theorem CertificateCache.Reachable.faithful {c : CertificateCache} (h : c.Reachable) :
    c.Faithful := by
  induction h with
  | empty capacity => exact faithful_empty capacity
  | lower _ s p ih => exact Node.lower_faithful ih s p
  | clear _ _ => exact faithful_empty _

namespace Predicate

theorem columns_ofTyped {e : TypedExpr} {p : Predicate} (h : ofTyped e = .ok p) :
    p.columns = e.columns := by
  induction e generalizing p with
  | column c =>
    cases h
    rfl
  | literal v ty =>
    obtain ⟨w, -, rfl⟩ := Outcome.map_eq_ok.mp h
    rfl
  | unary op e ty ih =>
    obtain ⟨q, hq, rfl⟩ := Outcome.map_eq_ok.mp h
    rw [columns, ih hq]
    rfl
  | binary op l r ty ihl ihr =>
    obtain ⟨p', hp, h⟩ := Outcome.bind_eq_ok.mp h
    obtain ⟨q, hq, h⟩ := Outcome.bind_eq_ok.mp h
    cases h
    rw [columns, ihl hp, ihr hq]
    rfl
  | isNull e negated ih =>
    obtain ⟨q, hq, rfl⟩ := Outcome.map_eq_ok.mp h
    rw [columns, ih hq]
    rfl

end Predicate

namespace Node

theorem predicateOf_eq_ok {s : TypedStatement} {q : Option Predicate} :
    predicateOf s = .ok q ↔ s.predicate = none ∧ q = none ∨
      ∃ e p, s.predicate = some e ∧ q = some p ∧ Predicate.ofTyped e = .ok p := by
  unfold predicateOf
  cases s.predicate with
  | none => simp [eq_comm]
  | some e => cases h : Predicate.ofTyped e <;> simp [h, eq_comm]

/-- The condition names the columns of its source. -/
theorem columns_predicateOf {s : TypedStatement} {q : Option Predicate}
    (h : predicateOf s = .ok q) :
    (q.map Predicate.columns).getD [] = (s.predicate.map TypedExpr.columns).getD [] := by
  rcases predicateOf_eq_ok.mp h with ⟨hs, rfl⟩ | ⟨e, p, hs, rfl, hp⟩
  · rw [hs]
    rfl
  · rw [hs]
    exact Predicate.columns_ofTyped hp

theorem mem_of_predicateOf {s : Schema} {t : TypedStatement} (ht : Checker.About s t)
    {q : Option Predicate} (h : predicateOf t = .ok q) :
    ∀ c ∈ (q.map Predicate.columns).getD [], c ∈ Checker.allColumns s := by
  intro c hc
  rcases predicateOf_eq_ok.mp h with ⟨-, rfl⟩ | ⟨e, p, he, rfl, hp⟩
  · cases hc
  · exact ht.predicate e he c (Predicate.columns_ofTyped hp ▸ hc)

theorem isSome_of_provenanceOf {s : TypedStatement} {p provenance : Option Provenance}
    (h : provenanceOf s p = .ok provenance) : provenance.isSome = s.kind.isMutation := by
  unfold provenanceOf at h
  split at h
  · next hk =>
    cases h
    simpa using hk.symm
  · next hk =>
    split at h
    · cases h
      simpa using hk
    · cases h

/-- With a record of a change, all that can stop a statement is its condition. -/
theorem lower_of_provenanceOf {t : TypedStatement} {p provenance : Option Provenance}
    (h : provenanceOf t p = .ok provenance) (cache : CertificateCache) :
    (lower cache t p).1 =
      (predicateOf t).map (assemble t provenance (cellsOf cache t.assignments).1) := by
  unfold lower
  rw [h]
  dsimp only
  cases predicateOf t <;> rfl

theorem provenanceOf_of_isSome {t : TypedStatement} {p : Option Provenance}
    (h : t.kind.isMutation = true → p.isSome = true) :
    ∃ provenance, provenanceOf t p = .ok provenance := by
  unfold provenanceOf
  by_cases hk : t.kind.isMutation = true
  · obtain ⟨record, rfl⟩ := Option.isSome_iff_exists.mp (h hk)
    exact ⟨some record, by simp [hk]⟩
  · exact ⟨none, by simp [hk]⟩

theorem isVerified_of_lower {cache : CertificateCache} (hc : cache.Faithful) {s : TypedStatement}
    {p : Option Provenance} {n : Node} (h : (lower cache s p).1 = .ok n) :
    n.isVerified = true := by
  obtain ⟨provenance, predicate, -, -, rfl⟩ := lower_eq_ok hc h
  refine List.all_eq_true.mpr fun c hmem => ?_
  obtain ⟨a, -, rfl⟩ := List.mem_map.mp hmem
  rfl

/-- A statement about columns of types that the wire can hold is lowered to a sound node. -/
theorem sound_of_lower {s : Schema} {t : TypedStatement} (ht : Checker.About s t)
    (hs : ∀ c ∈ s.columns, c.ty.BoundsFinite ∧ c.ty.layers < defaultDepth)
    {cache : CertificateCache} (hc : cache.Faithful) {p : Option Provenance} {n : Node}
    (h : (lower cache t p).1 = .ok n) (role : String) : (n.bindRole role).Sound := by
  have hcolumns : ∀ c ∈ Checker.allColumns s, c.ty.BoundsFinite ∧ c.ty.layers < defaultDepth := by
    intro c hmem
    obtain ⟨d, hd, rfl⟩ := List.mem_map.mp hmem
    exact hs d hd
  obtain ⟨provenance, predicate, hprovenance, hpredicate, rfl⟩ := lower_eq_ok hc h
  refine ⟨fun c hmem => ?_, fun c hmem => hcolumns c (ht.projection c hmem), fun q hq c hmem => ?_,
    isSome_of_provenanceOf hprovenance, Category.setOf_setOf _⟩
  · obtain ⟨a, ha, rfl⟩ := List.mem_map.mp hmem
    obtain ⟨d, hd, -, htype⟩ := ht.assignments a ha
    refine ⟨?_, Certificate.mismatch?_mint _ _ _⟩
    -- A value is of its column's type, or of one that differs from it in bounds only.
    rcases htype with heq | hsame
    · exact heq ▸ (hs d hd).2
    · exact Ty.layers_eq_of_same hsame ▸ (hs d hd).2
  · cases hq
    exact hcolumns c (mem_of_predicateOf ht hpredicate c hmem)

end Node
end Attest
