import Attest.Wire
import Attest.Proofs.Wire.Node

/-!
What is read from the wire was verified.

An item says types, values and certificates as it likes.  A node comes of it only if every value
passed the decision of the type beside it, every certificate is one of its value, and a change
says who made it and why.
-/

namespace Attest

namespace Item

/-- An item holds a value and its type, and the value passed the decision of the type. -/
def Verified (i : Item) (v : TypedValue) : Prop :=
  ∃ ty value fields, i.toParts = .ok (ty, value, fields) ∧ (ty.decide value).isHolds = true ∧
    v.ty = ty ∧ v.value = value

/-- An item is reached through the fields of another. -/
inductive Within (k : Item) : Item → Prop where
  | self : Within k k
  | field {i j : Item} {name : String} (hj : i.field? name = some j) (hk : Within k j) : Within k i

/-- An item of a row holds a verified value, with a certificate of the category of its type and
the fingerprint of the value behind the last mark of the payload. -/
def CertifiesCell (i : Item) (c : Cell) : Prop :=
  (∃ j, i.field? "value" = some j ∧ j.Verified c.value) ∧
    c.certificate.category = c.value.ty.category ∧
    ∃ r, Certificate.FollowsLast Certificate.mark.toList c.certificate.payload.toList r ∧
      Text.trim (String.ofList r) = c.value.fingerprint

/-- An item says who changes something and why, in texts that are not blank. -/
def Attributes (i : Item) (p : Provenance) : Prop :=
  ∃ actor rationale, i.field? "actor_id" = some (text actor) ∧
    i.field? "rationale" = some (text rationale) ∧ Text.isBlank actor = false ∧
    Text.isBlank rationale = false ∧ p.actor = actor ∧ p.rationale = rationale

/-- What stands behind the values and the provenance of a node that is read from an item. -/
structure Attests (i : Item) (n : Node) : Prop where
  kind : i.field? "kind" = some (text n.kind.name)
  cells : ∃ rows, i.field? "rows" = some (array rows) ∧ List.Forall₂ CertifiesCell rows n.cells
  literals : ∀ v ∈ n.literals, ∃ k : Item, k.Within i ∧ k.Verified v
  change : n.kind.isMutation = true →
    ∃ j p, i.field? "provenance" = some j ∧ n.provenance = some p ∧ j.Attributes p
  query : n.kind = .select → n.provenance = none

theorem verified_of_toTypedValue {i : Item} {v : TypedValue} {c : Certificate}
    (h : i.toTypedValue = .ok (v, c)) : i.Verified v := by
  obtain ⟨fields, -, hparts, -⟩ := toTypedValue_eq_ok.mp h
  exact ⟨v.ty, v.value, fields, hparts, v.fits, rfl, rfl⟩

theorem certifiesCell_of_toCell {i : Item} {c : Cell} (h : i.toCell = .ok c) :
    i.CertifiesCell c := by
  obtain ⟨⟨j, hj, hv⟩, -, -⟩ := fields_of_toCell h
  obtain ⟨-, -, -, -, -, hmatch⟩ := toTypedValue_eq_ok.mp hv
  obtain ⟨hcategory, hrecorded⟩ := Certificate.mismatch?_eq_none_iff.mp hmatch
  exact ⟨⟨j, hj, verified_of_toTypedValue hv⟩, hcategory,
    Certificate.recorded?_eq_some_iff.mp hrecorded⟩

/-- Every value of a condition was verified, however deep it stands. -/
theorem Says.verified {i : Item} {p : Predicate} (h : Says i p) :
    ∀ v ∈ p.literals, ∃ k : Item, k.Within i ∧ k.Verified v := by
  induction h with
  | column => simp [Predicate.literals]
  | literal hop hj hv =>
    intro w hw
    rw [List.mem_singleton.mp hw]
    exact ⟨_, .field hj .self, verified_of_toTypedValue hv⟩
  | isNull hop hj hp hn ih =>
    intro v hv
    obtain ⟨k, hk, hverified⟩ := ih v hv
    exact ⟨k, .field hj hk, hverified⟩
  | unary hop hright hj hp ih =>
    intro v hv
    obtain ⟨k, hk, hverified⟩ := ih v hv
    exact ⟨k, .field hj hk, hverified⟩
  | binary hop hj hk hl hr ihl ihr =>
    intro v hv
    rcases List.mem_append.mp hv with hv | hv
    · obtain ⟨k, hk, hverified⟩ := ihl v hv
      exact ⟨k, .field hj hk, hverified⟩
    · obtain ⟨k', hk', hverified⟩ := ihr v hv
      exact ⟨k', .field hk hk', hverified⟩

theorem attributes_of_toProvenance {i : Item} {p : Provenance} (h : i.toProvenance = .ok p) :
    i.Attributes p := by
  unfold toProvenance at h
  obtain ⟨time, -, h⟩ := Outcome.bind_eq_ok.mp h
  obtain ⟨actor, hactor, h⟩ := Outcome.bind_eq_ok.mp h
  obtain ⟨rationale, hrationale, h⟩ := Outcome.bind_eq_ok.mp h
  unfold Provenance.make at h
  by_cases ha : Text.isBlank actor = true
  · rw [dif_pos ha] at h
    cases h
  · by_cases hr : Text.isBlank rationale = true
    · rw [dif_neg ha, dif_pos hr] at h
      cases h
    · rw [dif_neg ha, dif_neg hr] at h
      cases h
      exact ⟨actor, rationale, textField_eq_ok.mp hactor, textField_eq_ok.mp hrationale,
        by simpa using ha, by simpa using hr, rfl, rfl⟩

theorem field?_of_present? {i j : Item} {name : String} (h : i.present? name = some j) :
    i.field? name = some j := (Option.filter_eq_some_iff.mp h).1

theorem verified_of_saysNode {i : Item} {n : Node} (h : i.SaysNode n) :
    ∀ v ∈ n.literals, ∃ k : Item, k.Within i ∧ k.Verified v := by
  have hpredicate := h.predicate
  unfold Node.literals
  cases hp : n.predicate with
  | none => simp
  | some p =>
    rw [hp] at hpredicate
    obtain ⟨j, hj, hsays⟩ := exists_of_rel hpredicate
    intro v hv
    obtain ⟨k, hk, hverified⟩ := Says.verified hsays v hv
    exact ⟨k, .field (field?_of_present? hj) hk, hverified⟩

theorem attributes_of_saysNode {i : Item} {n : Node} (h : i.SaysNode n)
    (hk : n.kind.isMutation = true) :
    ∃ j p, i.field? "provenance" = some j ∧ n.provenance = some p ∧ j.Attributes p := by
  have hprovenance := h.provenance
  obtain ⟨p, hp⟩ := Option.isSome_iff_exists.mp (h.attributed.trans hk)
  rw [hp] at hprovenance
  obtain ⟨j, hj, hread⟩ := exists_of_rel hprovenance
  exact ⟨j, p, field?_of_present? hj, hp, attributes_of_toProvenance hread⟩

theorem attests_of_saysNode {i : Item} {n : Node} (h : i.SaysNode n) : i.Attests n where
  kind := h.kind
  cells := by
    obtain ⟨rows, hrows, hcells⟩ := h.cells
    exact ⟨rows, hrows, hcells.imp fun _ _ => certifiesCell_of_toCell⟩
  literals := verified_of_saysNode h
  change := attributes_of_saysNode h
  query := by
    intro hk
    have hattributed := h.attributed
    rw [hk, StatementKind.isMutation] at hattributed
    exact Option.isNone_iff_eq_none.mp (Option.isSome_eq_false_iff.mp hattributed)

end Item

/-- A node that is read from an item, and so from bytes in any format, holds verified values only,
and says where it comes from exactly if it changes anything. -/
theorem Format.readNode_attests :
    (∀ (i : Item) (n : Node), i.toNode = .ok n → i.Attests n) ∧
      ∀ (f : Format) (bs : List UInt8) (n : Node), f.readNode bs = .ok n →
        ∃ i, f.read bs = .ok i ∧ i.Attests n := by
  have hitem : ∀ (i : Item) (n : Node), i.toNode = .ok n → i.Attests n :=
    fun i n h => Item.attests_of_saysNode (Item.toNode_eq_ok.mp h)
  refine ⟨hitem, fun f bs n h => ?_⟩
  obtain ⟨i, hi, h⟩ := Outcome.bind_eq_ok.mp h
  exact ⟨i, hi, hitem i n h⟩

/-- An update of a vector where a score has a value, with certificates by definition. -/
def Node.reviewed : Node :=
  let scores : TypedValue := ⟨.vector .confidence 2, .vector [.float .one, .float .zero], rfl⟩
  { kind := .update
    table := "t"
    cells := [⟨"s", scores, Certificate.ofValue scores, .explicit⟩]
    projection := []
    predicate := some (.unary .not (.isNull (.literal ⟨.boundedNat 1 9, .nat 7, rfl⟩) true))
    orderBy := []
    limit := none
    normalForm := none
    provenance := some ⟨"clerk", 1, "a second look", rfl, rfl⟩
    access := ⟨some "r", .explicit, [.vector]⟩ }

theorem Node.sound_reviewed : reviewed.Sound where
  cells := by
    intro c hc
    rw [List.mem_singleton.mp hc]
    exact ⟨by decide, Certificate.mismatch?_ofValue _⟩
  projection := by simp [reviewed]
  columns := by
    intro p hp
    cases hp
    simp [Predicate.columns]
  attributed := rfl
  categories := by decide

theorem Node.reviewed_attests :
    reviewed.toItem.toNode = .ok reviewed ∧ reviewed.toItem.Attests reviewed := by
  have hlayers : ∀ v ∈ reviewed.literals, v.ty.layers < defaultDepth := by
    intro v hv
    rw [List.mem_singleton.mp hv]
    decide
  have h := (toNode_toItem_iff sound_reviewed).mpr ⟨rfl, hlayers⟩
  exact ⟨h, Format.readNode_attests.1 _ _ h⟩

end Attest
