import Attest.Wire.Value
import Attest.Proofs.Certificate
import Attest.Proofs.Item.Fields
import Attest.Proofs.Text.Uuid
import Attest.Proofs.Ty.Text

/-!
Values on the wire.

A value of a type with few enough layers, written with a certificate of it, reads back.  With more
layers it is refused.  Whatever is read passed the decision by definition, and its certificate is
one of it.
-/

namespace Attest

namespace Decision

/-- Every item of a vector that is decided holds. -/
theorem isHolds_of_items {f : Value → Decision} {index : Nat} {vs : List Value}
    {es : List String} (h : items f index vs = .ok es) : ∀ v ∈ vs, (f v).isHolds = true := by
  induction vs generalizing index es with
  | nil => simp
  | cons v vs ih =>
    unfold items at h
    split at h
    · cases h
    · cases h
    · next e he =>
      split at h
      · next es' hes =>
        intro w hw
        rcases List.mem_cons.mp hw with rfl | hw
        · rw [he]
          rfl
        · exact ih hes w hw
      · cases h

/-- What stops the decision of a vector does not hold. -/
theorem isHolds_of_items_error {f : Value → Decision} {index : Nat} {vs : List Value}
    {d : Decision} (h : items f index vs = .error d) : d.isHolds = false := by
  induction vs generalizing index with
  | nil => cases h
  | cons v vs ih =>
    unfold items at h
    split at h
    · cases h
      rfl
    · cases h
      rfl
    · split at h
      · cases h
      · next d' hd =>
        cases h
        exact ih hd

end Decision

namespace Ty

/-- A type that a value is of has no fault. -/
theorem fault?_of_isHolds {ty : Ty} {v : Value} (h : (ty.decide v).isHolds = true) :
    ty.fault? = none := by
  unfold decide at h
  split at h
  · cases h
  · next hnone => exact hnone

/-- The form of a value suits a type. -/
inductive Shaped : Ty → Value → Prop where
  | nat (n : UInt64) : Shaped .nat (.nat n)
  | int (i : Int64) : Shaped .int (.int i)
  | string (s : String) : Shaped .string (.text s)
  | bool (b : Bool) : Shaped .bool (.bool b)
  | float (x : Double) : Shaped .float (.float x)
  | uuid (u : Uuid) : Shaped .uuid (.uuid u)
  | timestamp (ms : Int64) : Shaped .timestamp (.timestamp ms)
  | boundedNat (lo hi n : UInt64) : Shaped (.boundedNat lo hi) (.nat n)
  | boundedFloat (lo hi x : Double) : Shaped (.boundedFloat lo hi) (.float x)
  | nonEmptyString (s : String) : Shaped .nonEmptyString (.text s)
  | confidence (x : Double) : Shaped .confidence (.float x)
  | promptScores (s : Scores) : Shaped .promptScores (.scores s)
  | vector {element : Ty} (size : UInt64) {items : List Value}
      (h : ∀ v ∈ items, Shaped element v) : Shaped (.vector element size) (.vector items)

theorem shaped_of_isHolds {ty : Ty} {v : Value} (h : (ty.decide v).isHolds = true) :
    Shaped ty v := by
  have hfault := fault?_of_isHolds h
  induction ty generalizing v with
  | vector element size ih =>
    unfold decide at h
    rw [hfault] at h
    cases v with
    | vector items =>
      dsimp only at h
      split at h
      · cases h
      · split at h
        · next d hd =>
          rw [Decision.isHolds_of_items_error hd] at h
          cases h
        · next es hes =>
          refine .vector size fun w hw => ?_
          have hw := Decision.isHolds_of_items hes w hw
          exact ih hw (fault?_of_isHolds hw)
    | _ => cases h
  | _ =>
    unfold decide at h
    rw [hfault] at h
    cases v <;> simp [Decision.isHolds] at h
    all_goals constructor

end Ty

namespace TypedValue

/-- Giving a type succeeds exactly with the values of the type. -/
theorem make_eq_ok {ty : Ty} {value : Value} {v : TypedValue} :
    make ty value = .ok v ↔ v.ty = ty ∧ v.value = value := by
  unfold make
  constructor
  · intro h
    split at h
    · cases h
      exact ⟨rfl, rfl⟩
    · cases h
    · cases h
  · rintro ⟨rfl, rfl⟩
    have hfits := v.fits
    split
    · rfl
    · next why hfails =>
      rw [hfails] at hfits
      cases hfits
    · next why hdoubt =>
      rw [hdoubt] at hfits
      cases hfits

end TypedValue

namespace Item

theorem toItems_eq_map (vs : List Value) : Value.toItems vs = vs.map Value.toItem := by
  induction vs with
  | nil => rfl
  | cons v vs ih => rw [Value.toItems, ih, List.map_cons]

theorem toScores_ofFields {s : Scores} (more : List (String × Item))
    (h : ((s.fields ++ more).map Prod.fst).Nodup) :
    (ofFields (s.fields ++ more)).toScores = .ok s := by
  have hword : ∀ {name : String} {n : UInt64}, (s.fields ++ more).lookup name = some (unsigned n) →
      (ofFields (s.fields ++ more)).wordField name = .ok n := fun hl => by
    rw [wordField_eq_ok, field?_ofFields h, hl]
  have hfields : s.fields = [("structure", unsigned s.layout), ("context", unsigned s.context),
      ("evidence", unsigned s.evidence), ("reasoning", unsigned s.reasoning),
      ("clarity", unsigned s.clarity)] := rfl
  rw [hfields] at hword
  unfold toScores
  rw [hfields, hword rfl, hword rfl, hword rfl, hword rfl, hword rfl]
  rfl

theorem toPlain_toItem {ty : Ty} {v : Value} (h : ty.Shaped v) (field : String) :
    toPlain field ty v.toItem = .ok v := by
  induction h with
  | int i =>
    rw [toPlain, Value.toItem, toInt?_int]
    rfl
  | timestamp ms =>
    rw [toPlain, Value.toItem, toInt?_int]
    rfl
  | uuid u =>
    rw [toPlain, Value.toItem, toUuid, toText?, content, Outcome.ok_bind, Uuid.parse_hyphenated]
    rfl
  | promptScores s =>
    have hs : (ofFields s.fields).toScores = .ok s := by
      have hempty := toScores_ofFields (s := s) []
        (by simp [Scores.fields, Scores.entries, Scores.names, Scores.values])
      rwa [List.append_nil] at hempty
    rw [toPlain, Value.toItem, hs]
    rfl
  | vector size hs ih =>
    rw [toPlain, Value.toItem, toArray?, content, Outcome.ok_bind, toItems_eq_map,
      Outcome.mapM_map ih]
    rfl
  | _ => rfl

theorem toCertificate_toItem (c : Certificate) : c.toItem.toCertificate = .ok c := by
  have hmethod : Method.ofName? c.method.name = some c.method := by
    cases c.method <;> decide
  have hcategory : Category.ofName? c.category.name = some c.category := by
    cases c.category <;> decide
  have huntag : c.toItem.untag .proof = .ok (ofFields
      [("kind", text c.method.name), ("value_category", text c.category.name),
       ("payload", text c.payload), ("verified", bool c.verified)]) := rfl
  unfold toCertificate
  rw [huntag]
  simp [textField, boolField, required, expectField, toText?, toBool?, hmethod, hcategory,
    List.lookup]

theorem typeOf_render {ty : Ty} (hty : ty.BoundsFinite) (h : ty.layers < defaultDepth) :
    typeOf ty.render = .ok ty := by
  unfold typeOf
  rw [Ty.parse_render hty h]

theorem typeOf_render_error {ty : Ty} (hty : ty.BoundsFinite) (h : defaultDepth ≤ ty.layers) :
    ∃ e, typeOf ty.render = .error e := by
  obtain ⟨e, he, -⟩ := Ty.parse_render_error hty h
  refine ⟨.invalidField "type" (.type (.parse e)), ?_⟩
  unfold typeOf
  rw [he]

theorem toParts_ofFields (fields : List (String × Item)) :
    (ofFields fields).toParts = (do
      let ty ← typeOf (← (ofFields fields).textField "type")
      let v ← toPlain "value" ty (← (ofFields fields).required "value")
      return (ty, v, ofFields fields)) := rfl

theorem toParts_tag {t : Tag} {fields : List (String × Item)} {ty : Ty} {v : Value}
    (h : toTagged t (ofFields fields) = .ok (ty, v)) :
    (tag t.value (ofFields fields)).toParts = .ok (ty, v, ofFields fields) := by
  have ht : Tag.ofValue? t.value = some t := by cases t <;> decide
  have huntag : (tag t.value (ofFields fields)).untag t = .ok (ofFields fields) := by
    simp [untag, ofFields]
  unfold toParts
  dsimp only
  rw [ht]
  dsimp only
  rw [huntag, Outcome.ok_bind, h]
  rfl

/-- Where a value is written with its type, the type is read first. -/
theorem toParts_envelope {ty : Ty} {v : Value} {c : Certificate} (h : ty.Shaped v)
    (hty : typeOf ty.render = .ok ty) :
    (ofFields [("type", text ty.render), ("value", v.toItem), ("proof", c.toItem)]).toParts =
      .ok (ty, v, ofFields
        [("type", text ty.render), ("value", v.toItem), ("proof", c.toItem)]) := by
  rw [toParts_ofFields]
  simp [textField, required, expectField, toText?, hty, toPlain_toItem h, List.lookup]

/-- A value with few enough layers is read with its parts, and its certificate is found. -/
theorem toParts_toItem {v : TypedValue} (c : Certificate) (h : v.ty.layers < defaultDepth) :
    ∃ fields, (v.toItem c).toParts = .ok (v.ty, v.value, fields) ∧
      fields.required "proof" = .ok c.toItem := by
  obtain ⟨ty, value, fits⟩ := v
  have hshaped := Ty.shaped_of_isHolds fits
  have hty := typeOf_render (Ty.boundsFinite_of_fault? (Ty.fault?_of_isHolds fits)) h
  have henvelope : ∃ fields,
      (ofFields [("type", text ty.render), ("value", value.toItem), ("proof", c.toItem)]).toParts =
        .ok (ty, value, fields) ∧ fields.required "proof" = .ok c.toItem :=
    ⟨_, toParts_envelope hshaped hty, by simp [required, List.lookup]⟩
  cases hshaped with
  | boundedNat lo hi n =>
    refine ⟨_, toParts_tag (t := .boundedNat) ?_, by simp [required, List.lookup]⟩
    simp [toTagged, wordField, required, expectField, toWord?, List.lookup]
  | nonEmptyString s =>
    refine ⟨_, toParts_tag (t := .nonEmptyString) ?_, by simp [required, List.lookup]⟩
    simp [toTagged, textField, required, expectField, toText?, List.lookup]
  | confidence x =>
    refine ⟨_, toParts_tag (t := .confidence) ?_, by simp [required, List.lookup]⟩
    simp [toTagged, required, expectField, toDouble?, List.lookup]
  | promptScores s =>
    have hn : ((s.fields ++ [("proof", c.toItem)]).map Prod.fst).Nodup := by
      simp [Scores.fields, Scores.entries, Scores.names, Scores.values]
    refine ⟨_, toParts_tag (t := .promptScores) ?_, ?_⟩
    · rw [toTagged, toScores_ofFields _ hn]
      rfl
    · rw [required_eq_ok, field?_ofFields hn]
      rfl
  | _ => exact henvelope

/-- With too many layers, the type of a value is refused before the value is looked at. -/
theorem toParts_toItem_error {v : TypedValue} (c : Certificate)
    (h : defaultDepth ≤ v.ty.layers) : ∃ e, (v.toItem c).toParts = .error e := by
  obtain ⟨ty, value, fits⟩ := v
  obtain ⟨e, he⟩ :=
    typeOf_render_error (Ty.boundsFinite_of_fault? (Ty.fault?_of_isHolds fits)) h
  cases ty with
  | vector element size =>
    refine ⟨e, ?_⟩
    show (ofFields [("type", text (Ty.vector element size).render), ("value", value.toItem),
      ("proof", c.toItem)]).toParts = _
    rw [toParts_ofFields]
    simp [textField, required, expectField, toText?, he, List.lookup]
  | _ => exact absurd h (Nat.not_succ_le_zero 63)

theorem toTypedValue_eq_ok {i : Item} {v : TypedValue} {c : Certificate} :
    i.toTypedValue = .ok (v, c) ↔ ∃ fields p, i.toParts = .ok (v.ty, v.value, fields) ∧
      fields.field? "proof" = some p ∧ p.toCertificate = .ok c ∧ c.mismatch? v = none := by
  unfold toTypedValue
  constructor
  · intro h
    obtain ⟨⟨ty, value, fields⟩, hparts, h⟩ := Outcome.bind_eq_ok.mp h
    dsimp only at h
    split at h
    · next typed hmake =>
      obtain ⟨rfl, rfl⟩ := TypedValue.make_eq_ok.mp hmake
      rw [Outcome.pure_eq_ok, Outcome.ok_bind] at h
      obtain ⟨p, hp, h⟩ := Outcome.bind_eq_ok.mp h
      obtain ⟨c', hc, h⟩ := Outcome.bind_eq_ok.mp h
      split at h
      · cases h
      · next hnone =>
        cases h
        exact ⟨fields, p, hparts, required_eq_ok.mp hp, hc, hnone⟩
    · cases h
  · rintro ⟨fields, p, hparts, hp, hc, hnone⟩
    have hmake : TypedValue.make v.ty v.value = .ok v := TypedValue.make_eq_ok.mpr ⟨rfl, rfl⟩
    rw [hparts, Outcome.ok_bind]
    dsimp only
    rw [hmake]
    dsimp only
    rw [Outcome.pure_eq_ok, Outcome.ok_bind, required_eq_ok.mpr hp, Outcome.ok_bind, hc,
      Outcome.ok_bind, hnone]
    rfl

theorem toTypedValue_toItem {v : TypedValue} {c : Certificate} (h : v.ty.layers < defaultDepth)
    (hc : c.mismatch? v = none) : (v.toItem c).toTypedValue = .ok (v, c) := by
  obtain ⟨fields, hparts, hproof⟩ := toParts_toItem c h
  exact toTypedValue_eq_ok.mpr
    ⟨fields, c.toItem, hparts, required_eq_ok.mp hproof, toCertificate_toItem c, hc⟩

theorem toTypedValue_toItem_error {v : TypedValue} (c : Certificate)
    (h : defaultDepth ≤ v.ty.layers) : ∃ e, (v.toItem c).toTypedValue = .error e := by
  obtain ⟨e, he⟩ := toParts_toItem_error c h
  refine ⟨e, ?_⟩
  unfold toTypedValue
  rw [he]
  rfl

end Item
end Attest
