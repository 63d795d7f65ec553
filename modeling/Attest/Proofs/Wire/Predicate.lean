import Attest.Wire.Node
import Attest.Proofs.Wire.Value

/-!
Conditions on the wire.

What it means for an item to say a condition is a relation of its own, with one rule for each form
of a condition.  Reading decides it, and the item of a condition says that condition and no other.
-/

namespace Attest

namespace Predicate

def literals : Predicate → List TypedValue
  | column _ => []
  | literal v => [v]
  | unary _ p => p.literals
  | binary _ l r => l.literals ++ r.literals
  | isNull p _ => p.literals

/-- The word that tells the form of a condition, or its operator. -/
def form : Predicate → String
  | column _ => "column"
  | literal _ => "literal"
  | unary op _ => op.name
  | binary op _ _ => op.name
  | isNull _ _ => "is_null"

theorem field?_form (p : Predicate) : p.toItem.field? "op" = some (.text p.form) := by
  cases p <;> simp [toItem, form, List.lookup]

end Predicate

namespace Item

inductive Says : Item → Predicate → Prop where
  | column {i : Item} {c : ColumnRef} (hop : i.field? "op" = some (text "column"))
      (hc : i.toColumn = .ok c) : Says i (.column c)
  | literal {i j : Item} {v : TypedValue} {c : Certificate}
      (hop : i.field? "op" = some (text "literal")) (hj : i.field? "value" = some j)
      (hv : j.toTypedValue = .ok (v, c)) : Says i (.literal v)
  | isNull {i j : Item} {p : Predicate} {negated : Bool}
      (hop : i.field? "op" = some (text "is_null")) (hj : i.field? "operand" = some j)
      (hp : Says j p) (hn : i.field? "negated" = some (bool negated)) :
      Says i (.isNull p negated)
  | unary {i j : Item} {op : UnaryOp} {p : Predicate}
      (hop : i.field? "op" = some (text op.name)) (hright : i.field? "right" = none)
      (hj : i.field? "operand" = some j) (hp : Says j p) : Says i (.unary op p)
  | binary {i j k : Item} {op : BinaryOp} {l r : Predicate}
      (hop : i.field? "op" = some (text op.name)) (hj : i.field? "left" = some j)
      (hk : i.field? "right" = some k) (hl : Says j l) (hr : Says k r) : Says i (.binary op l r)

theorem named_unary (op : UnaryOp) :
    named "op" UnaryOp.all UnaryOp.name op.name = .ok op :=
  named_eq_ok (by decide) (by cases op <;> decide)

theorem named_binary (op : BinaryOp) :
    named "op" BinaryOp.all BinaryOp.name op.name = .ok op :=
  named_eq_ok (by decide) (by cases op <;> decide)

/-- Operators are not spelled like the other forms. -/
theorem unary_name_ne (op : UnaryOp) :
    (op.name == "column") = false ∧ (op.name == "literal") = false ∧
      (op.name == "is_null") = false := by
  cases op <;> decide

theorem binary_name_ne (op : BinaryOp) :
    (op.name == "column") = false ∧ (op.name == "literal") = false ∧
      (op.name == "is_null") = false := by
  cases op <;> decide

theorem Says.toPredicate_eq {i : Item} {p : Predicate} (h : Says i p) : i.toPredicate = .ok p := by
  induction h with
  | column hop hc =>
    rw [toPredicate, textField_eq_ok.mpr hop, Outcome.ok_bind, if_pos (by decide), hc]
    rfl
  | literal hop hj hv =>
    rw [toPredicate, textField_eq_ok.mpr hop, Outcome.ok_bind, if_neg (by decide),
      if_pos (by decide), required_eq_ok.mpr hj, Outcome.ok_bind, hv]
    rfl
  | isNull hop hj hp hn ih =>
    rw [toPredicate, textField_eq_ok.mpr hop, Outcome.ok_bind, if_neg (by decide),
      if_neg (by decide), if_pos (by decide)]
    split
    · next hnone =>
      rw [hj] at hnone
      cases hnone
    · next q hq =>
      rw [hj] at hq
      cases hq
      rw [ih, Outcome.ok_bind, boolField_eq_ok.mpr hn]
      rfl
  | @unary i j op p hop hright hj hp ih =>
    obtain ⟨hcolumn, hliteral, hnull⟩ := unary_name_ne op
    rw [toPredicate, textField_eq_ok.mpr hop, Outcome.ok_bind, if_neg (by simp [hcolumn]),
      if_neg (by simp [hliteral]), if_neg (by simp [hnull])]
    split
    · next q hq =>
      rw [hright] at hq
      cases hq
    · rw [named_unary, Outcome.ok_bind]
      split
      · next hnone =>
        rw [hj] at hnone
        cases hnone
      · next q hq =>
        rw [hj] at hq
        cases hq
        rw [ih]
        rfl
  | @binary i j k op l r hop hj hk hl hr ihl ihr =>
    obtain ⟨hcolumn, hliteral, hnull⟩ := binary_name_ne op
    rw [toPredicate, textField_eq_ok.mpr hop, Outcome.ok_bind, if_neg (by simp [hcolumn]),
      if_neg (by simp [hliteral]), if_neg (by simp [hnull])]
    split
    · next q hq =>
      rw [hk] at hq
      cases hq
      rw [named_binary, Outcome.ok_bind]
      split
      · next hnone =>
        rw [hj] at hnone
        cases hnone
      · next q' hq' =>
        rw [hj] at hq'
        cases hq'
        rw [ihl, Outcome.ok_bind, ihr]
        rfl
    · next hnone =>
      rw [hk] at hnone
      cases hnone

theorem name_of_named {α : Type} {field s : String} {candidates : List α} {name : α → String}
    {a : α} (h : named field candidates name s = .ok a) : name a = s := by
  unfold named at h
  split at h
  · next b hb =>
    cases h
    simpa using List.find?_some hb
  · cases h

theorem says_of_toPredicate {i : Item} {p : Predicate} (h : i.toPredicate = .ok p) : Says i p := by
  induction hsize : sizeOf i using Nat.strongRecOn generalizing i p with
  | ind size ih =>
    subst hsize
    have hstep : ∀ {name : String} {j : Item} {q : Predicate}, i.field? name = some j →
        j.toPredicate = .ok q → Says j q := fun hj hq => ih _ (sizeOf_lt_of_field? hj) hq rfl
    rw [toPredicate] at h
    obtain ⟨op, hop, h⟩ := Outcome.bind_eq_ok.mp h
    rw [textField_eq_ok] at hop
    split_ifs at h with hcolumn hliteral hnull
    · obtain ⟨c, hc, h⟩ := Outcome.bind_eq_ok.mp h
      cases h
      rw [eq_of_beq hcolumn] at hop
      exact .column hop hc
    · obtain ⟨j, hj, h⟩ := Outcome.bind_eq_ok.mp h
      obtain ⟨⟨v, c⟩, hv, h⟩ := Outcome.bind_eq_ok.mp h
      cases h
      rw [eq_of_beq hliteral] at hop
      exact .literal hop (required_eq_ok.mp hj) hv
    · split at h
      · cases h
      · next j hj =>
        obtain ⟨q, hq, h⟩ := Outcome.bind_eq_ok.mp h
        obtain ⟨negated, hn, h⟩ := Outcome.bind_eq_ok.mp h
        cases h
        rw [eq_of_beq hnull] at hop
        exact .isNull hop hj (hstep hj hq) (boolField_eq_ok.mp hn)
    · split at h
      · next k hk =>
        obtain ⟨bop, hbop, h⟩ := Outcome.bind_eq_ok.mp h
        split at h
        · cases h
        · next j hj =>
          obtain ⟨l, hl, h⟩ := Outcome.bind_eq_ok.mp h
          obtain ⟨r, hr, h⟩ := Outcome.bind_eq_ok.mp h
          cases h
          rw [← name_of_named hbop] at hop
          exact .binary hop hj hk (hstep hj hl) (hstep hk hr)
      · next hright =>
        obtain ⟨uop, huop, h⟩ := Outcome.bind_eq_ok.mp h
        split at h
        · cases h
        · next j hj =>
          obtain ⟨q, hq, h⟩ := Outcome.bind_eq_ok.mp h
          cases h
          rw [← name_of_named huop] at hop
          exact .unary hop hright hj (hstep hj hq)

theorem toPredicate_eq_ok {i : Item} {p : Predicate} : i.toPredicate = .ok p ↔ Says i p :=
  ⟨says_of_toPredicate, Says.toPredicate_eq⟩

theorem Says.form {i : Item} {p : Predicate} (h : Says i p) :
    i.field? "op" = some (text p.form) := by
  cases h <;> assumption

/-- A column reads back from the fields that hold its name and its type. -/
theorem toColumn_eq_ok {i : Item} {c : ColumnRef} (hname : i.field? "name" = some (text c.name))
    (htype : i.field? "type" = some (text c.ty.render)) (hc : c.ty.BoundsFinite)
    (h : c.ty.layers < defaultDepth) : i.toColumn = .ok c := by
  unfold toColumn
  rw [textField_eq_ok.mpr hname, Outcome.ok_bind, textField_eq_ok.mpr htype, Outcome.ok_bind,
    typeOf_render hc h]
  rfl

theorem says_toItem {p : Predicate}
    (hc : ∀ c ∈ p.columns, c.ty.BoundsFinite ∧ c.ty.layers < defaultDepth)
    (hv : ∀ v ∈ p.literals, v.ty.layers < defaultDepth) : Says p.toItem p := by
  have hop := p.field?_form
  induction p with
  | column c =>
    obtain ⟨hfinite, hlayers⟩ := hc c List.mem_cons_self
    exact .column hop (toColumn_eq_ok (by simp [Predicate.toItem, List.lookup])
      (by simp [Predicate.toItem, List.lookup]) hfinite hlayers)
  | literal v =>
    exact .literal hop (by simp [Predicate.toItem, List.lookup])
      (toTypedValue_toItem (hv v List.mem_cons_self) (Certificate.mismatch?_ofValue v))
  | unary op p ih =>
    exact .unary hop (by simp [Predicate.toItem, List.lookup])
      (by simp [Predicate.toItem, List.lookup]) (ih hc hv p.field?_form)
  | binary op l r ihl ihr =>
    refine .binary hop (by simp [Predicate.toItem, List.lookup])
      (by simp [Predicate.toItem, List.lookup]) (ihl ?_ ?_ l.field?_form)
      (ihr ?_ ?_ r.field?_form)
    · exact fun c hmem => hc c (List.mem_append_left _ hmem)
    · exact fun v hmem => hv v (List.mem_append_left _ hmem)
    · exact fun c hmem => hc c (List.mem_append_right _ hmem)
    · exact fun v hmem => hv v (List.mem_append_right _ hmem)
  | isNull p negated ih =>
    exact .isNull hop (by simp [Predicate.toItem, List.lookup]) (ih hc hv p.field?_form)
      (by simp [Predicate.toItem, List.lookup])

theorem Says.form_eq {p q : Predicate} (h : Says p.toItem q) : p.form = q.form := by
  simpa using p.field?_form.symm.trans (Says.form h)

/-- The item of a condition says a condition only if its values have few enough layers. -/
theorem Says.layers {p q : Predicate} (h : Says p.toItem q) :
    ∀ v ∈ p.literals, v.ty.layers < defaultDepth := by
  -- the form of `p` leaves one rule that can have said `q`
  induction p generalizing q with
  | column c => simp [Predicate.literals]
  | literal v =>
    have hform := Says.form_eq h
    intro w hw
    rw [List.mem_singleton.mp hw]
    cases h with
    | literal hop hj hv =>
      by_contra hdeep
      obtain ⟨e, he⟩ := toTypedValue_toItem_error (Certificate.ofValue v) (Nat.le_of_not_lt hdeep)
      simp [Predicate.toItem, List.lookup] at hj
      rw [← hj, he] at hv
      cases hv
    | @unary _ _ op => cases op <;> simp [Predicate.form, UnaryOp.name] at hform
    | @binary _ _ _ op => cases op <;> simp [Predicate.form, BinaryOp.name] at hform
    | _ => simp [Predicate.form] at hform
  | unary op p ih =>
    have hform := Says.form_eq h
    cases h with
    | unary hop hright hj hp =>
      simp [Predicate.toItem, List.lookup] at hj
      rw [← hj] at hp
      exact ih hp
    | binary hop hj hk hl hr => simp [Predicate.toItem, List.lookup] at hk
    | _ => cases op <;> simp [Predicate.form, UnaryOp.name] at hform
  | binary op l r ihl ihr =>
    have hform := Says.form_eq h
    cases h with
    | binary hop hj hk hl hr =>
      simp [Predicate.toItem, List.lookup] at hj hk
      rw [← hj] at hl
      rw [← hk] at hr
      intro v hv
      rcases List.mem_append.mp hv with hv | hv
      · exact ihl hl v hv
      · exact ihr hr v hv
    | unary hop hright hj hp => simp [Predicate.toItem, List.lookup] at hright
    | _ => cases op <;> simp [Predicate.form, BinaryOp.name] at hform
  | isNull p negated ih =>
    have hform := Says.form_eq h
    cases h with
    | isNull hop hj hp hn =>
      simp [Predicate.toItem, List.lookup] at hj
      rw [← hj] at hp
      exact ih hp
    | @unary _ _ op => cases op <;> simp [Predicate.form, UnaryOp.name] at hform
    | @binary _ _ _ op => cases op <;> simp [Predicate.form, BinaryOp.name] at hform
    | _ => simp [Predicate.form] at hform

end Item
end Attest
