import Attest.Proofs.Cbor.RoundTrip
import Attest.Proofs.Item.Document

/-!
Which items their documents lose.

A tag is written as a member of the object that it holds, and reading takes every such member for a
tag.  So no item that was read from a document has a map with that member, but for the content of a
tag, which has lost it.  Writing refuses the member in the content of a tag.  It does not refuse it
in a map that stands alone, which is then written like a tagged one, and is read as something else
or not at all.  Every other item in order that has a document reads back from it.
-/

namespace Attest
namespace Item

/-- Every map has its keys in order, and none of them twice. -/
inductive Ordered : Item → Prop where
  | unsigned (n : UInt64) : Ordered (.unsigned n)
  | negative (n : UInt64) : Ordered (.negative n)
  | bytes (bs : List UInt8) : Ordered (.bytes bs)
  | text (s : String) : Ordered (.text s)
  | array {items : List Item} (h : ∀ i ∈ items, Ordered i) : Ordered (.array items)
  | map {entries : List (Item × Item)} (hn : (entries.map Prod.fst).Nodup)
      (hr : Sorting.Rising Cbor.entryLess entries) (hk : ∀ e ∈ entries, Ordered e.1)
      (hv : ∀ e ∈ entries, Ordered e.2) : Ordered (.map entries)
  | tag (n : UInt64) {content : Item} (h : Ordered content) : Ordered (.tag n content)
  | bool (b : Bool) : Ordered (.bool b)
  | null : Ordered .null
  | float (x : Double) : Ordered (.float x)

/-- Some map that is not the content of a tag has the member that names one. -/
inductive Collides : Item → Prop where
  | here {entries : List (Item × Item)} {v : Item} (h : (.text tagMember, v) ∈ entries) :
      Collides (.map entries)
  | value {entries : List (Item × Item)} {e : Item × Item} (h : e ∈ entries)
      (he : Collides e.2) : Collides (.map entries)
  | content {n : UInt64} {entries : List (Item × Item)} {e : Item × Item} (h : e ∈ entries)
      (he : Collides e.2) : Collides (.tag n (.map entries))
  | item {items : List Item} {i : Item} (h : i ∈ items) (hi : Collides i) : Collides (.array items)

theorem tagged_eq_ok {member : Option Json} {fields : List (String × Item)} {i : Item}
    (h : tagged member fields = .ok i) :
    i = ofFields fields ∨ ∃ n, i = tag n (ofFields fields) := by
  unfold tagged at h
  split at h
  · cases h
    exact .inl rfl
  · split at h
    · cases h
      exact .inr ⟨_, rfl⟩
    · cases h
  · cases h

/-- What an item is made of was read from a document too, and no key is the member that names a
tag. -/
structure Legible (i : Item) : Prop where
  entry : ∀ entries, i = map entries ∨ (∃ n, i = tag n (map entries)) →
    ∀ e ∈ entries, e.1 ≠ text tagMember ∧ ∃ j, ofCanonical j = .ok e.2
  item : ∀ items, i = array items → ∀ k ∈ items, ∃ j, ofCanonical j = .ok k

theorem entries_of_fields {members : List (String × Json)} {fields : List (String × Item)}
    (h : ofCanonicalMembers members = .ok fields) {entries : List (Item × Item)}
    (hi : ofFields fields = map entries) :
    ∀ e ∈ entries, e.1 ≠ text tagMember ∧ ∃ j, ofCanonical j = .ok e.2 := by
  intro e he
  rw [ofFields_eq, map.injEq] at hi
  rw [← hi] at he
  obtain ⟨f, hf, rfl⟩ := List.mem_map.mp he
  have hf := (Sorting.sort_perm fieldLess fields).mem_iff.mp hf
  obtain ⟨m, hm, hname, hread⟩ :=
    (Outcome.exists_of_forall₂ (ofCanonicalMembers_eq_ok.mp h)).2 f hf
  have hne : m.1 ≠ tagMember := by simpa using (List.mem_filter.mp hm).2
  refine ⟨fun heq => hne ?_, m.2, hread⟩
  rw [hname]
  exact text.inj heq

theorem legible_of_ofCanonical {j : Json} {i : Item} (h : ofCanonical j = .ok i) : i.Legible := by
  cases j with
  | object members =>
    obtain ⟨fields, hfields, htag⟩ := Outcome.bind_eq_ok.mp h
    rcases tagged_eq_ok htag with rfl | ⟨n, rfl⟩
    · refine ⟨?_, fun items hi => by cases hi⟩
      rintro entries (hi | ⟨_, hi⟩)
      · exact entries_of_fields hfields hi
      · cases hi
    · refine ⟨?_, fun items hi => by cases hi⟩
      rintro entries (hi | ⟨_, hi⟩)
      · cases hi
      · exact entries_of_fields hfields (tag.inj hi).2
  | array js =>
    obtain ⟨items, hitems, rfl⟩ := Outcome.map_eq_ok.mp h
    rw [ofCanonicalItems_eq_mapM, Outcome.mapM_eq_ok] at hitems
    refine ⟨by simp, fun items' hi k hk => ?_⟩
    rw [← array.inj hi] at hk
    obtain ⟨j, -, hj⟩ := (Outcome.exists_of_forall₂ hitems).2 k hk
    exact ⟨j, hj⟩
  | number n =>
    cases n with
    | nat n =>
      cases h
      exact ⟨by simp, by simp⟩
    | int i =>
      cases h
      unfold int
      split
      · exact ⟨by simp, by simp⟩
      · exact ⟨by simp, by simp⟩
    | float x =>
      cases h
      exact ⟨by simp, by simp⟩
  | _ =>
    cases h
    exact ⟨by simp, by simp⟩

/-- No document is read as an item that collides. -/
theorem ofCanonical_ne_of_collides {i : Item} (hi : i.Collides) (j : Json) :
    ofCanonical j ≠ .ok i := by
  induction hi generalizing j with
  | here hmem =>
    intro h
    exact ((legible_of_ofCanonical h).entry _ (.inl rfl) _ hmem).1 rfl
  | value hmem _ ih =>
    intro h
    obtain ⟨-, j', hj'⟩ := (legible_of_ofCanonical h).entry _ (.inl rfl) _ hmem
    exact ih j' hj'
  | content hmem _ ih =>
    intro h
    obtain ⟨-, j', hj'⟩ := (legible_of_ofCanonical h).entry _ (.inr ⟨_, rfl⟩) _ hmem
    exact ih j' hj'
  | item hmem _ ih =>
    intro h
    obtain ⟨j', hj'⟩ := (legible_of_ofCanonical h).item _ rfl _ hmem
    exact ih j' hj'

/-- A negative integer that a document can hold is the item of that integer. -/
theorem int_of_toInt? {n : UInt64} {i : Int64} (h : (negative n).toInt? = some i) :
    int i = negative n := by
  rw [toInt?] at h
  by_cases hn : n.toNat < 0x8000000000000000
  · rw [if_pos hn, Option.some.injEq] at h
    have hcond : n.toInt64.toInt = if 2 * n.toNat < 2 ^ 64 then (n.toNat : Int)
        else (n.toNat : Int) - (2 ^ 64 : Nat) := BitVec.toInt_eq_toNat_cond n.toBitVec
    rw [if_pos (by omega)] at hcond
    have hneg : ¬ 0 ≤ i := by
      have hone : (-1 : Int64).toInt = -1 := rfl
      have hzero : (0 : Int64).toInt = 0 := rfl
      rw [← h, Int64.le_iff_toInt_le, Int64.toInt_sub, hcond, hone, hzero,
        Int.bmod_eq_of_le (by omega) (by omega)]
      omega
    have hnot : i = ~~~ n.toInt64 := by
      rw [← h, Int64.not_eq_neg_add]
      grind
    have hbits : (~~~ n.toInt64).toUInt64 = ~~~ n := UInt64.eq_of_toBitVec_eq rfl
    rw [int, if_neg hneg, hnot, hbits, UInt64.not_not]
  · rw [if_neg hn] at h
    cases h

/-- A map that has a document has texts for keys, and its values have documents. -/
theorem toJsonMembers_eq_ok {before members : List (String × Json)} {entries : List (Item × Item)}
    (h : toJsonMembers before entries = .ok members) :
    ∃ (fields : List (String × Item)) (ms : List (String × Json)),
      entries = fields.map (fun f => (text f.1, f.2)) ∧
      List.Forall₂ (fun f m => m.1 = f.1 ∧ f.2.toJson = .ok m.2) fields ms ∧
      members = ByName.setAll before ms := by
  induction entries generalizing before with
  | nil =>
    cases h
    exact ⟨[], [], rfl, .nil, rfl⟩
  | cons e entries ih =>
    obtain ⟨k, v⟩ := e
    rw [toJsonMembers] at h
    split at h
    · cases h
    · next name hname =>
      obtain ⟨j, hj, h⟩ := Outcome.bind_eq_ok.mp h
      obtain ⟨fields, ms, rfl, hfields, rfl⟩ := ih h
      have hk : k = text name := by
        cases k <;> cases hname
        rfl
      subst hk
      exact ⟨(name, v) :: fields, (name, j) :: ms, rfl, .cons ⟨rfl, hj⟩ hfields, rfl⟩

/-- A tag that has a document holds a map that has one and is without the member that names it. -/
theorem toJson_tag_eq_ok {n : UInt64} {content : Item} {j : Json}
    (h : (tag n content).toJson = .ok j) :
    ∃ (t : Tag) (entries : List (Item × Item)) (members : List (String × Json)),
      n = t.value ∧ content = map entries ∧ toJsonMembers [] entries = .ok members ∧
      Json.get? members tagMember = none := by
  rw [toJson] at h
  split at h
  · cases h
  · next t ht =>
    unfold Tag.ofValue? at ht
    have hn := List.find?_some ht
    split at h
    · next entries =>
      obtain ⟨members, hmembers, h⟩ := Outcome.bind_eq_ok.mp h
      by_cases hget : (Json.get? members tagMember).isSome = true
      · rw [if_pos hget] at h
        cases h
      · exact ⟨t, entries, members, (eq_of_beq hn).symm, rfl, hmembers, by simpa using hget⟩
    · cases h

theorem get?_ofList_ne_none {ms : List (String × Json)} {m : String × Json} (h : m ∈ ms) :
    Json.get? (ByName.ofList ms) m.1 ≠ none := by
  have hlookup : ms.reverse.lookup m.1 ≠ none := by
    rw [Ne, List.lookup_eq_none_iff]
    intro hall
    have := hall m (List.mem_reverse.mpr h)
    simp at this
  rw [← ByName.get?_ofList] at hlookup
  obtain ⟨j, hj⟩ := Option.ne_none_iff_exists'.mp hlookup
  rw [(Json.get?_eq_some_iff (ByName.sorted_ofList ms).nodup).mpr (ByName.mem_of_get? hj)]
  exact Option.some_ne_none j

theorem Regular.fields {P : Double → Prop} {entries : List (Item × Item)}
    (h : Regular P (.map entries)) :
    ∃ fields, entries = fields.map (fun f => (.text f.1, f.2)) ∧ Sorting.Rising fieldLess fields ∧
      (fields.map Prod.fst).Nodup ∧ tagMember ∉ fields.map Prod.fst ∧
      ∀ f ∈ fields, Regular P f.2 := by
  generalize hi : Item.map entries = i at h
  cases h with
  | int i =>
    unfold Item.int at hi
    split at hi <;> cases hi
  | map hr hn ht hv => exact ⟨_, Item.map.inj hi, hr, hn, ht, hv⟩
  | _ => cases hi

theorem regular_of_toJson {i : Item} {j : Json} (h : i.Ordered) (hj : i.toJson = .ok j)
    (hc : ¬ i.Collides) : Regular (fun x => x.isFinite = true) i := by
  induction h generalizing j with
  | unsigned n => exact .unsigned n
  | negative n =>
    rw [toJson] at hj
    split at hj
    · next i hi =>
      rw [← int_of_toInt? hi]
      exact .int i
    · cases hj
  | bytes bs => cases hj
  | text s => exact .text s
  | bool b => exact .bool b
  | null => exact .null
  | float x =>
    rw [toJson] at hj
    by_cases hx : x.isFinite = true
    · exact .float hx
    · rw [if_neg hx] at hj
      cases hj
  | array _ ih =>
    obtain ⟨js, hjs, -⟩ := Outcome.map_eq_ok.mp hj
    rw [toJsonItems_eq_mapM, Outcome.mapM_eq_ok] at hjs
    refine .array fun i hi => ?_
    obtain ⟨j, -, hj⟩ := (Outcome.exists_of_forall₂ hjs).1 i hi
    exact ih i hi hj fun hcollides => hc (.item hi hcollides)
  | map hn hr _ _ _ ih =>
    obtain ⟨members, hmembers, -⟩ := Outcome.map_eq_ok.mp hj
    obtain ⟨fields, ms, rfl, hfields, -⟩ := toJsonMembers_eq_ok hmembers
    have hmem : ∀ f ∈ fields, (text f.1, f.2) ∈ fields.map fun f => (text f.1, f.2) :=
      fun f hf => List.mem_map.mpr ⟨f, hf, rfl⟩
    refine .map ?_ ?_ ?_ fun f hf => ?_
    · refine (List.pairwise_map.mp hr).imp fun {f g} hfg => ?_
      rw [fieldLess, ← Cbor.keyLess_encode_text]
      exact hfg
    · rw [List.map_map] at hn
      exact List.Nodup.of_map text (by rwa [List.map_map])
    · intro htag
      obtain ⟨f, hf, hname⟩ := List.mem_map.mp htag
      exact hc (.here (hname ▸ hmem f hf))
    · obtain ⟨m, -, -, hm⟩ := (Outcome.exists_of_forall₂ hfields).1 f hf
      exact ih _ (hmem f hf) hm fun hcollides => hc (.value (hmem f hf) hcollides)
  | tag n _ ih =>
    obtain ⟨t, entries, members, rfl, rfl, hmembers, hget⟩ := toJson_tag_eq_ok hj
    have hmap : (map entries).toJson = .ok (.object members) := by
      rw [toJson, hmembers]
      rfl
    -- The map in the tag lacks the member, so it may as well stand alone.
    have hplain : ¬ (map entries).Collides := by
      intro hcollides
      cases hcollides with
      | here hmem =>
        obtain ⟨fields, ms, rfl, hfields, rfl⟩ := toJsonMembers_eq_ok hmembers
        obtain ⟨f, hf, hname⟩ := List.mem_map.mp hmem
        obtain ⟨m, hm, hmf, -⟩ := (Outcome.exists_of_forall₂ hfields).1 f hf
        have hf : f.1 = tagMember := text.inj (Prod.mk.inj hname).1
        exact get?_ofList_ne_none hm (by rw [hmf, hf]; exact hget)
      | value hmem he => exact hc (.content hmem he)
    obtain ⟨fields, rfl, hr, hn, ht, hv⟩ := (ih hmap hplain).fields
    exact .tag t hr hn ht hv

/-- An item in order that has a document reads back from it exactly if no map but the content of a
tag has the member that names one. -/
theorem ofJson_toJson_iff {i : Item} {j : Json} (h : i.Ordered) (hj : i.toJson = .ok j) :
    ofJson j = .ok i ↔ ¬ i.Collides := by
  constructor
  · exact fun hback hi => ofCanonical_ne_of_collides hi j.canonical hback
  · intro hi
    have hback := ofJson_toJson (regular_of_toJson h hj hi)
    rwa [hj, Outcome.ok_bind] at hback

def labelled (name : String) : Item :=
  .array [.map [(.text "max", .negative 6), (.text name, .text "confidence")]]

theorem labelled_read :
    (∃ j, (labelled "quantity").toJson = .ok j ∧ ofJson j = .ok (labelled "quantity")) ∧
      ∃ j, (labelled tagMember).toJson = .ok j ∧ ofJson j ≠ .ok (labelled tagMember) := by
  have hordered : ∀ name, keyLess (Text.utf8 name) (Text.utf8 "max") = false → name ≠ "max" →
      (labelled name).Ordered := by
    intro name hless hne
    refine .array fun i hi => ?_
    rw [List.mem_singleton.mp hi]
    refine .map (by simpa using Ne.symm hne) ?_ ?_ ?_
    · refine .cons (fun e he => ?_) (.cons (by simp) .nil)
      rw [List.mem_singleton.mp he, Cbor.entryLess, Cbor.keyLess_encode_text, hless]
    · simp [Ordered.text]
    · simp [Ordered.text, Ordered.negative]
  constructor
  · refine ⟨_, rfl, (ofJson_toJson_iff (hordered _ (by decide) (by decide)) rfl).mpr ?_⟩
    intro hcollides
    cases hcollides with
    | item hmem hi =>
      rw [List.mem_singleton.mp hmem] at hi
      cases hi with
      | here h => simp [tagMember] at h
      | value h he =>
        simp only [List.mem_cons, List.not_mem_nil, or_false] at h
        rcases h with rfl | rfl <;> cases he
  · refine ⟨_, rfl, fun hback => ?_⟩
    refine (ofJson_toJson_iff (hordered _ (by decide) (by decide)) rfl).mp hback ?_
    exact .item List.mem_cons_self (.here (List.mem_cons_of_mem _ List.mem_cons_self))

end Item
end Attest
