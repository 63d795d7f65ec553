import Attest.Proofs.Item.Order

/-!
Data items as documents.

A regular item of finite floats reads back from its document.  Members come in the order of their
names in a document and by the order of keys in an item, so both orders have to lead to one list
each.
-/

namespace Attest

namespace Outcome

variable {α β : Type}

theorem exists_forall₂ {R : α → β → Prop} {as : List α} (h : ∀ a ∈ as, ∃ b, R a b) :
    ∃ bs, List.Forall₂ R as bs := by
  induction as with
  | nil => exact ⟨[], .nil⟩
  | cons a as ih =>
    obtain ⟨b, hb⟩ := h a List.mem_cons_self
    obtain ⟨bs, hbs⟩ := ih fun c hc => h c (List.mem_cons_of_mem a hc)
    exact ⟨b :: bs, .cons hb hbs⟩

end Outcome

namespace Json

theorem get?_eq_lookup (members : List (String × Json)) (name : String) :
    get? members name = members.reverse.lookup name := by
  unfold get?
  generalize members.reverse = ms
  induction ms with
  | nil => rfl
  | cons m ms ih =>
    obtain ⟨k, j⟩ := m
    rw [List.find?_cons, List.lookup_cons, BEq.comm]
    cases name == k
    · exact ih
    · rfl

theorem get?_eq_some_iff {members : List (String × Json)} (h : (members.map Prod.fst).Nodup)
    {name : String} {j : Json} : get? members name = some j ↔ (name, j) ∈ members := by
  have hperm := members.reverse_perm
  rw [get?_eq_lookup, ByName.lookup_eq_some_iff ((hperm.map Prod.fst).nodup_iff.mpr h),
    hperm.mem_iff]

theorem get?_eq_none {members : List (String × Json)} {name : String}
    (h : name ∉ members.map Prod.fst) : get? members name = none := by
  unfold get?
  rw [Option.map_eq_none_iff, List.find?_eq_none]
  intro m hm heq
  exact h (List.mem_map.mpr ⟨m, List.mem_reverse.mp hm, eq_of_beq heq⟩)

theorem canonicalItems_eq_map (items : List Json) : canonicalItems items = items.map canonical := by
  induction items with
  | nil => rfl
  | cons j items ih => rw [canonicalItems, ih, List.map_cons]

theorem canonicalMembers_eq_map (members : List (String × Json)) :
    canonicalMembers members = members.map fun m => (m.1, m.2.canonical) := by
  induction members with
  | nil => rfl
  | cons m members ih => rw [canonicalMembers, ih, List.map_cons]

/-- An object in order, of documents in canonical form, is in canonical form. -/
theorem canonical_object {members : ByName Json} (h : members.Sorted)
    (hm : ∀ m ∈ members, m.2.canonical = m.2) : (object members).canonical = object members := by
  have hmap : members.map (fun m => (m.1, m.2.canonical)) = members := by
    conv_rhs => rw [← List.map_id members]
    refine List.map_congr_left fun m hmem => ?_
    rw [hm m hmem]
    rfl
  rw [canonical, canonicalMembers_eq_map, hmap, ByName.ofList_of_sorted h]

end Json

namespace Item

theorem toJsonItems_eq_mapM (items : List Item) : toJsonItems items = items.mapM toJson := by
  induction items with
  | nil => rfl
  | cons i items ih => rw [toJsonItems, List.mapM_cons, ih]

theorem ofCanonicalItems_eq_mapM (items : List Json) :
    ofCanonicalItems items = items.mapM ofCanonical := by
  induction items with
  | nil => rfl
  | cons j items ih => rw [ofCanonicalItems, List.mapM_cons, ih]

/-- A document holds an item: it is the document of the item, in canonical form, and the item is
read from it. -/
def Holds (i : Item) (j : Json) : Prop :=
  i.toJson = .ok j ∧ j.canonical = j ∧ ofCanonical j = .ok i

def MembersHold (fields : List (String × Item)) (members : List (String × Json)) : Prop :=
  List.Forall₂ (fun f m => m.1 = f.1 ∧ f.2.Holds m.2) fields members

theorem toJsonMembers_of_hold {fields : List (String × Item)} {members : List (String × Json)}
    (h : MembersHold fields members) (before : List (String × Json)) :
    toJsonMembers before (fields.map fun f => (.text f.1, f.2)) =
      .ok (ByName.setAll before members) := by
  induction h generalizing before with
  | nil => rfl
  | @cons f m fields members hfm _ ih =>
    obtain ⟨hname, hjson, -, -⟩ := hfm
    rw [List.map_cons, toJsonMembers, toText?]
    dsimp only
    rw [hjson, Outcome.ok_bind, ih, ← hname]
    rfl

theorem ofCanonicalMembers_eq_ok {members : List (String × Json)} {fields : List (String × Item)} :
    ofCanonicalMembers members = .ok fields ↔
      List.Forall₂ (fun m f => m.1 = f.1 ∧ ofCanonical m.2 = .ok f.2)
        (members.filter (·.1 != tagMember)) fields := by
  induction members generalizing fields with
  | nil =>
    rw [ofCanonicalMembers, List.filter_nil, List.forall₂_nil_left_iff, Except.ok.injEq, eq_comm]
  | cons m members ih =>
    obtain ⟨k, j⟩ := m
    rw [ofCanonicalMembers]
    by_cases hk : (k == tagMember) = true
    · rw [if_pos hk, List.filter_cons_of_neg (by simpa using hk)]
      exact ih
    · rw [if_neg hk, List.filter_cons_of_pos (by simpa using hk), List.forall₂_cons_left_iff,
        Outcome.bind_eq_ok]
      constructor
      · rintro ⟨i, hi, h⟩
        obtain ⟨rest, hrest, h⟩ := Outcome.bind_eq_ok.mp h
        cases h
        exact ⟨(k, i), rest, ⟨rfl, hi⟩, ih.mp hrest, rfl⟩
      · rintro ⟨⟨k', i⟩, rest, ⟨hname, hi⟩, hrest, rfl⟩
        cases hname
        exact ⟨i, hi, Outcome.bind_eq_ok.mpr ⟨rest, ih.mpr hrest, rfl⟩⟩

namespace MembersHold

variable {fields : List (String × Item)} {members : List (String × Json)}

theorem names_eq (h : MembersHold fields members) : members.map Prod.fst = fields.map Prod.fst := by
  induction h with
  | nil => rfl
  | cons hfm _ ih => rw [List.map_cons, List.map_cons, hfm.1, ih]

theorem canonical_of_mem (h : MembersHold fields members) :
    ∀ m ∈ members, m.2.canonical = m.2 :=
  ((List.forall₂_and_left _ _).mp (h.flip.imp fun _ _ hfm => ⟨hfm.2.2.1, hfm⟩)).1

/-- The fields are read from an object that has their members, in any order and beside a tag. -/
theorem read_perm (h : MembersHold fields members) {ms : List (String × Json)}
    (hp : (ms.filter (·.1 != tagMember)).Perm members) (hn : (fields.map Prod.fst).Nodup) :
    ∃ fs, ofCanonicalMembers ms = .ok fs ∧ ofFields fs = ofFields fields := by
  have hread : List.Forall₂ (fun m f => m.1 = f.1 ∧ ofCanonical m.2 = .ok f.2) members fields :=
    h.flip.imp fun _ _ hfm => ⟨hfm.1, hfm.2.2.2⟩
  obtain ⟨fs, hfs, hperm⟩ := List.perm_comp_forall₂ hp hread
  exact ⟨fs, ofCanonicalMembers_eq_ok.mpr hfs, ofFields_perm hperm hn⟩

end MembersHold

theorem exists_membersHold {fields : List (String × Item)}
    (h : ∀ f ∈ fields, ∃ j, f.2.Holds j) : ∃ members, MembersHold fields members := by
  refine Outcome.exists_forall₂ fun f hf => ?_
  obtain ⟨j, hj⟩ := h f hf
  exact ⟨(f.1, j), rfl, hj⟩

theorem filter_of_not_mem {members : List (String × Json)}
    (h : tagMember ∉ members.map Prod.fst) :
    members.filter (·.1 != tagMember) = members := by
  refine List.filter_eq_self.mpr fun m hm => ?_
  rw [bne_iff_ne]
  exact fun heq => h (heq ▸ List.mem_map_of_mem hm)

section Members

variable {fields : List (String × Item)} {members : List (String × Json)}
  (hm : MembersHold fields members) (hr : Sorting.Rising fieldLess fields)
  (hn : (fields.map Prod.fst).Nodup) (ht : tagMember ∉ fields.map Prod.fst)

include hm hr hn ht

theorem holds_map :
    (map (fields.map fun f => (text f.1, f.2))).Holds (.object (ByName.ofList members)) := by
  have hnames := hm.names_eq
  have hperm : (ByName.ofList members).Perm members := ByName.ofList_perm (hnames ▸ hn)
  have hnone : tagMember ∉ (ByName.ofList members).map Prod.fst := by
    rwa [(hperm.map Prod.fst).mem_iff, hnames]
  refine ⟨?_, ?_, ?_⟩
  · rw [toJson, toJsonMembers_of_hold hm]
    rfl
  · exact Json.canonical_object (ByName.sorted_ofList members) fun m hmem =>
      hm.canonical_of_mem m (hperm.mem_iff.mp hmem)
  · have hfilter := (filter_of_not_mem hnone).symm ▸ hperm
    obtain ⟨fs, hfs, heq⟩ := hm.read_perm hfilter hn
    rw [ofCanonical, hfs, Outcome.ok_bind, Json.get?_eq_none hnone, tagged, heq,
      ofFields_of_rising hr]

theorem holds_tag (t : Tag) :
    (tag t.value (map (fields.map fun f => (text f.1, f.2)))).Holds
      (.object (ByName.set tagMember (.text t.name) (ByName.ofList members))) := by
  have hnames := hm.names_eq
  have hperm : (ByName.ofList members).Perm members := ByName.ofList_perm (hnames ▸ hn)
  have hnone : tagMember ∉ (ByName.ofList members).map Prod.fst := by
    rwa [(hperm.map Prod.fst).mem_iff, hnames]
  have hset := ByName.set_perm (a := Json.text t.name) hnone
  have hsorted := ByName.sorted_set (ByName.sorted_ofList members) tagMember (.text t.name)
  have hvalue : Tag.ofValue? t.value = some t := by cases t <;> decide
  have hname : Tag.ofName? t.name = some t := by cases t <;> decide
  refine ⟨?_, ?_, ?_⟩
  · rw [toJson, hvalue]
    dsimp only
    rw [toJsonMembers_of_hold hm, Outcome.ok_bind]
    show (if (Json.get? (ByName.ofList members) tagMember).isSome then _ else _) = _
    rw [Json.get?_eq_none hnone]
    rfl
  · refine Json.canonical_object hsorted fun m hmem => ?_
    rcases List.mem_cons.mp (hset.mem_iff.mp hmem) with rfl | hmem
    · rfl
    · exact hm.canonical_of_mem m (hperm.mem_iff.mp hmem)
  · have hfilter := hset.filter (·.1 != tagMember)
    rw [List.filter_cons_of_neg (by simp), filter_of_not_mem hnone] at hfilter
    obtain ⟨fs, hfs, heq⟩ := hm.read_perm (hfilter.trans hperm) hn
    have hget := (Json.get?_eq_some_iff hsorted.nodup).mpr
      (hset.mem_iff.mpr List.mem_cons_self)
    rw [ofCanonical, hfs, Outcome.ok_bind, hget, tagged, hname, heq,
      ofFields_of_rising hr]

end Members

/-- A regular item of finite floats has a document that holds it. -/
theorem exists_holds {i : Item} (h : Regular (fun x => x.isFinite = true) i) :
    ∃ j, i.Holds j := by
  induction h with
  | unsigned n => exact ⟨_, rfl, rfl, rfl⟩
  | text s => exact ⟨_, rfl, rfl, rfl⟩
  | bool b => exact ⟨_, rfl, rfl, rfl⟩
  | null => exact ⟨_, rfl, rfl, rfl⟩
  | int i =>
    have hback := toInt?_int i
    unfold int at *
    split_ifs at * with hi
    · exact ⟨_, rfl, rfl, rfl⟩
    · refine ⟨.number (.int i), ?_, rfl, ?_⟩
      · rw [toJson, hback]
      · rw [ofCanonical, int, if_neg hi]
  | @float x h =>
    refine ⟨.number (.float x), ?_, rfl, rfl⟩
    rw [toJson, if_pos h]
  | @array items h ih =>
    obtain ⟨js, hjs⟩ := Outcome.exists_forall₂ ih
    refine ⟨.array js, ?_, ?_, ?_⟩
    · rw [toJson, toJsonItems_eq_mapM, Outcome.mapM_eq_ok.mpr (hjs.imp fun _ _ h => h.1)]
      rfl
    · have hcanonical : ∀ j ∈ js, j.canonical = j :=
        ((List.forall₂_and_left _ _).mp (hjs.flip.imp fun _ _ hij => ⟨hij.2.1, hij⟩)).1
      rw [Json.canonical, Json.canonicalItems_eq_map, List.map_congr_left hcanonical, List.map_id']
    · rw [ofCanonical, ofCanonicalItems_eq_mapM,
        Outcome.mapM_eq_ok.mpr (hjs.flip.imp fun _ _ h => h.2.2)]
      rfl
  | map hr hn ht h ih =>
    obtain ⟨members, hm⟩ := exists_membersHold ih
    exact ⟨_, holds_map hm hr hn ht⟩
  | tag t hr hn ht h ih =>
    obtain ⟨members, hm⟩ := exists_membersHold ih
    exact ⟨_, holds_tag hm hr hn ht t⟩

theorem ofJson_toJson {i : Item} (h : Regular (fun x => x.isFinite = true) i) :
    (i.toJson >>= ofJson) = .ok i := by
  obtain ⟨j, hjson, hcanonical, hback⟩ := exists_holds h
  rw [hjson, Outcome.ok_bind, ofJson, hcanonical, hback]

end Item
end Attest
