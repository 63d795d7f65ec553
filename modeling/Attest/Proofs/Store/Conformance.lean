import Attest.Proofs.ByName
import Attest.Proofs.Compiler
import Attest.Proofs.Predicate.Safety
import Attest.Proofs.Store.Failure
import Attest.Proofs.Ty.Same

/-!
What a store holds that compiled statements have filled.

Every value was checked for the type of its column before it came into a node, and no step makes
rows of anything but the cells of nodes.  So the rows are of their schema at all times, also behind
an update that stopped halfway.
-/

namespace Attest

namespace Schema

theorem nodup_of_repeated? {seen names : List String} (h : repeated? seen names = none) :
    names.Nodup ∧ ∀ n ∈ names, n ∉ seen := by
  induction names generalizing seen with
  | nil => simp
  | cons n rest ih =>
    unfold repeated? at h
    split at h
    · cases h
    · next hn =>
      rw [List.contains_iff_mem] at hn
      obtain ⟨hnodup, hseen⟩ := ih h
      rw [List.nodup_cons, List.forall_mem_cons]
      exact ⟨⟨fun hmem => hseen n hmem List.mem_cons_self, hnodup⟩, hn,
        fun m hm hmem => hseen m hm (List.mem_cons_of_mem n hmem)⟩

theorem nodup_names (s : Schema) : (s.columns.map (·.name)).Nodup := by
  have h := s.valid
  unfold fault? at h
  split_ifs at h
  exact (nodup_of_repeated? (Option.map_eq_none_iff.mp h)).1

/-- A name is that of one column only. -/
theorem column?_of_mem {s : Schema} {c : Column} (h : c ∈ s.columns) :
    s.column? c.name = some c := by
  have hnodup := s.nodup_names
  unfold column?
  generalize s.columns = columns at h hnodup
  induction columns with
  | nil => cases h
  | cons d rest ih =>
    rw [List.map_cons, List.nodup_cons] at hnodup
    rcases List.mem_cons.mp h with rfl | h
    · simp
    · have hne : d.name ≠ c.name := fun heq => hnodup.1 (heq ▸ List.mem_map_of_mem h)
      rw [List.find?_cons, beq_false_of_ne hne]
      exact ih h hnodup.2

/-- A row has no columns but those of the schema, and values of their types. -/
structure Conforms (s : Schema) (r : Row) : Prop where
  columns : ∀ name ∈ r.names, (s.column? name).isSome = true
  fits : s.Fits r

/-- A cell that a row of the schema may have. -/
def Takes (s : Schema) (cell : String × Value) : Prop :=
  ∃ c, s.column? cell.1 = some c ∧ (c.ty.decide cell.2).isHolds = true

variable {s : Schema} {r : Row}

theorem conforms_nil (s : Schema) : s.Conforms [] :=
  ⟨by simp [ByName.names], by simp [Fits, ByName.get?]⟩

theorem Conforms.set (h : s.Conforms r) {cell : String × Value} (hcell : s.Takes cell) :
    s.Conforms (ByName.set cell.1 cell.2 r) := by
  obtain ⟨c, hc, hholds⟩ := hcell
  constructor
  · intro name hname
    rcases ByName.mem_names_set.mp hname with rfl | hname
    · rw [hc]
      rfl
    · exact h.columns name hname
  · intro d hd v hv
    rw [ByName.get?_set] at hv
    split at hv
    · next hname =>
      rw [← hname, column?_of_mem hd] at hc
      cases hc
      cases hv
      exact hholds
    · exact h.fits d hd v hv

theorem Conforms.setAll (h : s.Conforms r) {cells : List (String × Value)}
    (hcells : ∀ cell ∈ cells, s.Takes cell) : s.Conforms (r.setAll cells) := by
  induction cells generalizing r with
  | nil => exact h
  | cons cell cells ih =>
    obtain ⟨hcell, hcells⟩ := List.forall_mem_cons.mp hcells
    exact ih (h.set hcell) hcells

end Schema

namespace Store

theorem lookup_put (table : String) (rows : List Row) (tables : List (String × List Row))
    (t : String) :
    (put table rows tables).lookup t = if t = table then some rows else tables.lookup t := by
  induction tables with
  | nil =>
    by_cases ht : t = table
    · simp [put, ht]
    · simp [put, List.lookup_cons, beq_false_of_ne ht, ht]
  | cons e rest ih =>
    obtain ⟨name, rs⟩ := e
    by_cases hname : name = table
    · subst hname
      by_cases ht : t = name
      · simp [put, ht]
      · simp [put, List.lookup_cons, beq_false_of_ne ht, ht]
    · by_cases ht : t = table
      · subst ht
        simp [put, List.lookup_cons, hname, beq_false_of_ne (Ne.symm hname), ih]
      · simp [put, List.lookup_cons, hname, ih, ht]

theorem rows_setRows (s : Store) (table : String) (rows : List Row) (t : String) :
    (s.setRows table rows).rows t = if t = table then rows else s.rows t := by
  unfold Store.rows setRows
  rw [lookup_put]
  split <;> rfl

theorem mem_update {p : Option Predicate} {cells : List (String × Value)} {rows : List Row}
    {r : Row} (h : r ∈ (update p cells rows).1) :
    r ∈ rows ∨ ∃ old ∈ rows, r = old.setAll cells := by
  induction rows with
  | nil => cases h
  | cons row rest ih =>
    cases ha : Predicate.accepts p row with
    | error e =>
      rw [update_cons_error ha] at h
      exact .inl h
    | ok keep =>
      rw [update_cons_ok ha] at h
      rcases List.mem_cons.mp h with rfl | h
      · unfold written
        split
        · exact .inr ⟨row, List.mem_cons_self, rfl⟩
        · exact .inl List.mem_cons_self
      · rcases ih h with hmem | ⟨old, hold, rfl⟩
        · exact .inl (List.mem_cons_of_mem row hmem)
        · exact .inr ⟨old, List.mem_cons_of_mem row hold, rfl⟩

theorem sublist_reject {p : Option Predicate} {rows kept : List Row}
    (h : reject p rows = .ok kept) : kept.Sublist rows := by
  induction rows generalizing kept with
  | nil =>
    cases h
    exact .slnil
  | cons row rest ih =>
    obtain ⟨drop, -, h⟩ := Outcome.bind_eq_ok.mp h
    obtain ⟨more, hmore, h⟩ := Outcome.bind_eq_ok.mp h
    cases h
    split
    · exact (ih hmore).cons row
    · exact (ih hmore).cons_cons row

/-- A row is one of before, or it has got cells: a row of before, or a new one. -/
def Stems (rows : List Row) (cells : List (String × Value)) (r : Row) : Prop :=
  r ∈ rows ∨ ∃ old : Row, (old = [] ∨ old ∈ rows) ∧ r = old.setAll cells

variable {s : Store} {n : Node} {table : String} {r : Row}

/-- The rows that are put into a table are all that changes. -/
theorem stems_setRows {rows : List Row} {cells : List (String × Value)}
    (hrows : ∀ r ∈ rows, Stems (s.rows n.table) cells r)
    (h : r ∈ (s.setRows n.table rows).rows table) : Stems (s.rows table) cells r := by
  rw [rows_setRows] at h
  split at h
  · next htable => exact htable ▸ hrows r h
  · exact .inl h

theorem stems_mutate (h : r ∈ (s.mutate n).2.rows table) :
    Stems (s.rows table) (cellsOf n) r := by
  unfold mutate at h
  split at h
  · refine stems_setRows (fun r hr => ?_) h
    rcases List.mem_append.mp hr with hr | hr
    · exact .inl hr
    · exact .inr ⟨[], .inl rfl, List.mem_singleton.mp hr⟩
  · split at h
    · exact .inl h
    · next rows hrows =>
      have hold : s.rows n.table = rows := by rw [Store.rows, hrows, Option.getD_some]
      -- whether it stops or not, what it has written so far stays
      have hnew : r ∈ (s.setRows n.table (update n.predicate (cellsOf n) rows).1).rows table := by
        dsimp only at h
        split at h <;> exact h
      refine stems_setRows (fun r hr => ?_) hnew
      rcases mem_update hr with hr | ⟨old, hmem, rfl⟩
      · exact .inl (hold ▸ hr)
      · exact .inr ⟨old, .inr (hold ▸ hmem), rfl⟩
  · split at h
    · exact .inl h
    · next rows hrows =>
      have hold : s.rows n.table = rows := by rw [Store.rows, hrows, Option.getD_some]
      split at h
      · exact .inl h
      · next kept hkept =>
        exact stems_setRows (fun r hr => .inl (hold ▸ (sublist_reject hkept).mem hr)) h
  · exact .inl h
  · exact .inl h

theorem stems_submit (h : r ∈ (s.submit n).2.rows table) :
    Stems (s.rows table) (cellsOf n) r := by
  unfold submit at h
  split at h
  · exact .inl h
  · split at h
    · split at h <;> exact .inl h
    · split at h
      · exact .inl h
      · split at h
        · next heq =>
          refine stems_mutate (n := n) ?_
          rw [heq]
          exact h
        · next heq =>
          refine stems_mutate (n := n) ?_
          rw [heq]
          exact h

end Store

/-- Every value of a compiled node is of the type of its column. -/
theorem Compiler.takes_of_compile {c : Compiler} (hc : c.Reachable) {now : UInt64}
    {cancel : Cancellation} {r : Request} {schema : Schema} {profile : Profile} {out : Output}
    (h : (c.compile now cancel r schema profile).1 = .ok out) :
    ∀ cell ∈ Store.cellsOf out.node, schema.Takes cell := by
  obtain ⟨st, t, p, n, ht, hn, hnode, -, -⟩ := compile_eq_ok h
  obtain ⟨provenance, q, -, -, rfl⟩ := Node.lower_eq_ok hc.cache.faithful hn
  intro cell hcell
  rw [hnode] at hcell
  obtain ⟨_, hmem, rfl⟩ := List.mem_map.mp hcell
  obtain ⟨a, ha, rfl⟩ := List.mem_map.mp hmem
  obtain ⟨d, hd, hname, htype⟩ := (Checker.about_of_check ht).assignments a ha
  refine ⟨d, ?_, ?_⟩
  · show schema.column? a.column = some d
    rw [hname, Schema.column?_of_mem hd]
  · rcases htype with heq | hsame
    · exact heq ▸ a.value.fits
    · exact Ty.isHolds_of_same hsame a.value.fits

namespace Store

/-- Stores as compiled statements of one schema leave them: empty at first, and then whatever the
node of a statement leaves, also one that fails. -/
inductive Reachable (schema : Schema) : Store → Prop where
  | empty : Reachable schema {}
  | submit {s : Store} (h : Reachable schema s) {c : Compiler} (hc : c.Reachable) {now : UInt64}
      {cancel : Cancellation} {r : Request} {profile : Profile} {out : Output}
      (hout : (c.compile now cancel r schema profile).1 = .ok out) :
      Reachable schema (s.submit out.node).2

theorem conforms_submit {schema : Schema} {s : Store} {n : Node}
    (hs : ∀ table, ∀ r ∈ s.rows table, schema.Conforms r)
    (hn : ∀ cell ∈ cellsOf n, schema.Takes cell) (table : String) :
    ∀ r ∈ (s.submit n).2.rows table, schema.Conforms r := by
  intro r hr
  rcases stems_submit hr with hr | ⟨old, rfl | hold, rfl⟩
  · exact hs table r hr
  · exact schema.conforms_nil.setAll hn
  · exact (hs table old hold).setAll hn

/-- Compiled statements leave rows of the schema in every table, however many there were and
whether they failed or not. -/
theorem conforms_of_reachable {schema : Schema} {s : Store} (h : Reachable schema s)
    (table : String) : ∀ r ∈ s.rows table, schema.Conforms r := by
  induction h generalizing table with
  | empty =>
    intro r hr
    cases hr
  | submit _ hc hout ih => exact conforms_submit ih (Compiler.takes_of_compile hc hout) table

end Store

def Schema.guests : Schema where
  name := "guests"
  columns := [⟨"age", .boundedNat 0 150, false, false⟩, ⟨"name", .nonEmptyString, true, true⟩]
  valid := rfl

namespace Store

/-- What a statement about guests does to a store, if it compiles. -/
def tell (s : Store) (source : String) : Store :=
  match ((Compiler.ofConfig default).compile 11 none ⟨source, "host", {}, none⟩ .guests
      (.unrestricted "host")).1 with
  | .ok out => (s.submit out.node).2
  | .error _ => s

theorem Reachable.tell {s : Store} (h : Reachable .guests s) (source : String) :
    Reachable .guests (s.tell source) := by
  unfold Store.tell
  split
  · next hout => exact h.submit (.ofConfig default) hout
  · exact h

theorem Reachable.foldl_tell {s : Store} (h : Reachable .guests s) (sources : List String) :
    Reachable .guests (sources.foldl Store.tell s) := by
  induction sources generalizing s with
  | nil => exact h
  | cons source sources ih => exact ih (h.tell source)

/-- Two guests, of whom the first is renamed before the age of the second stops the update. -/
def renamed : Store :=
  [ "INSERT INTO guests SET name = \"Ada\", age = 36 ACTOR \"host\" RATIONALE \"came\"",
    "INSERT INTO guests SET age = 0, name = \"Bo\" ACTOR \"host\" RATIONALE \"born\"",
    "UPDATE guests SET name = \"Lady Ada\" WHERE 36 / age = 1 ACTOR \"host\" RATIONALE \"x\""
  ].foldl tell {}

theorem renamed_conforms :
    ((renamed.rows "guests").map fun r => (r.get? "name").map Value.render) =
        [some "\"Lady Ada\"", some "\"Bo\""] ∧
      ∀ r ∈ renamed.rows "guests", Schema.guests.Conforms r :=
  ⟨by decide +kernel, conforms_of_reachable (Reachable.empty.foldl_tell _) "guests"⟩

end Store
end Attest
