import Attest.Proofs.Sorting
import Attest.Proofs.Store.Conformance
import Mathlib.Data.Fintype.Basic

/-!
Which rows a condition selects.

A condition may be true of a row, false of it, or null, and only the rows of which it is true are
selected.  So a condition, its negation and the test whether it is null share out the rows of a
table among them, and a deletion keeps what the condition would not have selected.  Two rows may be
equal, so the rows are told apart by their positions.
-/

namespace Attest

namespace Predicate

variable {p : Predicate} {r : Row} {b : Option Bool}

def meets (p : Predicate) (r : Row) : Bool := (accepts (some p) r).toOption == some true

/-- A condition has a truth value on a row, or none. -/
def Judges (p : Predicate) (r : Row) : Prop := ∃ b : Option Bool, p.eval r = .ok (b.map .bool)

theorem accepts_of_eval (h : p.eval r = .ok (b.map .bool)) :
    accepts (some p) r = .ok (b == some true) := by
  unfold accepts
  dsimp only
  rw [h]
  rcases b with _ | _ | _ <;> rfl

theorem meets_of_eval (h : p.eval r = .ok (b.map .bool)) : p.meets r = (b == some true) := by
  unfold meets
  rw [accepts_of_eval h]
  rcases b with _ | _ | _ <;> rfl

theorem Judges.accepts_eq (h : p.Judges r) : accepts (some p) r = .ok (p.meets r) := by
  obtain ⟨b, hb⟩ := h
  rw [accepts_of_eval hb, meets_of_eval hb]

theorem eval_not (h : p.eval r = .ok (b.map .bool)) :
    (unary .not p).eval r = .ok ((b.map not).map .bool) := by
  unfold eval
  rw [h]
  rcases b with _ | b <;> rfl

theorem eval_isNull (h : p.eval r = .ok (b.map .bool)) :
    (isNull p false).eval r = .ok ((some b.isNone).map .bool) := by
  unfold eval
  rw [h]
  rcases b with _ | b <;> rfl

theorem judges_not (h : p.Judges r) : (unary .not p).Judges r := by
  obtain ⟨b, hb⟩ := h
  exact ⟨_, eval_not hb⟩

theorem judges_isNull (h : p.Judges r) : (isNull p false).Judges r := by
  obtain ⟨b, hb⟩ := h
  exact ⟨_, eval_isNull hb⟩

/-- Of a condition, its negation and its test for null, just one is true. -/
theorem meets_cases (h : p.Judges r) :
    (p.meets r, (unary .not p).meets r, (isNull p false).meets r) ∈
      [(true, false, false), (false, true, false), (false, false, true)] := by
  obtain ⟨b, hb⟩ := h
  rw [meets_of_eval hb, meets_of_eval (eval_not hb), meets_of_eval (eval_isNull hb)]
  rcases b with _ | _ | _ <;> decide

end Predicate

namespace Store

/-- The positions of the rows of which a condition is true. -/
def places (p : Predicate) (rows : List Row) : Finset (Fin rows.length) :=
  Finset.univ.filter fun i => p.meets (rows.get i) = true

/-- The rows at some positions, in their order. -/
def rowsAt (rows : List Row) (places : Finset (Fin rows.length)) : List Row :=
  ((List.finRange rows.length).filter (· ∈ places)).map rows.get

section Places

variable {p : Predicate} {rows : List Row}

theorem mem_places {i : Fin rows.length} : i ∈ places p rows ↔ p.meets (rows.get i) = true := by
  simp [places]

theorem rowsAt_eq_filter {places : Finset (Fin rows.length)} {f : Row → Bool}
    (h : ∀ i, i ∈ places ↔ f (rows.get i) = true) : rowsAt rows places = rows.filter f := by
  have hfilter : (fun i => decide (i ∈ places)) = f ∘ rows.get := by
    funext i
    rw [Function.comp_apply, Bool.eq_iff_iff, decide_eq_true_iff, h i]
  unfold rowsAt
  rw [hfilter, ← List.filter_map, List.map_get_finRange]

theorem rowsAt_places : rowsAt rows (places p rows) = rows.filter p.meets :=
  rowsAt_eq_filter fun _ => mem_places

theorem rowsAt_compl_places : rowsAt rows (places p rows)ᶜ = rows.filter fun r => !p.meets r :=
  rowsAt_eq_filter fun i => by simp [mem_places]

theorem length_rowsAt (places : Finset (Fin rows.length)) :
    (rowsAt rows places).length = places.card := by
  unfold rowsAt
  rw [List.length_map, ← List.toFinset_card_of_nodup ((List.nodup_finRange _).filter _)]
  congr 1
  ext i
  simp

theorem select_of_judges (h : ∀ r ∈ rows, p.Judges r) :
    select (some p) rows = .ok (rows.filter p.meets) := by
  induction rows with
  | nil => rfl
  | cons r rest ih =>
    obtain ⟨hr, hrest⟩ := List.forall_mem_cons.mp h
    rw [select, hr.accepts_eq, ih hrest, List.filter_cons]
    rfl

theorem reject_of_judges (h : ∀ r ∈ rows, p.Judges r) :
    reject (some p) rows = .ok (rows.filter fun r => !p.meets r) := by
  induction rows with
  | nil => rfl
  | cons r rest ih =>
    obtain ⟨hr, hrest⟩ := List.forall_mem_cons.mp h
    rw [reject, hr.accepts_eq, ih hrest, List.filter_cons]
    cases p.meets r <;> rfl

theorem disjoint_places {q : Predicate} (h : ∀ r ∈ rows, p.meets r = true → q.meets r = false) :
    Disjoint (places p rows) (places q rows) := by
  refine Finset.disjoint_left.mpr fun i hp hq => ?_
  rw [mem_places] at hp hq
  have := h (rows.get i) (rows.get_mem i) hp
  rw [hq] at this
  cases this

/-- The positions are shared out, none to two of the three and none to no one. -/
theorem places_partition (h : ∀ r ∈ rows, p.Judges r) :
    Disjoint (places p rows) (places (.unary .not p) rows) ∧
      Disjoint (places p rows) (places (.isNull p false) rows) ∧
        Disjoint (places (.unary .not p) rows) (places (.isNull p false) rows) ∧
          places p rows ∪ places (.unary .not p) rows ∪ places (.isNull p false) rows =
            Finset.univ := by
  have hcases := fun r hr => Predicate.meets_cases (h r hr)
  simp only [List.mem_cons, Prod.mk.injEq, List.not_mem_nil, or_false] at hcases
  refine ⟨?_, ?_, ?_, ?_⟩
  · refine disjoint_places fun r hr hp => ?_
    rcases hcases r hr with h | h | h <;> simp_all
  · refine disjoint_places fun r hr hp => ?_
    rcases hcases r hr with h | h | h <;> simp_all
  · refine disjoint_places fun r hr hp => ?_
    rcases hcases r hr with h | h | h <;> simp_all
  · ext i
    simp only [Finset.mem_union, mem_places, Finset.mem_univ, iff_true]
    rcases hcases (rows.get i) (rows.get_mem i) with h | h | h
    · exact .inl (.inl h.1)
    · exact .inl (.inr h.2.1)
    · exact .inr h.2.2

end Places

/-- A query that the store executes, with neither an order nor a limit. -/
structure Queries (n : Node) : Prop where
  kind : n.kind = .select
  verified : n.isVerified = true
  orderBy : n.orderBy = []
  limit : n.limit = none

/-- A deletion from a table, by a condition, that the store executes. -/
structure Deletes (n : Node) (table : String) (p : Predicate) : Prop where
  kind : n.kind = .delete
  table : n.table = table
  predicate : n.predicate = some p
  verified : n.isVerified = true
  provenance : n.provenance.isSome = true

variable {s : Store} {n : Node} {p : Predicate}

theorem submit_queries (hn : Queries n) (h : ∀ r ∈ s.rows n.table, p.Judges r) :
    s.submit { n with predicate := some p } =
      (.ok ⟨0, (rowsAt (s.rows n.table) (places p (s.rows n.table))).map
        fun r => r.project (n.projection.map (·.name))⟩, s) := by
  have hsort : ∀ rows : List Row,
      Sorting.sort (fun a b => rowOrder [] a b == .lt) rows = rows := fun rows =>
    Sorting.sort_of_rising (List.pairwise_of_forall fun _ _ => rfl)
  have hquery : s.query { n with predicate := some p } =
      .ok ((rowsAt (s.rows n.table) (places p (s.rows n.table))).map
        fun r => r.project (n.projection.map (·.name))) := by
    unfold query
    dsimp only
    rw [select_of_judges h, Outcome.ok_bind, hn.orderBy, hn.limit, hsort, rowsAt_places]
    rfl
  have hverified : ({ n with predicate := some p } : Node).isVerified = true := hn.verified
  unfold submit
  rw [hverified, hquery]
  dsimp only
  rw [hn.kind]
  rfl

theorem submit_deletes {table : String} (hn : Deletes n table p)
    (h : ∀ r ∈ s.rows table, p.Judges r) :
    ∃ s', s.submit n = (.ok ⟨(places p (s.rows table)).card, []⟩, s') ∧
      s'.rows table = rowsAt (s.rows table) (places p (s.rows table))ᶜ ∧
        ∀ t, t ≠ table → s'.rows t = s.rows t := by
  obtain ⟨hkind, rfl, hpredicate, hverified, hprovenance⟩ := hn
  obtain ⟨provenance, hprovenance⟩ := Option.isSome_iff_exists.mp hprovenance
  cases hlookup : s.tables.lookup n.table with
  | none =>
    have hrows : s.rows n.table = [] := by rw [Store.rows, hlookup, Option.getD_none]
    have hmutate : s.mutate n = (.ok 0, s) := by
      unfold mutate
      rw [hkind]
      dsimp only
      rw [hlookup]
    refine ⟨s.record n provenance, ?_, ?_, fun _ _ => rfl⟩
    · unfold submit
      rw [hverified, hkind, hprovenance, hmutate, hrows]
      rfl
    · show s.rows n.table = _
      rw [hrows]
      rfl
  | some rows =>
    have hrows : s.rows n.table = rows := by rw [Store.rows, hlookup, Option.getD_some]
    rw [hrows] at h ⊢
    have hcount :
        rows.length - (rows.filter fun r => !p.meets r).length = (places p rows).card := by
      rw [← length_rowsAt, rowsAt_places, List.length_eq_length_filter_add p.meets]
      omega
    have hmutate : s.mutate n = (.ok (places p rows).card,
        s.setRows n.table (rows.filter fun r => !p.meets r)) := by
      unfold mutate
      rw [hkind]
      dsimp only
      rw [hlookup, hpredicate]
      dsimp only
      rw [reject_of_judges h]
      dsimp only
      rw [hcount]
    refine ⟨(s.setRows n.table (rows.filter fun r => !p.meets r)).record n provenance, ?_, ?_, ?_⟩
    · unfold submit
      rw [hverified, hkind, hprovenance, hmutate]
      rfl
    · rw [rowsAt_compl_places]
      show (s.setRows _ _).rows n.table = _
      rw [rows_setRows, if_pos rfl]
    · intro t ht
      show (s.setRows _ _).rows t = _
      rw [rows_setRows, if_neg ht]

/-- Where a condition has a truth value on every row or none, queries by it, by its negation and by
its test for null give the rows of three sets of positions that share out the table, and a deletion
by the condition leaves the rows of all positions but those of the first. -/
theorem where_partition (hn : Queries n) (h : ∀ r ∈ s.rows n.table, p.Judges r) :
    (∀ q ∈ [p, .unary .not p, .isNull p false], s.submit { n with predicate := some q } =
      (.ok ⟨0, (rowsAt (s.rows n.table) (places q (s.rows n.table))).map
        fun r => r.project (n.projection.map (·.name))⟩, s)) ∧
    (Disjoint (places p (s.rows n.table)) (places (.unary .not p) (s.rows n.table)) ∧
      Disjoint (places p (s.rows n.table)) (places (.isNull p false) (s.rows n.table)) ∧
      Disjoint (places (.unary .not p) (s.rows n.table))
        (places (.isNull p false) (s.rows n.table)) ∧
      places p (s.rows n.table) ∪ places (.unary .not p) (s.rows n.table) ∪
        places (.isNull p false) (s.rows n.table) = Finset.univ) ∧
    ∀ d, Deletes d n.table p →
      ∃ s', s.submit d = (.ok ⟨(places p (s.rows n.table)).card, []⟩, s') ∧
        s'.rows n.table = rowsAt (s.rows n.table) (places p (s.rows n.table))ᶜ ∧
          ∀ t, t ≠ n.table → s'.rows t = s.rows t := by
  refine ⟨?_, places_partition h, fun d hd => submit_deletes hd h⟩
  intro q hq
  rw [List.mem_cons, List.mem_cons, List.mem_singleton] at hq
  rcases hq with rfl | rfl | rfl
  · exact submit_queries hn h
  · exact submit_queries hn fun r hr => Predicate.judges_not (h r hr)
  · exact submit_queries hn fun r hr => Predicate.judges_isNull (h r hr)

/-- Two rows that are equal, one without a value, and one with another. -/
def fourRows : Store :=
  { tables := [("t", [[("a", .nat 4)], [], [("a", .nat 0)], [("a", .nat 4)]])] }

/-- `a = 4` -/
def isFour : Predicate := .binary .eq (.column ⟨"a", .nat⟩) (.literal ⟨.nat, .nat 4, rfl⟩)

/-- `SELECT a FROM t` -/
def asksA : Node where
  kind := .select
  table := "t"
  cells := []
  projection := [⟨"a", .nat⟩]
  predicate := none
  orderBy := []
  limit := none
  normalForm := none
  provenance := none
  access := ⟨none, .explicit, [.nat]⟩

/-- `DELETE FROM t WHERE a = 4` -/
def dropsFours : Node :=
  { asksA with
    kind := .delete
    predicate := some isFour
    provenance := some ⟨"x", 2, "z", by decide⟩ }

theorem fourRows_partition :
    (∀ r ∈ fourRows.rows "t", isFour.Judges r) ∧
      (fourRows.submit { asksA with predicate := some isFour }).1 =
        .ok ⟨0, [[("a", .nat 4)], [("a", .nat 4)]]⟩ ∧
      ∃ s', fourRows.submit dropsFours = (.ok ⟨2, []⟩, s') ∧
        s'.rows "t" = [[], [("a", .nat 0)]] := by
  have hjudges : ∀ r ∈ fourRows.rows "t", isFour.Judges r := by
    intro r hr
    have hr : r ∈ [[("a", .nat 4)], [], [("a", .nat 0)], [("a", .nat 4)]] := hr
    simp only [List.mem_cons, List.not_mem_nil, or_false] at hr
    rcases hr with rfl | rfl | rfl | rfl
    · exact ⟨some true, rfl⟩
    · exact ⟨none, rfl⟩
    · exact ⟨some false, rfl⟩
    · exact ⟨some true, rfl⟩
  obtain ⟨hquery, -, hdelete⟩ := where_partition (n := asksA) ⟨rfl, rfl, rfl, rfl⟩ hjudges
  obtain ⟨s', hs', hrows, -⟩ := hdelete dropsFours ⟨rfl, rfl, rfl, rfl, rfl⟩
  refine ⟨hjudges, ?_, s', hs', hrows⟩
  rw [hquery isFour List.mem_cons_self]
  rfl

end Store
end Attest
