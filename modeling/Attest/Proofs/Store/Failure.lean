import Attest.Store

/-!
What is left of a store when a node fails.

Queries and rejected nodes change nothing, a deletion replaces the rows only when all of them have
been looked at, and an insertion cannot fail.  An update writes row by row, so the rows before the
one on which its condition has no value keep what was written to them, and no entry of the log
tells of it.  `Store.Torn` says exactly when that shows.
-/

namespace Attest
namespace Store

def written (p : Option Predicate) (cells : List (String × Value)) (r : Row) : Row :=
  match Predicate.accepts p r with
  | .ok true => r.setAll cells
  | _ => r

theorem update_cons_error {p : Option Predicate} {cells : List (String × Value)} {row : Row}
    {rest : List Row} {e : EvalError} (h : Predicate.accepts p row = .error e) :
    update p cells (row :: rest) = (row :: rest, 0, some e) := by
  simp [update, h]

theorem update_cons_ok {p : Option Predicate} {cells : List (String × Value)} {row : Row}
    {rest : List Row} {keep : Bool} (h : Predicate.accepts p row = .ok keep) :
    update p cells (row :: rest) =
      (written p cells row :: (update p cells rest).1,
        if keep then (update p cells rest).2.1 + 1 else (update p cells rest).2.1,
        (update p cells rest).2.2) := by
  cases keep <;> simp [update, written, h]

/-- The first row on which a condition has no value, with what comes before and after it. -/
structure Stop (p : Option Predicate) (rows before : List Row) (r : Row) (after : List Row)
    (e : EvalError) : Prop where
  split : rows = before ++ r :: after
  fails : Predicate.accepts p r = .error e
  passed : ∀ b ∈ before, ∃ keep, Predicate.accepts p b = .ok keep

/-- An update stops at the first row on which its condition has no value, and has written to the
rows before it. -/
theorem update_error_iff {p : Option Predicate} {cells : List (String × Value)}
    {rows out : List Row} {e : EvalError} :
    (update p cells rows).2.2 = some e ∧ (update p cells rows).1 = out ↔
      ∃ before r after, Stop p rows before r after e ∧
        out = before.map (written p cells) ++ r :: after := by
  induction rows generalizing out with
  | nil =>
    constructor
    · rintro ⟨h, -⟩
      cases h
    · rintro ⟨before, r, after, hs, -⟩
      cases before <;> cases hs.split
  | cons row rest ih =>
    cases ha : Predicate.accepts p row with
    | error why =>
      rw [update_cons_error ha]
      constructor
      · rintro ⟨he, rfl⟩
        cases he
        exact ⟨[], row, rest, ⟨rfl, ha, by simp⟩, rfl⟩
      · rintro ⟨before, r, after, hs, rfl⟩
        cases before with
        | nil =>
          obtain ⟨rfl, rfl⟩ := List.cons.inj hs.split
          have hw : why = e := by simpa [ha] using hs.fails
          exact ⟨by rw [hw], rfl⟩
        | cons b before =>
          obtain ⟨rfl, -⟩ := List.cons.inj hs.split
          obtain ⟨keep, hk⟩ := hs.passed row List.mem_cons_self
          rw [ha] at hk
          cases hk
    | ok keep =>
      rw [update_cons_ok ha]
      constructor
      · rintro ⟨he, rfl⟩
        obtain ⟨before, r, after, hs, ho⟩ := ih.mp ⟨he, rfl⟩
        refine ⟨row :: before, r, after, ⟨by rw [hs.split]; rfl, hs.fails, ?_⟩, ?_⟩
        · intro b hb
          rcases List.mem_cons.mp hb with rfl | hb
          · exact ⟨keep, ha⟩
          · exact hs.passed b hb
        · show written p cells row :: (update p cells rest).1 = _
          rw [ho]
          rfl
      · rintro ⟨before, r, after, hs, rfl⟩
        cases before with
        | nil =>
          obtain ⟨rfl, -⟩ := List.cons.inj hs.split
          have hf := hs.fails
          rw [ha] at hf
          cases hf
        | cons b before =>
          obtain ⟨rfl, hrest⟩ := List.cons.inj hs.split
          have hs' : Stop p rest before r after e :=
            ⟨hrest, hs.fails, fun c hc => hs.passed c (List.mem_cons_of_mem _ hc)⟩
          obtain ⟨he, ho⟩ := ih.mpr ⟨before, r, after, hs', rfl⟩
          refine ⟨he, ?_⟩
          show written p cells row :: (update p cells rest).1 = _
          rw [ho]
          rfl

/-- Putting rows into a table that exists changes nothing only if they are its rows. -/
theorem put_eq_self_iff {table : String} {rows rows' : List Row}
    {tables : List (String × List Row)} (h : tables.lookup table = some rows) :
    put table rows' tables = tables ↔ rows' = rows := by
  induction tables with
  | nil => cases h
  | cons t rest ih =>
    obtain ⟨name, rs⟩ := t
    by_cases hn : name = table
    · subst hn
      have hr : rs = rows := by simpa using h
      simp [put, hr]
    · have hb : (table == name) = false := by simpa using fun e : table = name => hn e.symm
      have hl : rest.lookup table = some rows := by simpa [List.lookup_cons, hb] using h
      simp [put, hn, ih hl]

/-- An update of a node stops at a row behind one that it has changed. -/
structure Torn (s : Store) (n : Node) : Prop where
  kind : n.kind = .update
  verified : n.isVerified = true
  provenance : n.provenance.isSome = true
  stops : ∃ rows before r after e, s.tables.lookup n.table = some rows ∧
    Stop n.predicate rows before r after e ∧
      ∃ b ∈ before, Predicate.accepts n.predicate b = .ok true ∧ b.setAll (cellsOf n) ≠ b

theorem map_written_eq_self_iff {p : Option Predicate} {cells : List (String × Value)}
    {rows : List Row} :
    rows.map (written p cells) = rows ↔
      ∀ r ∈ rows, Predicate.accepts p r = .ok true → r.setAll cells = r := by
  induction rows with
  | nil => simp
  | cons row rest ih =>
    have hw : written p cells row = row ↔
        (Predicate.accepts p row = .ok true → row.setAll cells = row) := by
      unfold written
      split
      · next ha => simp [ha]
      · next hne => exact ⟨fun _ h => absurd h (hne ·), fun _ => rfl⟩
    rw [List.map_cons, List.cons.injEq, hw, ih]
    simp

/-- What a failed change does to the store: only an update does anything, and that to the rows
before the one it stops at. -/
theorem mutate_error {s s' : Store} {n : Node} {e : EvalError}
    (h : s.mutate n = (.error e, s')) :
    s' = s ∨ n.kind = .update ∧ ∃ rows before r after, s.tables.lookup n.table = some rows ∧
      Stop n.predicate rows before r after e ∧
        s' = s.setRows n.table (before.map (written n.predicate (cellsOf n)) ++ r :: after) := by
  unfold mutate at h
  split at h
  · cases h
  · next hk =>
    split at h
    · cases h
    · next rows hl =>
      right
      cases hu : (update n.predicate (cellsOf n) rows).2.2 with
      | none => simp [hu] at h
      | some why =>
        simp only [hu, Prod.mk.injEq, Except.error.injEq] at h
        obtain ⟨rfl, rfl⟩ := h
        obtain ⟨before, r, after, hs, ho⟩ := update_error_iff.mp ⟨hu, rfl⟩
        exact ⟨hk, rows, before, r, after, hl, hs, by rw [ho]⟩
  · split at h
    · cases h
    · split at h
      · left
        cases h
        rfl
      · cases h
  · cases h
  · cases h

/-- What a failed node leaves: the store as it was, or an update that has stopped. -/
theorem submit_error {s s' : Store} {n : Node} {e : ExecutionError}
    (h : s.submit n = (.error e, s')) :
    s' = s ∨ n.kind = .update ∧ n.isVerified = true ∧ n.provenance.isSome = true ∧
      ∃ rows before r after why, s.tables.lookup n.table = some rows ∧
        Stop n.predicate rows before r after why ∧
          s' = s.setRows n.table (before.map (written n.predicate (cellsOf n)) ++ r :: after) := by
  unfold submit at h
  split at h
  · left
    cases h
    rfl
  · next hv =>
    split at h
    · split at h
      · cases h
      · left
        cases h
        rfl
    · split at h
      · left
        cases h
        rfl
      · next p hp =>
        split at h
        · next why t hm =>
          cases h
          rcases mutate_error hm with hs | ⟨hk, rows, before, r, after, hl, hstop, hs⟩
          · exact .inl hs
          · exact .inr ⟨hk, by simpa using hv, by rw [hp]; rfl, rows, before, r, after, why, hl,
              hstop, hs⟩
        · cases h

/-- An update that stops at a row leaves behind what it has written before. -/
theorem submit_of_stop {s : Store} {n : Node} {rows before after : List Row} {r : Row}
    {e : EvalError} (hk : n.kind = .update) (hv : n.isVerified = true)
    (hp : n.provenance.isSome = true) (hl : s.tables.lookup n.table = some rows)
    (hs : Stop n.predicate rows before r after e) :
    s.submit n = (.error (.evaluation e),
      s.setRows n.table (before.map (written n.predicate (cellsOf n)) ++ r :: after)) := by
  obtain ⟨he, ho⟩ := update_error_iff.mpr
    ⟨before, r, after, hs, Eq.refl (before.map (written n.predicate (cellsOf n)) ++ r :: after)⟩
  obtain ⟨p, hp⟩ := Option.isSome_iff_exists.mp hp
  simp [submit, mutate, hv, hk, hp, hl, he, ho]

/-- A node that fails writes nothing to the log, and it changes the tables exactly if it is an
update that stops behind a row that it has changed. -/
theorem submit_error_tables_eq_iff {s s' : Store} {n : Node} {e : ExecutionError}
    (h : s.submit n = (.error e, s')) :
    s'.audit = s.audit ∧ (s'.tables = s.tables ↔ ¬ s.Torn n) := by
  constructor
  · rcases submit_error h with rfl | ⟨-, -, -, rows, before, r, after, why, -, -, rfl⟩ <;> rfl
  · constructor
    · rintro ht ⟨hk, hv, hp, rows, before, r, after, why, hl, hs, b, hb, hacc, hne⟩
      rw [submit_of_stop hk hv hp hl hs] at h
      cases h
      have hrows := (put_eq_self_iff hl).mp ht
      rw [hs.split, List.append_cancel_right_eq] at hrows
      exact hne (map_written_eq_self_iff.mp hrows b hb hacc)
    · intro ht
      rcases submit_error h with rfl | ⟨hk, hv, hp, rows, before, r, after, why, hl, hs, rfl⟩
      · rfl
      · have hw : before.map (written n.predicate (cellsOf n)) = before := by
          refine map_written_eq_self_iff.mpr fun b hb hacc =>
            Classical.byContradiction fun hne => ?_
          exact ht ⟨hk, hv, hp, rows, before, r, after, why, hl, hs, b, hb, hacc, hne⟩
        refine (put_eq_self_iff hl).mpr ?_
        rw [hw, hs.split]

/-- Two rows, of which the second makes `1 / a` fail. -/
def twoRows : Store := { tables := [("t", [[("a", .nat 1)], [("a", .nat 0)]])] }

/-- `UPDATE t SET a = 7 WHERE 1 / a = 1`. -/
def setSeven : Node where
  kind := .update
  table := "t"
  cells := [⟨"a", ⟨.nat, .nat 7, rfl⟩, ⟨.structural, .nat, "", true⟩, .inferred⟩]
  projection := []
  predicate := some (.binary .eq
    (.binary .div (.literal ⟨.nat, .nat 1, rfl⟩) (.column ⟨"a", .nat⟩))
    (.literal ⟨.nat, .nat 1, rfl⟩))
  orderBy := []
  limit := none
  normalForm := none
  provenance := some ⟨"x", 1, "y", by decide⟩
  access := ⟨none, .inferred, [.nat]⟩

theorem submit_setSeven :
    (twoRows.submit setSeven).1 = .error (.evaluation .divisionByZero) ∧
      (twoRows.submit setSeven).2.audit = [] ∧
      (twoRows.submit setSeven).2.tables ≠ twoRows.tables := by
  have h : twoRows.submit setSeven = (.error (.evaluation .divisionByZero),
      { tables := [("t", [[("a", .nat 7)], [("a", .nat 0)]])] }) := rfl
  have hf := submit_error_tables_eq_iff h
  rw [h]
  refine ⟨rfl, hf.1, fun ht => hf.2.mp ht ⟨rfl, rfl, rfl, ?_⟩⟩
  refine ⟨_, [[("a", .nat 1)]], [("a", .nat 0)], [], .divisionByZero, rfl, ⟨rfl, rfl, ?_⟩,
    [("a", .nat 1)], List.mem_cons_self, rfl, ?_⟩
  · intro b hb
    rw [List.mem_singleton.mp hb]
    exact ⟨true, rfl⟩
  · intro hb
    cases hb

end Store
end Attest
