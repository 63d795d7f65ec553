import Attest.Proofs.Store.Partition

/-!
What a node that succeeds does to a store.

One table changes at most, and in it the rows of which the condition of the node is true.  An update
looks at every row before it writes to it and never comes back to one, so the rows that it picks are
those of which the condition was true before.
-/

namespace Attest

namespace Predicate

/-- Whether a condition is true of a row, if there is one. -/
def picks (p : Option Predicate) (r : Row) : Bool := p.all (·.meets r)

theorem meets_iff {p : Predicate} {r : Row} :
    p.meets r = true ↔ p.eval r = .ok (some (.bool true)) := by
  unfold meets accepts
  dsimp only
  split
  · next e he => simp [he, Except.toOption]
  · next he => simp [he, Except.toOption]
  · next v hne hv =>
    constructor
    · intro h
      simp [Except.toOption] at h
    · intro h
      rw [h] at hv
      cases hv
      exact absurd rfl hne

theorem picks_iff {p : Option Predicate} {r : Row} :
    picks p r = true ↔ ∀ q ∈ p, q.eval r = .ok (some (.bool true)) := by
  unfold picks
  rw [Option.all_eq_true]
  exact forall₂_congr fun q _ => meets_iff

theorem picks_of_accepts {p : Option Predicate} {r : Row} {keep : Bool}
    (h : accepts p r = .ok keep) : picks p r = keep := by
  cases p with
  | none =>
    cases h
    rfl
  | some p =>
    show p.meets r = keep
    unfold meets
    rw [h]
    cases keep <;> rfl

theorem accepts_of_picks {p : Option Predicate} {r : Row} (h : picks p r = true) :
    accepts p r = .ok true := by
  cases p with
  | none => rfl
  | some p =>
    have heval := picks_iff.mp h p rfl
    unfold accepts
    dsimp only
    rw [heval]

end Predicate

namespace Store

section Rows

variable {p : Option Predicate} {cells : List (String × Value)} {rows kept : List Row}

/-- An update that does not stop has written to every row that its condition picks. -/
theorem update_of_none (h : (update p cells rows).2.2 = none) :
    (update p cells rows).1 = rows.map (written p cells) ∧
      (update p cells rows).2.1 = rows.countP (Predicate.picks p) := by
  induction rows with
  | nil => exact ⟨rfl, rfl⟩
  | cons row rest ih =>
    cases ha : Predicate.accepts p row with
    | error e =>
      rw [update_cons_error ha] at h
      cases h
    | ok keep =>
      rw [update_cons_ok ha] at h ⊢
      obtain ⟨hrows, hcount⟩ := ih h
      refine ⟨congrArg (written p cells row :: ·) hrows, ?_⟩
      rw [List.countP_cons, Predicate.picks_of_accepts ha, ← hcount]
      cases keep <;> rfl

theorem eq_filter_of_reject (h : reject p rows = .ok kept) :
    kept = rows.filter fun r => !Predicate.picks p r := by
  induction rows generalizing kept with
  | nil =>
    cases h
    rfl
  | cons row rest ih =>
    obtain ⟨drop, hdrop, h⟩ := Outcome.bind_eq_ok.mp h
    obtain ⟨more, hmore, h⟩ := Outcome.bind_eq_ok.mp h
    cases h
    rw [List.filter_cons, Predicate.picks_of_accepts hdrop, ← ih hmore]
    cases drop <;> rfl

theorem length_sub_length_filter (f : Row → Bool) (rows : List Row) :
    rows.length - (rows.filter fun r => !f r).length = rows.countP f := by
  have hsplit := List.length_eq_length_filter_add (l := rows) f
  rw [List.countP_eq_length_filter]
  omega

end Rows

/-- What the table of a node holds behind it.  Only an insertion makes a table. -/
def behind (s : Store) (n : Node) : Option (List Row) :=
  match n.kind with
  | .insert => some (s.rows n.table ++ [ByName.ofList (cellsOf n)])
  | .update => (s.tables.lookup n.table).map (List.map (written n.predicate (cellsOf n)))
  | .delete =>
    (s.tables.lookup n.table).map (List.filter fun r => !Predicate.picks n.predicate r)
  | .normalize => s.tables.lookup n.table
  | .select => s.tables.lookup n.table

def touched (s : Store) (n : Node) : Nat :=
  match n.kind with
  | .insert => 1
  | .update => (s.rows n.table).countP (Predicate.picks n.predicate)
  | .delete => (s.rows n.table).countP (Predicate.picks n.predicate)
  | .normalize => 0
  | .select => 0

variable {s s' : Store} {n : Node} {count : Nat}

theorem lookup_setRows (s : Store) (table : String) (rows : List Row) (t : String) :
    (s.setRows table rows).tables.lookup t = if t = table then some rows else s.tables.lookup t :=
  lookup_put table rows s.tables t

theorem rows_of_lookup {table : String} {rows : List Row} (h : s.tables.lookup table = some rows) :
    s.rows table = rows := by
  rw [Store.rows, h, Option.getD_some]

/-- A table that a node leaves as it was, or that does not exist, is as it would be. -/
theorem lookup_of_behind (h : s.behind n = s.tables.lookup n.table) (t : String) :
    s.tables.lookup t = if t = n.table then s.behind n else s.tables.lookup t := by
  by_cases ht : t = n.table
  · rw [if_pos ht, h, ht]
  · rw [if_neg ht]

/-- A change that does not fail leaves everything but the table of its node alone. -/
theorem mutate_ok (h : s.mutate n = (.ok count, s')) :
    count = s.touched n ∧ s'.audit = s.audit ∧
      ∀ t, s'.tables.lookup t = if t = n.table then s.behind n else s.tables.lookup t := by
  unfold mutate at h
  split at h
  · next hk =>
    cases h
    refine ⟨by rw [touched, hk], rfl, fun t => ?_⟩
    rw [lookup_setRows, behind, hk]
  · next hk =>
    split at h
    · next hnone =>
      cases h
      refine ⟨by rw [touched, hk, Store.rows, hnone]; rfl, rfl, lookup_of_behind ?_⟩
      rw [behind, hk, hnone]
      rfl
    · next rows hrows =>
      dsimp only at h
      split at h
      · cases h
      · next hnone =>
        cases h
        obtain ⟨hnew, hcount⟩ := update_of_none hnone
        refine ⟨?_, rfl, fun t => ?_⟩
        · rw [hcount, touched, hk, rows_of_lookup hrows]
        · rw [lookup_setRows, behind, hk, hrows, hnew]
          rfl
  · next hk =>
    split at h
    · next hnone =>
      cases h
      refine ⟨by rw [touched, hk, Store.rows, hnone]; rfl, rfl, lookup_of_behind ?_⟩
      rw [behind, hk, hnone]
      rfl
    · next rows hrows =>
      split at h
      · cases h
      · next kept hkept =>
        cases h
        have hnew := eq_filter_of_reject hkept
        refine ⟨?_, rfl, fun t => ?_⟩
        · rw [hnew, length_sub_length_filter, touched, hk, rows_of_lookup hrows]
        · rw [lookup_setRows, behind, hk, hrows, hnew]
          rfl
  · next hk =>
    cases h
    exact ⟨by rw [touched, hk], rfl, lookup_of_behind (by rw [behind, hk])⟩
  · next hk =>
    cases h
    exact ⟨by rw [touched, hk], rfl, lookup_of_behind (by rw [behind, hk])⟩

/-- What becomes of a row that a node updates: if its condition is true of the row, the columns that
it assigns have its last values for them, and nothing else changes. -/
def Rewrites (n : Node) (r r' : Row) : Prop :=
  if Predicate.picks n.predicate r then
    ∀ name, r'.get? name = ((cellsOf n).reverse.lookup name).or (r.get? name)
  else r' = r

/-- What a node does to a store that executes it. -/
structure Effect (s : Store) (n : Node) (affected : Nat) (s' : Store) : Prop where
  elsewhere : ∀ t, t ≠ n.table → s'.tables.lookup t = s.tables.lookup t
  made : (s'.tables.lookup n.table).isSome = true ↔
    (s.tables.lookup n.table).isSome = true ∨ n.kind = .insert
  insert : n.kind = .insert → affected = 1 ∧ ∃ row, s'.rows n.table = s.rows n.table ++ [row] ∧
    ∀ name, row.get? name = (cellsOf n).reverse.lookup name
  update : n.kind = .update → affected = (s.rows n.table).countP (Predicate.picks n.predicate) ∧
    List.Forall₂ (Rewrites n) (s.rows n.table) (s'.rows n.table)
  delete : n.kind = .delete → affected = (s.rows n.table).countP (Predicate.picks n.predicate) ∧
    s'.rows n.table = (s.rows n.table).filter fun r => !Predicate.picks n.predicate r
  still : n.kind = .normalize ∨ n.kind = .select → affected = 0 ∧ s'.tables = s.tables
  audit : if n.kind = .select then s'.audit = s.audit
    else ∃ p, n.provenance = some p ∧ s'.audit = s.audit ++ [⟨n.kind, n.table, p⟩]

theorem rewrites_written (n : Node) (r : Row) :
    Rewrites n r (written n.predicate (cellsOf n) r) := by
  unfold written
  split
  · next ha =>
    rw [Rewrites, if_pos (Predicate.picks_of_accepts ha)]
    exact ByName.get?_setAll r (cellsOf n)
  · next hne =>
    rw [Rewrites, if_neg fun hpicks => hne (Predicate.accepts_of_picks hpicks)]

theorem rows_map_lookup (s : Store) (table : String) (f : List Row → List Row) (hf : f [] = []) :
    ((s.tables.lookup table).map f).getD [] = f (s.rows table) := by
  rw [Store.rows]
  cases s.tables.lookup table with
  | none => exact hf.symm
  | some rows => rfl

theorem mutate_normalize (hk : n.kind = .normalize) : s.mutate n = (.ok 0, s) := by
  unfold mutate
  rw [hk]

/-- What the effect of a node comes to: what its table holds behind it, and the log. -/
theorem effect_of_lookup (hcount : count = s.touched n)
    (hlookup : ∀ t, s'.tables.lookup t = if t = n.table then s.behind n else s.tables.lookup t)
    (hstill : n.kind = .normalize ∨ n.kind = .select → s'.tables = s.tables)
    (haudit : if n.kind = .select then s'.audit = s.audit
      else ∃ p, n.provenance = some p ∧ s'.audit = s.audit ++ [⟨n.kind, n.table, p⟩]) :
    Effect s n count s' := by
  have htable : s'.tables.lookup n.table = s.behind n := by rw [hlookup, if_pos rfl]
  have hrows : s'.rows n.table = (s.behind n).getD [] := by rw [Store.rows, htable]
  subst hcount
  refine ⟨fun t ht => by rw [hlookup, if_neg ht], ?_, fun hk => ?_, fun hk => ?_, fun hk => ?_,
    fun hk => ⟨?_, hstill hk⟩, haudit⟩
  · rw [htable, behind]
    cases n.kind <;> simp
  · rw [touched, hk]
    refine ⟨rfl, ByName.ofList (cellsOf n), ?_, ByName.get?_ofList (cellsOf n)⟩
    rw [hrows, behind, hk]
    rfl
  · rw [touched, hk, hrows, behind, hk]
    refine ⟨rfl, ?_⟩
    rw [rows_map_lookup s _ _ rfl, List.forall₂_map_right_iff]
    exact List.forall₂_same.mpr fun r _ => rewrites_written n r
  · rw [touched, hk, hrows, behind, hk]
    exact ⟨rfl, rows_map_lookup s _ _ rfl⟩
  · rcases hk with hk | hk <;> rw [touched, hk]

/-- A node that succeeds changes its own table only, there the rows that its condition picks, and
gives their number; every change is logged. -/
theorem submit_effect {res : ExecutionResult} (h : s.submit n = (.ok res, s')) :
    Effect s n res.affected s' := by
  unfold submit at h
  split at h
  · cases h
  · split at h
    · next hselect =>
      have hk : n.kind = .select := eq_of_beq hselect
      split at h
      · cases h
        refine effect_of_lookup (by rw [touched, hk]) (lookup_of_behind (by rw [behind, hk]))
          (fun _ => rfl) ?_
        rw [if_pos hk]
      · cases h
    · next hne =>
      have hk : n.kind ≠ .select := fun heq => hne (beq_iff_eq.mpr heq)
      split at h
      · cases h
      · next p hp =>
        split at h
        · cases h
        · next count t hm =>
          cases h
          obtain ⟨hcount, haudit, hlookup⟩ := mutate_ok hm
          refine effect_of_lookup hcount hlookup ?_ ?_
          · rintro (hnormalize | hselect)
            · rw [mutate_normalize hnormalize] at hm
              cases hm
              rfl
            · exact absurd hselect hk
          · rw [if_neg hk, ← haudit]
            exact ⟨p, hp, rfl⟩

/-- `UPDATE t SET b = 1, b = 2 WHERE a = 4`, which repeats a column. -/
def marksFours : Node :=
  { asksA with
    kind := .update
    cells := [1, 2].map fun i =>
      ⟨"b", ⟨.nat, .nat i, rfl⟩, ⟨.structural, .nat, "", true⟩, .inferred⟩
    predicate := some isFour
    provenance := some ⟨"clerk", 8, "recount", by decide⟩ }

theorem marksFours_effect :
    ∃ s', fourRows.submit marksFours = (.ok ⟨2, []⟩, s') ∧ Effect fourRows marksFours 2 s' ∧
      s'.rows "t" = [[("a", .nat 4), ("b", .nat 2)], [], [("a", .nat 0)],
        [("a", .nat 4), ("b", .nat 2)]] := by
  have h : fourRows.submit marksFours = (.ok ⟨2, []⟩, (fourRows.submit marksFours).2) := rfl
  exact ⟨_, h, submit_effect h, rfl⟩

end Store
end Attest
