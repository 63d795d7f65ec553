import Attest.Proofs.Sorting.Stable
import Attest.Proofs.Store.Effect
import Attest.Proofs.Verifier
import Mathlib.Data.Prod.Lex
import Mathlib.Data.String.Basic
import Mathlib.Order.WithBot

/-!
In which order a query gives its rows, and which of them.

The order of two values is a partial one: a value that is missing comes first, and values that have
no order count as equal, which is no reason to take the equal ones for tied.  Where a column holds
values of one kind that is ordered, and numbers that are numbers, nothing is left open, so every key
is a weak order of the rows, and so are all keys one after the other.  Then there is one list of the
selected rows that is stably sorted by them, and a query gives the columns that it asks for of the
first rows of that list.
-/

namespace Attest

namespace Value

/-- Kinds of values that are ordered among themselves. -/
inductive Scale where
  | nat
  | int
  | float
  | text
  | timestamp
deriving DecidableEq, Repr

/-- Whether a value is of a kind.  A float that is no number is of none. -/
def Scale.holds : Scale → Value → Bool
  | nat, .nat _ => true
  | int, .int _ => true
  | float, .float x => !x.isNaN
  | text, .text _ => true
  | timestamp, .timestamp _ => true
  | _, _ => false

def isBelow : Value → Value → Bool
  | nat a, nat b => a < b
  | int a, int b => a < b
  | float x, float y => x < y
  | text s, text t => s < t
  | timestamp a, timestamp b => a < b
  | _, _ => false

/-- The place of a value among those of its kind: that of a number, or that of a text. -/
def place : Value → Int ×ₗ String
  | nat n => toLex (n.toNat, "")
  | int i => toLex (i.toInt, "")
  | float x => toLex (x.key, "")
  | text s => toLex (0, s)
  | timestamp ms => toLex (ms.toInt, "")
  | _ => toLex (0, "")

variable {σ : Scale} {a b : Value}

theorem isBelow_float {x y : Double} (hx : x.isNaN = false) (hy : y.isNaN = false) :
    (float x).isBelow (float y) = decide (x.key < y.key) := by
  show decide (Double.lt x y = true) = _
  rw [decide_eq_decide, Double.lt_iff]
  simp [hx, hy]

theorem isBelow_iff (ha : σ.holds a = true) (hb : σ.holds b = true) :
    a.isBelow b = true ↔ a.place < b.place := by
  have hnumber : ∀ x y : Int, toLex (x, "") < toLex (y, "") ↔ x < y := by
    intro x y
    simp [Prod.Lex.toLex_lt_toLex]
  cases σ with
  | nat =>
    cases a <;> cases ha
    cases b <;> cases hb
    rw [place, place, hnumber, isBelow, decide_eq_true_iff, UInt64.lt_iff_toNat_lt]
    omega
  | int | timestamp =>
    cases a <;> cases ha
    cases b <;> cases hb
    rw [place, place, hnumber, isBelow, decide_eq_true_iff, Int64.lt_iff_toInt_lt]
  | float =>
    cases a <;> simp only [Scale.holds, Bool.false_eq_true, Bool.not_eq_true'] at ha
    cases b <;> simp only [Scale.holds, Bool.false_eq_true, Bool.not_eq_true'] at hb
    rw [place, place, hnumber, isBelow_float ha hb, decide_eq_true_iff]
  | text =>
    cases a <;> cases ha
    cases b <;> cases hb
    rw [place, place, isBelow, decide_eq_true_iff]
    simp [Prod.Lex.toLex_lt_toLex]

/-- Values of one kind compare as they are above and below each other. -/
theorem compare?_eq_orderOf (ha : σ.holds a = true) (hb : σ.holds b = true) :
    (compare? a b).getD .eq = Sorting.orderOf isBelow a b := by
  cases σ with
  | float =>
    cases a <;> simp only [Scale.holds, Bool.false_eq_true, Bool.not_eq_true'] at ha
    cases b <;> simp only [Scale.holds, Bool.false_eq_true, Bool.not_eq_true'] at hb
    next x y =>
    have hcompare : compare? (.float x) (.float y) = some (compareOfLessAndEq x.key y.key) := by
      simp [compare?, compareFloats?, toDouble?, Double.compare?, ha, hb]
      rfl
    rw [hcompare, Option.getD_some, Sorting.orderOf, isBelow_float ha hb, isBelow_float hb ha]
    unfold compareOfLessAndEq
    grind
  | _ =>
    cases a <;> cases ha
    cases b <;> cases hb
    show compareOfLessAndEq _ _ = _
    unfold compareOfLessAndEq Sorting.orderOf isBelow
    grind

end Value

namespace Row

/-- Whether the value of a column in a row is smaller than in another one, where a value that is
missing is smaller than any. -/
def isBelow (column : String) (r t : Row) : Bool :=
  match r.get? column, t.get? column with
  | none, some _ => true
  | some v, some w => v.isBelow w
  | _, none => false

def place (column : String) (r : Row) : WithBot (Int ×ₗ String) :=
  (r.get? column).elim ⊥ fun v => v.place

/-- The columns that a projection names keep what they hold. -/
theorem get?_project (r : Row) (columns : List String) (name : String) :
    (r.project columns).get? name = if name ∈ columns then r.get? name else none := by
  have hlookup : ∀ cs : List String,
      (cs.filterMap fun c => (r.get? c).map fun v => (c, v)).lookup name =
        if name ∈ cs then r.get? name else none := by
    intro cs
    induction cs with
    | nil => rfl
    | cons c cs ih =>
      rw [List.filterMap_cons]
      by_cases hc : name = c
      · subst hc
        cases hv : r.get? name with
        | none => simp [ih, hv]
        | some v => simp
      · cases r.get? c with
        | none => simp [ih, hc]
        | some v => simp [ih, hc, List.lookup_cons, beq_false_of_ne hc]
  rw [Row.project, ByName.get?_ofList, ← List.filterMap_reverse, hlookup]
  simp only [List.mem_reverse]

end Row

/-- Whether a row comes before another by a key. -/
def SortKey.puts (k : SortKey) (r t : Row) : Bool :=
  match k.direction with
  | .asc => r.isBelow k.column t
  | .desc => t.isBelow k.column r

namespace Store

/-- Whether a row comes before another by the first key that tells them apart. -/
def precedes : List SortKey → Row → Row → Bool
  | [], _, _ => false
  | k :: keys, r, t => k.puts r t || (!k.puts t r && precedes keys r t)

/-- The values that rows have for a key are of one kind that is ordered. -/
def Sortable (rows : List Row) (k : SortKey) : Prop :=
  ∃ σ : Value.Scale, ∀ r ∈ rows, ∀ v, r.get? k.column = some v → σ.holds v = true

section Keys

variable {rows : List Row} {k : SortKey} {keys : List SortKey} {a b : Row}

theorem weakOrder_isBelow (h : Sortable rows k) :
    Sorting.WeakOrder (· ∈ rows) (Row.isBelow k.column) := by
  obtain ⟨σ, hσ⟩ := h
  refine .of_key (Row.place k.column) fun r t hr ht => ?_
  unfold Row.isBelow Row.place
  cases hv : r.get? k.column with
  | none =>
    cases ht : t.get? k.column with
    | none => simp
    | some w => simp
  | some v =>
    cases hw : t.get? k.column with
    | none => simp
    | some w =>
      dsimp only [Option.elim_some]
      rw [WithBot.coe_lt_coe]
      exact Value.isBelow_iff (hσ r hr v hv) (hσ t ht w hw)

theorem weakOrder_puts (h : Sortable rows k) : Sorting.WeakOrder (· ∈ rows) k.puts := by
  have hbelow := weakOrder_isBelow h
  unfold SortKey.puts
  cases k.direction with
  | asc => exact hbelow
  | desc => exact hbelow.flip

theorem weakOrder_precedes (h : ∀ k ∈ keys, Sortable rows k) :
    Sorting.WeakOrder (· ∈ rows) (precedes keys) := by
  induction keys with
  | nil => exact ⟨fun _ _ _ _ h => (by cases h), fun _ _ _ _ _ _ _ _ => rfl⟩
  | cons k keys ih =>
    obtain ⟨hk, hkeys⟩ := List.forall_mem_cons.mp h
    exact (weakOrder_puts hk).lex (ih hkeys)

theorem keyOrder_eq (h : Sortable rows k) (ha : a ∈ rows) (hb : b ∈ rows) :
    keyOrder k a b = Sorting.orderOf k.puts a b := by
  have hasymm := (weakOrder_isBelow h).asymm a b ha hb
  obtain ⟨σ, hσ⟩ := h
  obtain ⟨column, direction⟩ := k
  have hrising : keyOrder ⟨column, .asc⟩ a b = Sorting.orderOf (Row.isBelow column) a b := by
    unfold keyOrder Sorting.orderOf Row.isBelow
    cases hv : a.get? column with
    | none => cases b.get? column <;> rfl
    | some v =>
      cases hw : b.get? column with
      | none => rfl
      | some w => exact Value.compare?_eq_orderOf (hσ a ha v hv) (hσ b hb w hw)
  cases direction with
  | asc => exact hrising
  | desc =>
    show (keyOrder ⟨column, .asc⟩ a b).swap = _
    rw [hrising, Sorting.swap_orderOf hasymm]
    rfl

theorem rowOrder_eq (h : ∀ k ∈ keys, Sortable rows k) (ha : a ∈ rows) (hb : b ∈ rows) :
    rowOrder keys a b = Sorting.orderOf (precedes keys) a b := by
  induction keys with
  | nil => rfl
  | cons k keys ih =>
    obtain ⟨hk, hkeys⟩ := List.forall_mem_cons.mp h
    rw [rowOrder, keyOrder_eq hk ha hb, ih hkeys, Sorting.orderOf_then]
    rfl

end Keys

theorem accepts_eq_picks {p : Option Predicate} {r : Row} (h : ∀ q ∈ p, ∃ v, q.eval r = .ok v) :
    Predicate.accepts p r = .ok (Predicate.picks p r) := by
  cases hp : Predicate.accepts p r with
  | ok keep => rw [Predicate.picks_of_accepts hp]
  | error e =>
    cases p with
    | none => cases hp
    | some q =>
      obtain ⟨v, hv⟩ := h q rfl
      unfold Predicate.accepts at hp
      dsimp only at hp
      rw [hv] at hp
      split at hp
      · next he => cases he
      · cases hp
      · cases hp

theorem select_eq_filter {p : Option Predicate} {rows : List Row}
    (h : ∀ q ∈ p, ∀ r ∈ rows, ∃ v, q.eval r = .ok v) :
    select p rows = .ok (rows.filter (Predicate.picks p)) := by
  induction rows with
  | nil => rfl
  | cons r rest ih =>
    have hr := accepts_eq_picks fun q hq => h q hq r List.mem_cons_self
    rw [select, hr, Outcome.ok_bind, ih fun q hq t ht => h q hq t (List.mem_cons_of_mem r ht),
      Outcome.ok_bind, List.filter_cons]
    rfl

def allowed (limit : Option UInt64) (count : Nat) : Nat :=
  limit.elim count fun m => min m.toNat count

/-- What a node shows of rows in order: the first ones, as many as its limit lets through, each with
the columns that it asks for. -/
def shown (n : Node) (sorted : List Row) : List Row :=
  (sorted.take (allowed n.limit sorted.length)).map fun r => r.project (n.projection.map (·.name))

theorem limited_eq_take (limit : Option UInt64) (rows : List Row) :
    limited limit rows = rows.take (allowed limit rows.length) := by
  cases limit with
  | none => exact rows.take_length.symm
  | some m =>
    refine List.take_eq_take_iff.mpr ?_
    show min m.toNat rows.length = min (min m.toNat rows.length) rows.length
    omega

theorem shown_mono {n : Node} {sorted : List Row} {small : UInt64} {large : Option UInt64}
    (h : ∀ m ∈ large, small ≤ m) :
    shown { n with limit := some small } sorted <+: shown { n with limit := large } sorted := by
  have hle : allowed (some small) sorted.length ≤ allowed large sorted.length := by
    cases large with
    | none => exact Nat.min_le_right _ _
    | some m =>
      have := UInt64.le_iff_toNat_le.mp (h m rfl)
      show min small.toNat sorted.length ≤ min m.toNat sorted.length
      omega
  exact (List.take_prefix_take_left hle).map _

variable {s : Store} {n : Node}

theorem query_eq_shown (heval : ∀ p ∈ n.predicate, ∀ r ∈ s.rows n.table, ∃ v, p.eval r = .ok v)
    (hkeys : ∀ k ∈ n.orderBy, Sortable (s.rows n.table) k) :
    s.query n = .ok (shown n (Sorting.sort (precedes n.orderBy)
      ((s.rows n.table).filter (Predicate.picks n.predicate)))) := by
  have hsort : Sorting.sort (fun a b => rowOrder n.orderBy a b == .lt)
      ((s.rows n.table).filter (Predicate.picks n.predicate)) =
        Sorting.sort (precedes n.orderBy)
          ((s.rows n.table).filter (Predicate.picks n.predicate)) := by
    refine Sorting.sort_congr fun a ha b hb => ?_
    rw [rowOrder_eq hkeys (List.mem_filter.mp ha).1 (List.mem_filter.mp hb).1,
      Sorting.orderOf_beq_lt]
  unfold query
  rw [select_eq_filter heval, Outcome.ok_bind, hsort]
  dsimp only
  rw [limited_eq_take]
  rfl

/-- Where the condition has a value on every row and the values of every key are of one kind that is
ordered, the selected rows can be stably sorted in one way.  The query gives the first of them, as
many as its limit lets through, with the columns that are there of those it asks for, and a smaller
limit lets through the beginning of what a larger one does. -/
theorem query_stably_sorted
    (heval : ∀ p ∈ n.predicate, ∀ r ∈ s.rows n.table, ∃ v, p.eval r = .ok v)
    (hkeys : ∀ k ∈ n.orderBy, Sortable (s.rows n.table) k) :
    ∃ sorted, (∀ l, Sorting.StablySorted (precedes n.orderBy)
        ((s.rows n.table).filter (Predicate.picks n.predicate)) l ↔ l = sorted) ∧
      (∀ limit, s.query { n with limit := limit } =
        .ok (shown { n with limit := limit } sorted)) ∧
      (n.kind = .select → n.isVerified = true → s.submit n = (.ok ⟨0, shown n sorted⟩, s)) ∧
      (∀ r name, (Row.project r (n.projection.map (·.name))).get? name =
        if name ∈ n.projection.map (·.name) then ByName.get? r name else none) ∧
      ∀ (small : UInt64) (large : Option UInt64), (∀ m ∈ large, small ≤ m) →
        shown { n with limit := some small } sorted <+: shown { n with limit := large } sorted := by
  refine ⟨Sorting.sort (precedes n.orderBy)
      ((s.rows n.table).filter (Predicate.picks n.predicate)), fun l => ?_, fun limit => ?_,
    fun hkind hverified => ?_, fun r name => ?_, fun small large h => shown_mono h⟩
  · exact Sorting.stablySorted_iff (weakOrder_precedes hkeys)
      fun r hr => (List.mem_filter.mp hr).1
  · exact query_eq_shown (n := { n with limit := limit }) heval hkeys
  · unfold submit
    rw [hverified, hkind, query_eq_shown heval hkeys]
    rfl
  · exact Row.get?_project r _ name

/-- Two rows with one amount, a row without any, and a row without a memo. -/
def payments : Store :=
  { tables := [("payments", [[("amount", .nat 4), ("memo", .text "x")], [("memo", .text "y")],
      [("amount", .nat 7), ("memo", .text "z")], [("amount", .nat 9)],
      [("amount", .nat 4), ("memo", .text "w")]])] }

/-- `memo IS NOT NULL` -/
def hasMemo : Predicate := .isNull (.column ⟨"memo", .string⟩) true

/-- `SELECT memo FROM payments WHERE memo IS NOT NULL ORDER BY amount DESC LIMIT 3` -/
def largestFirst : Node where
  kind := .select
  table := "payments"
  cells := []
  projection := [⟨"memo", .string⟩]
  predicate := some hasMemo
  orderBy := [⟨"amount", .desc⟩]
  limit := some 3
  normalForm := none
  provenance := none
  access := ⟨none, .explicit, [.string]⟩

theorem payments_largestFirst :
    ∃ sorted, Sorting.StablySorted (precedes largestFirst.orderBy)
        ((payments.rows "payments").filter (Predicate.picks (some hasMemo))) sorted ∧
      payments.submit largestFirst = (.ok ⟨0, shown largestFirst sorted⟩, payments) ∧
      shown largestFirst sorted =
        [[("memo", .text "z")], [("memo", .text "x")], [("memo", .text "w")]] ∧
      shown { largestFirst with limit := some 2 } sorted <+: shown largestFirst sorted := by
  have heval : ∀ p ∈ largestFirst.predicate, ∀ r ∈ payments.rows largestFirst.table,
      ∃ v, p.eval r = .ok v := by
    intro p hp r hr
    cases hp
    exact ⟨_, rfl⟩
  have hkeys : ∀ k ∈ largestFirst.orderBy, Sortable (payments.rows largestFirst.table) k := by
    intro k hk
    rw [List.mem_singleton.mp hk]
    refine ⟨.nat, fun r hr v hv => ?_⟩
    change r ∈ [_, _, _, _, _] at hr
    simp only [List.mem_cons, List.not_mem_nil, or_false] at hr
    rcases hr with rfl | rfl | rfl | rfl | rfl <;> cases hv <;> rfl
  obtain ⟨sorted, hsorted, -, hsubmit, -, hmono⟩ := query_stably_sorted heval hkeys
  have hanswer := hsubmit rfl rfl
  refine ⟨sorted, (hsorted sorted).mpr rfl, hanswer, ?_, hmono 2 (some 3) ?_⟩
  · have hshown : payments.submit largestFirst =
        (.ok ⟨0, [[("memo", .text "z")], [("memo", .text "x")], [("memo", .text "w")]]⟩,
          payments) := rfl
    rw [hanswer] at hshown
    exact (ExecutionResult.mk.inj (Except.ok.inj (Prod.mk.inj hshown).1)).2
  · intro m hm
    cases hm
    decide

end Store
end Attest
