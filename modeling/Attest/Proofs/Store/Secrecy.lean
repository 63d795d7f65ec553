import Attest.Proofs.ByName
import Attest.Proofs.Compiler
import Attest.Proofs.Permission
import Attest.Proofs.Sorting
import Attest.Store

/-!
What the answer to a query tells about columns that its role may not see.

The condition and the projection of a strict role name columns that it sees, and through them
nothing else shows.  The validator does not look at the sort keys.  A key that the role does not see
puts the rows in an order that tells of its column, and a limit then picks rows by it.
-/

namespace Attest

/-- A column of this name has a type that the profile allows. -/
def Profile.Sees (p : Profile) (s : Schema) (name : String) : Prop :=
  ∃ c ∈ s.columns, c.name = name ∧ p.allows c.ty.category = true

instance (p : Profile) (s : Schema) (name : String) : Decidable (p.Sees s name) :=
  inferInstanceAs (Decidable (∃ c ∈ s.columns, _))

def Row.Alike (seen : String → Prop) (r r' : Row) : Prop :=
  ∀ name, seen name → r.get? name = r'.get? name

/-- The condition and the projection of a node are about columns that are seen. -/
structure Node.Within (n : Node) (seen : String → Prop) : Prop where
  condition : ∀ c ∈ (n.predicate.map Predicate.columns).getD [], seen c.name
  projection : ∀ c ∈ n.projection, seen c.name

variable {seen : String → Prop} {r r' : Row}

theorem Row.Alike.refl (r : Row) : Row.Alike seen r r := fun _ _ => rfl

theorem Row.Alike.symm (h : Row.Alike seen r r') : Row.Alike seen r' r :=
  fun name hname => (h name hname).symm

theorem Row.alike_set {name : String} (h : ¬ seen name) (x : Value) (r : Row) :
    Row.Alike seen (ByName.set name x r) r := by
  intro k hk
  have hne : k ≠ name := fun heq => h (heq ▸ hk)
  rw [ByName.get?_set, if_neg hne]

theorem Row.project_alike {names : List String} (hnames : ∀ name ∈ names, seen name)
    (h : Row.Alike seen r r') : r.project names = r'.project names := by
  unfold Row.project
  refine congrArg _ (List.filterMap_congr fun name hname => ?_)
  rw [h name (hnames name hname)]

namespace Predicate

theorem eval_alike {p : Predicate} (hp : ∀ c ∈ p.columns, seen c.name)
    (h : Row.Alike seen r r') : p.eval r = p.eval r' := by
  induction p with
  | column c =>
    show Except.ok (r.get? c.name) = Except.ok (r'.get? c.name)
    rw [h c.name (hp c List.mem_cons_self)]
  | literal v => rfl
  | isNull p negated ih => rw [eval, eval, ih hp]
  | unary op p ih => rw [eval, eval, ih hp]
  | binary op p q ihp ihq =>
    rw [eval, eval, ihp fun c hc => hp c (List.mem_append_left _ hc),
      ihq fun c hc => hp c (List.mem_append_right _ hc)]

theorem accepts_alike {p : Option Predicate}
    (hp : ∀ c ∈ (p.map Predicate.columns).getD [], seen c.name) (h : Row.Alike seen r r') :
    accepts p r = accepts p r' := by
  cases p with
  | none => rfl
  | some p => rw [accepts, accepts, eval_alike hp h]

end Predicate

namespace Store

theorem select_alike {p : Option Predicate}
    (hp : ∀ c ∈ (p.map Predicate.columns).getD [], seen c.name) {rows rows' : List Row}
    (h : List.Forall₂ (Row.Alike seen) rows rows') :
    (∃ e, select p rows = .error e ∧ select p rows' = .error e) ∨
      ∃ kept kept', select p rows = .ok kept ∧ select p rows' = .ok kept' ∧
        List.Forall₂ (Row.Alike seen) kept kept' := by
  induction h with
  | nil => exact .inr ⟨[], [], rfl, rfl, .nil⟩
  | @cons r r' rest rest' hr _ ih =>
    rw [select, select, Predicate.accepts_alike hp hr]
    cases Predicate.accepts p r' with
    | error e => exact .inl ⟨e, rfl, rfl⟩
    | ok keep =>
      rcases ih with ⟨e, he, he'⟩ | ⟨kept, kept', hk, hk', hkept⟩
      · rw [he, he']
        exact .inl ⟨e, rfl, rfl⟩
      · rw [hk, hk']
        refine .inr ⟨_, _, rfl, rfl, ?_⟩
        cases keep with
        | false => exact hkept
        | true => exact .cons hr hkept

theorem rowOrder_alike {keys : List SortKey} (hkeys : ∀ k ∈ keys, seen k.column)
    {a a' b b' : Row} (ha : Row.Alike seen a a') (hb : Row.Alike seen b b') :
    rowOrder keys a b = rowOrder keys a' b' := by
  induction keys with
  | nil => rfl
  | cons k keys ih =>
    have hk := hkeys k List.mem_cons_self
    have hkey : keyOrder k a b = keyOrder k a' b' := by
      unfold keyOrder
      rw [ha k.column hk, hb k.column hk]
    rw [rowOrder, rowOrder, hkey, ih fun l hl => hkeys l (List.mem_cons_of_mem k hl)]

theorem limited_forall₂ {R : Row → Row → Prop} {rows rows' : List Row}
    (h : List.Forall₂ R rows rows') (limit : Option UInt64) :
    List.Forall₂ R (limited limit rows) (limited limit rows') := by
  cases limit with
  | none => exact h
  | some n => exact List.forall₂_take n.toNat h

variable {n : Node} {s s' : Store}

/-- Where the sort keys are seen too, nothing else shows. -/
theorem query_alike (hn : n.Within seen) (hkeys : ∀ k ∈ n.orderBy, seen k.column)
    (h : List.Forall₂ (Row.Alike seen) (s.rows n.table) (s'.rows n.table)) :
    s.query n = s'.query n := by
  unfold query
  rcases select_alike hn.condition h with ⟨e, he, he'⟩ | ⟨kept, kept', hk, hk', hkept⟩
  · rw [he, he']
  · rw [hk, hk']
    have hsorted := Sorting.sort_forall₂ (R := Row.Alike seen)
      (fun a a' b b' hab hab' => congrArg (· == .lt) (rowOrder_alike hkeys hab hab')) hkept
    refine congrArg Except.ok ?_
    rw [← List.forall₂_eq_eq_eq]
    refine List.rel_map (fun a b hab => ?_) (limited_forall₂ hsorted n.limit)
    exact Row.project_alike (List.forall_mem_map.mpr hn.projection) hab

theorem submit_query (hv : n.isVerified = true) (hkind : n.kind = .select) :
    (s.submit n).1 = ((s.query n).map (⟨0, ·⟩)).mapError .evaluation := by
  unfold submit
  rw [hv, hkind]
  cases s.query n <;> rfl

/-- Rows without a value of a key that only it would put in order.  Both are selected, and the
answer tells which of them comes first. -/
structure Tied (n : Node) (before : List SortKey) (k : SortKey) (u v : Row) : Prop where
  selects : Predicate.accepts n.predicate u = .ok true ∧ Predicate.accepts n.predicate v = .ok true
  unset : u.get? k.column = none ∧ v.get? k.column = none
  tie : rowOrder before v u = .eq
  shows : u.project (n.projection.map (·.name)) ≠ v.project (n.projection.map (·.name))
  limit : n.limit ≠ some 0

theorem rowOrder_of_tie {before after : List SortKey} {k : SortKey} {a b : Row}
    (htie : rowOrder before a b = .eq) (hk : keyOrder k a b ≠ .eq) :
    rowOrder (before ++ k :: after) a b = keyOrder k a b := by
  induction before with
  | nil =>
    show (keyOrder k a b).then _ = _
    cases h : keyOrder k a b with
    | eq => exact absurd h hk
    | lt => rfl
    | gt => rfl
  | cons l before ih =>
    obtain ⟨hl, hrest⟩ := Ordering.then_eq_eq.mp htie
    show (keyOrder l a b).then (rowOrder (before ++ k :: after) a b) = _
    rw [hl, Ordering.eq_then, ih hrest]

/-- Of two rows that are selected, the second comes first only if it is smaller. -/
theorem query_pair {a b : Row} (hrows : s.rows n.table = [a, b])
    (ha : Predicate.accepts n.predicate a = .ok true)
    (hb : Predicate.accepts n.predicate b = .ok true) (hlimit : n.limit ≠ some 0) :
    ∃ rows, s.query n = .ok rows ∧ rows.head? =
      some ((if rowOrder n.orderBy b a == .lt then b else a).project
        (n.projection.map (·.name))) := by
  have hselect : select n.predicate [a, b] = .ok [a, b] := by simp [select, ha, hb]
  have hhead : ∀ (r : Row) (rows : List Row), (limited n.limit (r :: rows)).head? = some r := by
    intro r rows
    unfold limited
    split
    · rfl
    · next m hm =>
      have hm : m.toNat ≠ 0 := fun h0 => hlimit (hm ▸ congrArg some (UInt64.toNat_inj.mp h0))
      rw [List.head?_take, if_neg hm]
      rfl
  unfold query
  rw [hrows, hselect, Outcome.ok_bind]
  dsimp only
  rw [Sorting.sort_pair]
  refine ⟨_, rfl, ?_⟩
  rw [List.head?_map]
  split <;> rw [hhead] <;> rfl

/-- A row without a value of the key comes first, or last where the order falls. -/
theorem keyOrder_unset {k : SortKey} {a b : Row} {x : Value} (ha : a.get? k.column = none)
    (hb : b.get? k.column = some x) :
    keyOrder k a b = (if k.direction = .asc then .lt else .gt) ∧
      keyOrder k b a = (if k.direction = .asc then .gt else .lt) := by
  unfold keyOrder
  rw [ha, hb]
  cases k.direction <;> exact ⟨rfl, rfl⟩

/-- A value of a key that is not seen moves its row, and the answer tells. -/
theorem submit_ne_of_tied (hn : n.Within seen) (hv : n.isVerified = true)
    (hkind : n.kind = .select) {before after : List SortKey} {k : SortKey}
    (hsplit : n.orderBy = before ++ k :: after) (hbefore : ∀ b ∈ before, seen b.column)
    (hk : ¬ seen k.column) {u v : Row} (h : Tied n before k u v) {x : Value}
    (hs : s.rows n.table = [ByName.set k.column x u, v])
    (hs' : s'.rows n.table = [u, ByName.set k.column x v]) :
    (s.submit n).1 ≠ (s'.submit n).1 := by
  have hu := Row.alike_set hk x u
  have hw := Row.alike_set hk x v
  have hset : ∀ r : Row, (ByName.set k.column x r).get? k.column = some x := by
    intro r
    rw [ByName.get?_set, if_pos rfl]
  obtain ⟨rows, hrows, hhead⟩ := query_pair hs
    ((Predicate.accepts_alike hn.condition hu).trans h.selects.1) h.selects.2 h.limit
  obtain ⟨rows', hrows', hhead'⟩ := query_pair hs' h.selects.1
    ((Predicate.accepts_alike hn.condition hw).trans h.selects.2) h.limit
  have horder := (keyOrder_unset h.unset.2 (hset u)).1
  have horder' := (keyOrder_unset h.unset.1 (hset v)).2
  have hproject : ∀ {a b : Row}, Row.Alike seen a b →
      a.project (n.projection.map (·.name)) = b.project (n.projection.map (·.name)) :=
    Row.project_alike (List.forall_mem_map.mpr hn.projection)
  rw [hsplit, rowOrder_of_tie ((rowOrder_alike hbefore (.refl v) hu).trans h.tie)
    (by rw [horder]; split <;> simp), horder] at hhead
  rw [hsplit, rowOrder_of_tie ((rowOrder_alike hbefore hw (.refl u)).trans h.tie)
    (by rw [horder']; split <;> simp), horder'] at hhead'
  intro heq
  rw [submit_query hv hkind, submit_query hv hkind, hrows, hrows'] at heq
  have hsame : rows = rows' := by simpa [Except.map, Except.mapError] using heq
  rw [hsame, hhead'] at hhead
  by_cases hdirection : k.direction = .asc
  · exact h.shows (by simpa [hdirection] using hhead)
  · exact h.shows (by simpa [hdirection, hproject hu, hproject hw] using hhead.symm)

end Store

namespace Compiler

/-- A strict role sees the columns that its conditions and projections name. -/
theorem within_of_compile {c : Compiler} (hc : c.Reachable) {now : UInt64} {cancel : Cancellation}
    {r : Request} {schema : Schema} {profile : Profile} {out : Output}
    (h : (c.compile now cancel r schema profile).1 = .ok out) (hlevel : profile.level = .strict) :
    out.node.Within (profile.Sees schema) ∧ out.node.isVerified = true := by
  obtain ⟨st, t, p, n, ht, hn, hnode, hvalid, -⟩ := compile_eq_ok h
  have habout := Checker.about_of_check ht
  have hverified := Node.isVerified_of_lower hc.cache.faithful hn
  obtain ⟨provenance, q, -, hq, rfl⟩ := Node.lower_eq_ok hc.cache.faithful hn
  have hpermits := Profile.validate_eq_ok.mp hvalid
  have hsees : ∀ c ∈ Checker.allColumns schema, profile.allows c.ty.category = true →
      profile.Sees schema c.name := by
    intro c hmem hallows
    obtain ⟨d, hd, rfl⟩ := List.mem_map.mp hmem
    exact ⟨d, hd, rfl, hallows⟩
  rw [hnode] at hpermits ⊢
  refine ⟨⟨fun c hmem => ?_, fun c hmem => ?_⟩, hverified⟩
  · exact hsees c (Node.mem_of_predicateOf habout hq c hmem)
      (hpermits.condition (.inl hlevel) c hmem)
  · exact hsees c (habout.projection c hmem) (hpermits.projection (.inl hlevel) c hmem)

/-- A strict role learns nothing of columns that it does not see from a query that is sorted by
columns that it sees.  From any other it does: a value of the first key that it does not see, in one
of two rows that were tied or in the other, gives different answers. -/
theorem answer_alike {c : Compiler} (hc : c.Reachable) {now : UInt64} {cancel : Cancellation}
    {r : Request} {schema : Schema} {profile : Profile} {out : Output}
    (h : (c.compile now cancel r schema profile).1 = .ok out) (hlevel : profile.level = .strict)
    (hkind : out.node.kind = .select) :
    ((∀ k ∈ out.node.orderBy, profile.Sees schema k.column) → ∀ s s' : Store,
      List.Forall₂ (Row.Alike (profile.Sees schema)) (s.rows out.node.table)
        (s'.rows out.node.table) → (s.submit out.node).1 = (s'.submit out.node).1) ∧
    ∀ before k after, out.node.orderBy = before ++ k :: after →
      (∀ b ∈ before, profile.Sees schema b.column) → ¬ profile.Sees schema k.column →
      ∀ u v : Row, Store.Tied out.node before k u v → ∀ (x : Value) (s s' : Store),
        s.rows out.node.table = [ByName.set k.column x u, v] →
        s'.rows out.node.table = [u, ByName.set k.column x v] →
        List.Forall₂ (Row.Alike (profile.Sees schema)) (s.rows out.node.table)
          (s'.rows out.node.table) ∧ (s.submit out.node).1 ≠ (s'.submit out.node).1 := by
  obtain ⟨hwithin, hverified⟩ := within_of_compile hc h hlevel
  constructor
  · intro hkeys s s' hrows
    rw [Store.submit_query hverified hkind, Store.submit_query hverified hkind,
      Store.query_alike hwithin hkeys hrows]
  · intro before k after hsplit hbefore hk u v htied x s s' hs hs'
    refine ⟨?_, Store.submit_ne_of_tied hwithin hverified hkind hsplit hbefore hk htied hs hs'⟩
    rw [hs, hs']
    exact .cons (Row.alike_set hk x u) (.cons (Row.alike_set hk x v).symm .nil)

end Compiler

def Schema.ledger : Schema where
  name := "ledger"
  columns := [⟨"amount", .nat, false, false⟩, ⟨"memo", .string, false, false⟩]
  valid := rfl

/-- A strict role that sees the amounts, but not what they are for. -/
def Profile.teller : Profile := (ofCategories "teller" [.nat]).strict

namespace Compiler

/-- `SELECT amount FROM ledger ORDER BY column` in a new compiler. -/
def amountsBy (column : String) : Except CompileError Output × Compiler :=
  (ofConfig default).compile 7 none
    { source := "SELECT amount FROM ledger ORDER BY " ++ column, role := "teller" } .ledger .teller

/-- Whether an output is a query of all amounts in the order of a column. -/
def asksAmounts (column : String) (out : Output) : Bool :=
  out.node.kind == .select && out.node.table == "ledger" && out.node.predicate.isNone &&
    out.node.projection == [⟨"amount", .nat⟩] && out.node.orderBy == [⟨column, .asc⟩] &&
    out.node.limit.isNone

theorem of_asksAmounts {column : String}
    (h : (amountsBy column).1.toOption.any (asksAmounts column) = true) :
    ∃ out, (amountsBy column).1 = .ok out ∧ out.node.kind = .select ∧ out.node.table = "ledger" ∧
      out.node.predicate = none ∧ out.node.projection = [⟨"amount", .nat⟩] ∧
      out.node.orderBy = [⟨column, .asc⟩] ∧ out.node.limit = none := by
  obtain ⟨out, hout, h⟩ := Outcome.exists_of_any_toOption h
  simp only [asksAmounts, Bool.and_eq_true, beq_iff_eq, Option.isNone_iff_eq_none] at h
  obtain ⟨⟨⟨⟨⟨hkind, htable⟩, hpredicate⟩, hprojection⟩, hkeys⟩, hlimit⟩ := h
  exact ⟨out, hout, hkind, htable, hpredicate, hprojection, hkeys, hlimit⟩

/-- In the order of the amounts the texts do not show, and in their own order they do. -/
theorem amountsBy_alike :
    (∃ out, (amountsBy "amount").1 = .ok out ∧ ∀ s s' : Store,
      List.Forall₂ (Row.Alike (Profile.teller.Sees .ledger)) (s.rows "ledger") (s'.rows "ledger") →
        (s.submit out.node).1 = (s'.submit out.node).1) ∧
    ∃ out, (amountsBy "memo").1 = .ok out ∧ ∃ s s' : Store,
      List.Forall₂ (Row.Alike (Profile.teller.Sees .ledger)) (s.rows "ledger")
        (s'.rows "ledger") ∧ (s.submit out.node).1 ≠ (s'.submit out.node).1 := by
  constructor
  · obtain ⟨out, hout, hkind, htable, -, -, hkeys, -⟩ := of_asksAmounts
      (show (amountsBy "amount").1.toOption.any (asksAmounts "amount") = true by decide +kernel)
    refine ⟨out, hout, fun s s' hrows => ?_⟩
    refine (answer_alike (.ofConfig default) hout rfl hkind).1 ?_ s s' (htable ▸ hrows)
    rw [hkeys]
    decide
  · obtain ⟨out, hout, hkind, htable, hpredicate, hprojection, hkeys, hlimit⟩ := of_asksAmounts
      (show (amountsBy "memo").1.toOption.any (asksAmounts "memo") = true by decide +kernel)
    have htied :
        Store.Tied out.node [] ⟨"memo", .asc⟩ [("amount", .nat 1)] [("amount", .nat 2)] := by
      refine ⟨?_, by decide, rfl, ?_, by simp [hlimit]⟩
      · rw [hpredicate]
        exact ⟨rfl, rfl⟩
      · rw [hprojection]
        show ([("amount", .nat 1)] : Row) ≠ [("amount", .nat 2)]
        simp
    have h := (answer_alike (.ofConfig default) hout rfl hkind).2 [] _ [] hkeys (by simp)
      (by decide) _ _ htied (.text "rent")
      ⟨[("ledger", [[("amount", .nat 1), ("memo", .text "rent")], [("amount", .nat 2)]])], []⟩
      ⟨[("ledger", [[("amount", .nat 1)], [("amount", .nat 2), ("memo", .text "rent")]])], []⟩
      (by rw [htable]; rfl) (by rw [htable]; rfl)
    exact ⟨out, hout, _, _, htable ▸ h.1, h.2⟩

end Compiler
end Attest
