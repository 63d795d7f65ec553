import Attest.Proofs.Checker.Statement
import Attest.Proofs.Expr.Spelling
import Attest.Proofs.Statement.Clauses

/-!
The names in a statement.

Tables and columns are named by identifiers of the source and by nothing else, so whatever holds of
all identifiers among the tokens holds of every name in the statement.  The checker looks names up
and keeps them as they are written.
-/

namespace Attest

/-- An identifier of this kind has a name that satisfies a condition. -/
def TokenKind.Named (P : String → Prop) (k : TokenKind) : Prop := ∀ name, k = .ident name → P name

open TokenKind (Named)

variable {P : String → Prop}

namespace Expr

theorem mem_of_spelled {d l : Nat} {ks : List TokenKind} {e : Expr} (h : Spelled d l ks e) :
    ∀ id ∈ e.columns, .ident id.name ∈ ks := by
  induction h with
  | column => simp [columns]
  | literal => simp [columns]
  | parens _ ih => exact fun id hid => List.mem_cons_of_mem _ (List.mem_append_left _ (ih id hid))
  | unary _ _ ih => exact fun id hid => List.mem_cons_of_mem _ (ih id hid)
  | isNull _ _ ih => exact fun id hid => List.mem_append_left _ (ih id hid)
  | binary _ _ _ _ ihl ihr =>
    refine List.forall_mem_append.mpr ⟨fun id hid => List.mem_append_left _ (ihl id hid), ?_⟩
    exact fun id hid => List.mem_append_right _ (List.mem_cons_of_mem _ (ihr id hid))

theorem ensures_columns (limit : Nat) :
    Parser.Ensures (Named P) (parser limit) fun e => ∀ id ∈ e.columns, P id.name := by
  refine .of_passes fun s e t hs h => ?_
  obtain ⟨l, ks, hpass, hspelled, -⟩ := sound_parserAt 0 _ _ _ (Nat.zero_le _) hs h
  exact ⟨ks, hpass, fun hks id hid => hks _ (mem_of_spelled hspelled id hid) _ rfl⟩

end Expr

namespace Statement

/-- All identifiers in a statement satisfy a condition, and all expressions another. -/
structure Parts (I : Ident → Prop) (Q : Expr → Prop) (st : Statement) : Prop where
  table : I st.table
  assignments : ∀ a ∈ st.assignments, I a.column ∧ Q a.value
  condition : ∀ e ∈ st.condition, Q e
  projection : ∀ ids, st.projection = .columns ids → ∀ id ∈ ids, I id
  orderKeys : ∀ k ∈ st.orderKeys, I k.column

section Parts

variable {K : TokenKind → Prop} {I : Ident → Prop} {Q : Expr → Prop} {limit : Nat}

theorem ensures_assignmentsParser (hident : Parser.Ensures K identParser I)
    (hexpr : Parser.Ensures K (Expr.parser limit) Q) :
    Parser.Ensures K (assignmentsParser limit) fun as => ∀ a ∈ as, I a.column ∧ Q a.value := by
  have htype : Parser.Takes TokenKind.IsBody (Parser.symbol .colon >>= fun _ =>
      Ty.parserAt limit limit) :=
    .bind (.symbol (by decide)) fun _ => Ty.takes_parserAt limit limit
  exact .sepBy <| hident.bind fun _ hid => .bind (.symbol .eq) fun _ _ => hexpr.bind fun _ he =>
    .bind (.of_takes htype.optional) fun _ _ => .pure ⟨hid, he⟩

theorem ensures_whereParser (hexpr : Parser.Ensures K (Expr.parser limit) Q) :
    Parser.Ensures K (whereParser limit) fun o => ∀ e ∈ o, Q e :=
  .optional (.bind (.keyword (by decide)) fun _ => Expr.takes_parserAt limit limit 0)
    (.bind (.keyword .WHERE) fun _ _ => hexpr)

theorem ensures_insertParser (hident : Parser.Ensures K identParser I)
    (hexpr : Parser.Ensures K (Expr.parser limit) Q) :
    Parser.Ensures K (insertParser limit) (Parts I Q) :=
  .bind (.keyword .INSERT) fun _ _ => .bind (.keyword .INTO) fun _ _ => hident.bind fun _ htable =>
    .bind (.keyword .SET) fun _ _ => (ensures_assignmentsParser hident hexpr).bind fun _ has =>
      .bind (.of_takes takes_provenanceParser) fun _ _ =>
        .pure ⟨htable, has, by simp [condition], by simp [projection], by simp [orderKeys]⟩

theorem ensures_updateParser (hident : Parser.Ensures K identParser I)
    (hexpr : Parser.Ensures K (Expr.parser limit) Q) :
    Parser.Ensures K (updateParser limit) (Parts I Q) :=
  .bind (.keyword .UPDATE) fun _ _ => hident.bind fun _ htable => .bind (.keyword .SET) fun _ _ =>
    (ensures_assignmentsParser hident hexpr).bind fun _ has =>
      (ensures_whereParser hexpr).bind fun _ hwhere =>
        .bind (.of_takes (takes_reasonedParser _)) fun _ _ =>
          .pure ⟨htable, has, hwhere, by simp [projection], by simp [orderKeys]⟩

theorem ensures_deleteParser (hident : Parser.Ensures K identParser I)
    (hexpr : Parser.Ensures K (Expr.parser limit) Q) :
    Parser.Ensures K (deleteParser limit) (Parts I Q) := by
  refine .bind (.keyword .DELETE) fun _ _ => .bind (.keyword .FROM) fun _ _ =>
    hident.bind fun _ htable => (ensures_whereParser hexpr).bind fun o hwhere => ?_
  cases o with
  | none => exact .refuse _ _
  | some e =>
    exact .bind (.of_takes (takes_reasonedParser _)) fun _ _ =>
      .pure ⟨htable, by simp [assignments], hwhere, by simp [projection], by simp [orderKeys]⟩

theorem ensures_projectionParser (hident : Parser.Ensures K identParser I) :
    Parser.Ensures K projectionParser fun p => ∀ ids, p = .columns ids → ∀ id ∈ ids, I id := by
  refine .bind (.takeSymbol .star) fun star _ => ?_
  cases star with
  | true => exact .pure (by simp)
  | false =>
    exact (Parser.Ensures.sepBy hident).bind fun _ hids => .pure (by simpa using hids)

theorem ensures_orderByParser (hident : Parser.Ensures K identParser I) :
    Parser.Ensures K orderByParser fun keys => ∀ k ∈ keys, I k.column := by
  have hkey : Parser.Ensures K orderKeyParser fun k => I k.column := by
    refine hident.bind fun id hid => .bind (.takeKeyword .DESC) fun falls _ => ?_
    cases falls with
    | true => exact .pure hid
    | false => exact .bind (.takeKeyword .ASC) fun _ _ => .pure hid
  refine .bind (.takeKeyword .ORDER) fun ordered _ => ?_
  cases ordered with
  | true => exact .bind (.keyword .BY) fun _ _ => .sepBy hkey
  | false => exact .pure (by simp)

theorem ensures_selectParser (hident : Parser.Ensures K identParser I)
    (hexpr : Parser.Ensures K (Expr.parser limit) Q) :
    Parser.Ensures K (selectParser limit) (Parts I Q) :=
  .bind (.keyword .SELECT) fun _ _ => (ensures_projectionParser hident).bind fun _ hprojection =>
    .bind (.keyword .FROM) fun _ _ => hident.bind fun _ htable =>
      (ensures_whereParser hexpr).bind fun _ hwhere =>
        (ensures_orderByParser hident).bind fun _ hkeys =>
          .bind (.of_takes takes_limitParser) fun _ _ =>
            .pure ⟨htable, by simp [assignments], hwhere, hprojection, hkeys⟩

theorem ensures_normalizeParser (hident : Parser.Ensures K identParser I) :
    Parser.Ensures K normalizeParser (Parts I Q) := by
  have hall {table : Ident} (htable : I table) (target : Option NormalForm)
      (c : ProvenanceClause) : Parts I Q (normalize table target c) :=
    ⟨htable, by simp [assignments], by simp [condition], by simp [projection],
      by simp [orderKeys]⟩
  refine .bind (.keyword .NORMALIZE) fun _ _ => hident.bind fun _ htable =>
    .bind (.takeKeyword .TO) fun named _ => ?_
  cases named with
  | true =>
    exact .bind (.of_takes (.map takes_normalFormParser)) fun _ _ =>
      .bind (.of_takes (takes_reasonedParser _)) fun _ _ => .pure (hall htable _ _)
  | false =>
    exact .bind (P := fun _ => True) (.pure trivial) fun _ _ =>
      .bind (.of_takes (takes_reasonedParser _)) fun _ _ => .pure (hall htable _ _)

theorem ensures_bodyParser (hident : Parser.Ensures K identParser I)
    (hexpr : Parser.Ensures K (Expr.parser limit) Q) :
    Parser.Ensures K (bodyParser limit) (Parts I Q) := by
  refine .bind .stream fun s _ => ?_
  split
  · exact ensures_insertParser hident hexpr
  · exact ensures_selectParser hident hexpr
  · exact ensures_updateParser hident hexpr
  · exact ensures_deleteParser hident hexpr
  · exact ensures_normalizeParser hident
  · exact .unexpected _

/-- A statement is made of what its parsers of identifiers and expressions give. -/
theorem ensures_parts (hident : Parser.Ensures K identParser I)
    (hexpr : Parser.Ensures K (Expr.parser limit) Q) :
    Parser.Ensures K (parser limit) (Parts I Q) := by
  refine (ensures_bodyParser hident hexpr).bind fun st hst =>
    .bind (.takeSymbol .semicolon) fun _ _ => .bind .stream fun s _ => ?_
  split
  · exact .pure hst
  · exact .unexpected _

theorem parts_of_ofTokens {ts : List Token} {st : Statement} (hts : ∀ t ∈ ts, K t.kind)
    (hident : Parser.Ensures K identParser I)
    (hexpr : Parser.Ensures K (Expr.parser (max limit 1)) Q) (h : ofTokens limit ts = .ok st) :
    st.Parts I Q := by
  obtain ⟨u, hparse⟩ := Parser.run_eq_ok h
  have hstream : (TokenStream.ofTokens ts).MadeOf K :=
    ⟨fun t ht => hts t (TokenStream.mem_of_mem_ofTokens ht), TokenStream.last_ofTokens ts⟩
  exact (ensures_parts hident hexpr _ _ _ hstream hparse).1

end Parts

/-- All names in a statement satisfy a condition. -/
structure Names (P : String → Prop) (st : Statement) : Prop where
  table : P st.table.name
  assignments : ∀ a ∈ st.assignments, P a.column.name
  condition : ∀ e ∈ st.condition, ∀ id ∈ e.columns, P id.name
  projection : ∀ ids, st.projection = .columns ids → ∀ id ∈ ids, P id.name
  orderKeys : ∀ k ∈ st.orderKeys, P k.column.name

theorem ensures_identParser : Parser.Ensures (Named P) identParser fun id => P id.name := by
  refine .bind (P := fun a => P a.1) (.expect fun t a hnamed ha => ?_) fun a ha => .pure ha
  split at ha
  · next name hname =>
    cases ha
    exact hnamed (by simp [hname]) _ hname
  · cases ha

/-- A statement has no names but those of its identifiers. -/
theorem names_of_ofTokens {limit : Nat} {ts : List Token} {st : Statement}
    (hts : ∀ t ∈ ts, t.kind.Named P) (h : ofTokens limit ts = .ok st) : st.Names P := by
  have hst := parts_of_ofTokens hts ensures_identParser (Expr.ensures_columns _) h
  exact ⟨hst.table, fun a ha => (hst.assignments a ha).1, hst.condition, hst.projection,
    hst.orderKeys⟩

end Statement

/-- All names that a checked statement has from its source satisfy a condition. -/
structure TypedStatement.Names (P : String → Prop) (t : TypedStatement) : Prop where
  table : P t.table
  assignments : ∀ a ∈ t.assignments, P a.column
  predicate : ∀ c ∈ (t.predicate.map TypedExpr.columns).getD [], P c.name
  orderBy : ∀ k ∈ t.orderBy, P k.column.name

namespace Checker

variable {s : Schema} {v : Verifier} {st : Statement} {t : TypedStatement}

theorem forall_of_resolved {ids : List Ident} {cs : List ColumnRef}
    (h : List.Forall₂ (fun id c => resolve s id = .ok c) ids cs) (hids : ∀ id ∈ ids, P id.name) :
    ∀ c ∈ cs, P c.name := by
  intro c hc
  obtain ⟨id, hid, hresolve⟩ := (Outcome.exists_of_forall₂ h).2 c hc
  rw [name_of_resolve hresolve]
  exact hids id hid

/-- A checked statement has the names of its source. -/
theorem Checked.names (h : Checked s v st t) (hst : st.Names P) : t.Names P where
  table := by
    rw [h.table.1]
    exact hst.table
  assignments := by
    intro b hb
    obtain ⟨a, ha, hab⟩ :=
      (Outcome.exists_of_forall₂ (assigned_of_assignments h.assignments)).2 b hb
    rw [hab.name]
    exact hst.assignments a ha
  predicate := by
    refine forall_of_resolved (resolved_of_predicate h.condition) ?_
    cases he : st.condition with
    | none => simp
    | some e => exact hst.condition e he
  orderBy := by
    intro k hk
    obtain ⟨key, hkey, horder⟩ :=
      (Outcome.exists_of_forall₂ (Outcome.mapM_eq_ok.mp h.orderBy)).2 k hk
    rw [name_of_resolve (resolve_eq_ok.mpr (sorts_of_orderKey horder).column)]
    exact hst.orderKeys key hkey

end Checker
end Attest
