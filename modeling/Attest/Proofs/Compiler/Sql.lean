import Attest.Proofs.Compiler.Provenance
import Attest.Proofs.Sql.Quoting
import Attest.Proofs.Statement.Names

/-!
The SQL of what is compiled.

The names in a compiled node are words of the source, so its SQL keeps every value in quotes.  This
does not hold of a query for all columns, whose names are those of the schema, whatever they are.
-/

namespace Attest

/-- Whether a statement has SQL in which all names are its own. -/
def Statement.listsColumns : Statement → Bool
  | normalize .. => false
  | select _ .all _ _ _ => false
  | _ => true

theorem Statement.condition_of_insert {st : Statement} (h : st.kind = .insert) :
    st.condition = none := by
  cases st <;> first | rfl | cases h

theorem Statement.assignments_of_reading {st : Statement}
    (h : st.kind = .select ∨ st.kind = .delete) : st.assignments = [] := by
  cases st with
  | insert | update => rcases h with h | h <;> cases h
  | _ => rfl

open Lexer (IsWord)

theorem TokenKind.Lexed.named {k : TokenKind} (h : k.Lexed) : k.Named IsWord := by
  rintro name rfl
  exact h.1

namespace Sql

theorem kind_ne_normalize {st : Statement} (h : st.listsColumns = true) :
    st.kind ≠ .normalize := by
  cases st with
  | normalize => cases h
  | _ => simp [Statement.kind]

/-- A node has the names of its source. -/
theorem worded_of_lower {s : Schema} {v : Verifier} {st : Statement} {t : TypedStatement}
    {cache : CertificateCache} {p : Option Provenance} {n : Node} (hst : st.Names IsWord)
    (hlists : st.listsColumns = true) (ht : Checker.check s v st = .ok t)
    (hn : (Node.lower cache t p).1 = .ok n) : Worded n := by
  have hchecked := Checker.checked_of_check ht
  have hnames := hchecked.names hst
  have hassignments := hchecked.assignments
  have hcondition := hchecked.condition
  obtain ⟨provenance, q, -, hq, rfl⟩ := Node.lower_eq_assemble hn
  constructor
  case table => exact hnames.table
  case cells =>
    intro c hc
    have hmem : c.column ∈ (Node.cellsOf cache t.assignments).1.map (·.column) :=
      List.mem_map_of_mem hc
    rw [Node.columns_cellsOf] at hmem
    obtain ⟨a, ha, hname⟩ := List.mem_map.mp hmem
    exact hname ▸ hnames.assignments a ha
  case predicate =>
    intro p hp c hc
    have hmem : c ∈ (q.map Predicate.columns).getD [] := by
      rw [show q = some p from hp]
      exact hc
    rw [Node.columns_predicateOf hq] at hmem
    exact hnames.predicate c hmem
  case orderBy =>
    intro k hk
    obtain ⟨key, hkey, rfl⟩ := List.mem_map.mp hk
    exact hnames.orderBy key hkey
  case projection =>
    intro hk
    have hk : st.kind = .select := hchecked.kind.symm.trans hk
    cases st with
    | select table columns p keys limit =>
      cases columns with
      | all => cases hlists
      | columns ids =>
        exact Checker.forall_of_resolved (Outcome.mapM_eq_ok.mp hchecked.projection)
          (hst.projection ids rfl)
    | _ => cases hk
  case unconditional =>
    intro hk
    rw [Statement.condition_of_insert (hchecked.kind.symm.trans hk)] at hcondition
    have hnone : t.predicate = none := (Except.ok.inj hcondition).symm
    rcases Node.predicateOf_eq_ok.mp hq with ⟨-, rfl⟩ | ⟨e, p, he, -⟩
    · rfl
    · cases hnone.symm.trans he
  case reading =>
    intro hk
    rw [Statement.assignments_of_reading (by rwa [← hchecked.kind])] at hassignments
    have hnil : t.assignments = [] := (Except.ok.inj hassignments).symm
    show (Node.cellsOf cache t.assignments).1 = []
    rw [hnil]
    rfl

end Sql

namespace Compiler

variable {c : Compiler} {now : UInt64} {cancel : Cancellation} {r : Request} {schema : Schema}
  {profile : Profile}

theorem lexed_of_tokenize {source : String} {ts : List Token} (h : c.tokenize source = .ok ts) :
    ∀ t ∈ ts, t.kind.Lexed := by
  unfold tokenize at h
  dsimp only at h
  split at h
  · cases h
  · split at h <;> cases h
    exact fun t ht => Lexer.lexed_of_mem_tokensFrom ht

/-- Behind its first line, the SQL of a compiled statement keeps every value in quotes: these
balance and hold the texts of the values in order, and outside of them there is no comment and no
semicolon but the last character. -/
theorem compile_sql_encloses {out : Output}
    (h : (c.compile now cancel r schema profile).1 = .ok out) :
    ∃ ts st, c.tokenize r.source = .ok ts ∧
      Statement.ofTokens c.config.settings.maxDepth ts = .ok st ∧
        (st.listsColumns = true →
          Sql.Encloses (Sql.afterFirstLine (Sql.text out.node)) out.node.payloads) := by
  unfold compile at h
  split at h
  · cases h
  · next st run hfront =>
    obtain ⟨ts, hts, hst⟩ := front_eq_ok hfront
    obtain ⟨t, p, n, ht, -, hn, hnode, -⟩ := back_eq_ok h
    refine ⟨ts, st, hts, hst, fun hlists => ?_⟩
    have hnames := Statement.names_of_ofTokens (fun t ht => (lexed_of_tokenize hts t ht).named) hst
    have hworded := Sql.worded_of_lower hnames hlists ht hn
    have hkind : n.kind ≠ .normalize := by
      rw [(provenance_of_lower hn).1, (Checker.checked_of_check ht).kind]
      exact Sql.kind_ne_normalize hlists
    -- the role is no part of the text
    have hencloses := Sql.encloses_text hworded hkind
    rw [hnode]
    exact hencloses

end Compiler

def Schema.letters : Schema where
  name := "letters"
  columns := [⟨"sender", .string, false, false⟩, ⟨"body", .string, false, false⟩,
    ⟨"weight", .int, false, false⟩]
  valid := rfl

def Request.editsLetter : Request where
  source := "UPDATE letters SET body = \"it's -- /* ';'\" " ++
    "WHERE sender = \"o''neil\" AND weight - -1 > 0 RATIONALE \"edited\""
  role := "r"
  defaults := ⟨some "ann", none⟩

namespace Compiler

def editsLetter : Except CompileError Output × Compiler :=
  (ofConfig default).compile 0 none .editsLetter .letters (.unrestricted "r")

/-- Quotes, comments and semicolons in the values, and one minus behind another outside. -/
theorem editsLetter_encloses :
    ∃ out, editsLetter.1 = .ok out ∧ out.node.payloads = ["it's -- /* ';'", "o''neil"] ∧
      Sql.statement out.node = "UPDATE letters SET body = 'it''s -- /* '';''' " ++
        "WHERE ((sender = 'o''''neil') AND ((weight - -1) > 0));" ∧
      Sql.Encloses (Sql.afterFirstLine (Sql.text out.node)) out.node.payloads := by
  obtain ⟨out, hout, h⟩ := Outcome.exists_of_any_toOption
    (show editsLetter.1.toOption.any (fun out =>
        out.node.payloads == ["it's -- /* ';'", "o''neil"] &&
          Sql.statement out.node == "UPDATE letters SET body = 'it''s -- /* '';''' " ++
            "WHERE ((sender = 'o''''neil') AND ((weight - -1) > 0));") = true by decide +kernel)
  simp only [Bool.and_eq_true, beq_iff_eq] at h
  obtain ⟨ts, st, hts, hst, hencloses⟩ := compile_sql_encloses hout
  obtain ⟨ts', hts', hlists⟩ := Outcome.exists_of_any_toOption
    (show ((ofConfig default).tokenize Request.editsLetter.source).toOption.any (fun ts =>
        (Statement.ofTokens (ofConfig default).config.settings.maxDepth ts).toOption.any
          (·.listsColumns)) = true by decide +kernel)
  cases hts.symm.trans hts'
  obtain ⟨st', hst', hlists⟩ := Outcome.exists_of_any_toOption hlists
  cases hst.symm.trans hst'
  exact ⟨out, hout, h.1, h.2, hencloses hlists⟩

end Compiler
end Attest
