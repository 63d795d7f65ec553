import Attest.Proofs.Compiler
import Attest.Proofs.Statement.Clauses

/-!
Who made a change and why, from the source to the node.

Both texts come from the clauses of the statement or else from the request, each on its own.  A
compiled change carries them, and neither is blank.  Where one is missing or blank, a change that
passed the checks fails at the lowering, whatever else may be wrong with it.
-/

namespace Attest

/-- Whether nothing is said, or nothing but white space. -/
def Text.isUnsaid (o : Option String) : Bool := o.all isBlank

theorem Provenance.make_cases (actor : String) (time : UInt64) (rationale : String) :
    (∃ p, make actor time rationale = .ok p ∧ p.actor = actor ∧ p.rationale = rationale) ∨
      (∃ e, make actor time rationale = .error e) ∧
        (Text.isBlank actor = true ∨ Text.isBlank rationale = true) := by
  unfold make
  by_cases ha : Text.isBlank actor = true
  · exact .inr ⟨⟨_, dif_pos ha⟩, .inl ha⟩
  · rw [dif_neg ha]
    by_cases hr : Text.isBlank rationale = true
    · exact .inr ⟨⟨_, dif_pos hr⟩, .inr hr⟩
    · exact .inl ⟨_, dif_neg hr, rfl, rfl⟩

/-- A change has a record of what the statement says or else the request, or one of the two texts
is not said. -/
theorem ProvenanceClause.resolve_change (clause defaults : ProvenanceClause) {kind : StatementKind}
    (hk : kind.isMutation = true) (clock : Clock) (now : UInt64) :
    (∃ p, (clause.resolve defaults kind clock now).1 = .ok (some p) ∧
      (clause.actor <|> defaults.actor) = some p.actor ∧
        (clause.rationale <|> defaults.rationale) = some p.rationale) ∨
      (∃ why, (clause.resolve defaults kind clock now).1 = .error why) ∧
        (Text.isUnsaid (clause.actor <|> defaults.actor) = true ∨
          Text.isUnsaid (clause.rationale <|> defaults.rationale) = true) := by
  unfold resolve
  rw [hk]
  generalize (clause.actor <|> defaults.actor) = actor
  generalize (clause.rationale <|> defaults.rationale) = rationale
  cases actor with
  | none => exact .inr ⟨⟨_, rfl⟩, .inl rfl⟩
  | some a =>
    cases rationale with
    | none => exact .inr ⟨⟨_, rfl⟩, .inr rfl⟩
    | some x =>
      dsimp only
      rcases Provenance.make_cases a (clock.tick now).1 x with
        ⟨p, hp, rfl, rfl⟩ | ⟨⟨e, he⟩, hblank⟩
      · exact .inl ⟨p, by rw [hp]; rfl, rfl, rfl⟩
      · exact .inr ⟨⟨.invalid e, by rw [he]; rfl⟩, hblank⟩

theorem CompileError.eq_of_kind {e : CompileError} (h : e.kind = "provenance") :
    ∃ why, e = .lowering (.provenance why) := by
  cases e with
  | lowering why =>
    cases why with
    | provenance why => exact ⟨why, rfl⟩
    | refinement why => simp [kind] at h
  | check why => cases why <;> simp [kind] at h
  | _ => simp [kind] at h

/-- Who makes the change: what the source says, or else the request. -/
def Request.actor? (r : Request) (ts : List Token) : Option String :=
  TokenKind.textAfter? .ACTOR (Token.words ts) <|> r.defaults.actor

/-- Why the change is made: what the source says, or else the request. -/
def Request.rationale? (r : Request) (ts : List Token) : Option String :=
  TokenKind.textAfter? .RATIONALE (Token.words ts) <|> r.defaults.rationale

namespace Compiler

variable {c : Compiler} {now : UInt64} {cancel : Cancellation} {r : Request} {schema : Schema}
  {profile : Profile}

theorem ended_of_tokenize {source : String} {ts : List Token} (h : c.tokenize source = .ok ts) :
    Token.Ended ts := by
  unfold tokenize at h
  dsimp only at h
  split at h
  · cases h
  · split at h
    · cases h
    · cases h
    · next hnone =>
      cases h
      exact Lexer.ended_tokensFrom hnone

theorem front_eq_ok {s : Statement} {run : Run} (h : c.front cancel r = .ok (s, run)) :
    ∃ ts, c.tokenize r.source = .ok ts ∧
      Statement.ofTokens c.config.settings.maxDepth ts = .ok s := by
  obtain ⟨_, -, h⟩ := Outcome.bind_eq_ok.mp h
  obtain ⟨ts, hts, h⟩ := Outcome.bind_eq_ok.mp h
  obtain ⟨_, -, h⟩ := Outcome.bind_eq_ok.mp h
  obtain ⟨s', hs, h⟩ := Outcome.bind_eq_ok.mp h
  obtain ⟨_, -, h⟩ := Outcome.bind_eq_ok.mp h
  cases h
  exact ⟨ts, hts, Outcome.mapError_eq_ok.mp hs⟩

/-- What is asked of the source and the request is what the checked statement and the request
say. -/
theorem said_of_check {ts : List Token} {st : Statement} {t : TypedStatement}
    (hts : c.tokenize r.source = .ok ts)
    (hst : Statement.ofTokens c.config.settings.maxDepth ts = .ok st)
    (ht : Checker.check schema c.verifier st = .ok t) :
    (t.provenance.actor <|> r.defaults.actor) = r.actor? ts ∧
      (t.provenance.rationale <|> r.defaults.rationale) = r.rationale? ts := by
  obtain ⟨hactor, hrationale⟩ := Statement.provenance_of_ofTokens (ended_of_tokenize hts) hst
  unfold Request.actor? Request.rationale?
  rw [(Checker.checked_of_check ht).provenance, hactor, hrationale]
  exact ⟨rfl, rfl⟩

/-- Past the checker a compilation that is not cancelled comes to the lowering, and fails there or
goes on with the node. -/
theorem compile_of_check (now : UInt64) (profile : Profile) {ts : List Token} {st : Statement}
    {t : TypedStatement} (hts : c.tokenize r.source = .ok ts)
    (hst : Statement.ofTokens c.config.settings.maxDepth ts = .ok st)
    (ht : Checker.check schema c.verifier st = .ok t) :
    (∃ e, (c.lower now r profile t).1 = .error e ∧
      (c.compile now none r schema profile).1 = .error (.lowering e)) ∨
      ∃ n c' run, (c.lower now r profile t).1 = .ok n ∧
        (c.compile now none r schema profile).1 =
          finish c' none r profile t.warnings n run := by
  -- the first four stages follow one another whatever the request
  obtain ⟨run₁, h₁, run₂, h₂, run₃, h₃, run₄, h₄⟩ : ∃ run₁, Run.advance {} none = .ok run₁ ∧
      ∃ run₂, run₁.advance none = .ok run₂ ∧ ∃ run₃, run₂.advance none = .ok run₃ ∧
        ∃ run₄, run₃.advance none = .ok run₄ := ⟨_, rfl, _, rfl, _, rfl, _, rfl⟩
  have hfront : c.front none r = .ok (st, run₃) :=
    Outcome.bind_eq_ok.mpr ⟨run₁, h₁, Outcome.bind_eq_ok.mpr ⟨ts, hts,
      Outcome.bind_eq_ok.mpr ⟨run₂, h₂, Outcome.bind_eq_ok.mpr ⟨st, Outcome.mapError_eq_ok.mpr hst,
        Outcome.bind_eq_ok.mpr ⟨run₃, h₃, rfl⟩⟩⟩⟩⟩
  unfold compile
  rw [hfront]
  dsimp only
  unfold back
  rw [ht]
  dsimp only
  rw [h₄]
  dsimp only
  split
  · next e c' hlower => exact .inl ⟨e, by rw [hlower], rfl⟩
  · next n c' hlower => exact .inr ⟨n, c', run₄, by rw [hlower], rfl⟩

/-- A node carries the record that was found for its statement. -/
theorem provenance_of_lower {t : TypedStatement} {p : Option Provenance} {n : Node}
    (h : (Node.lower c.cache t p).1 = .ok n) :
    n.kind = t.kind ∧ Node.provenanceOf t p = .ok n.provenance := by
  unfold Node.lower at h
  split at h
  · cases h
  · next provenance hprovenance =>
    dsimp only at h
    split at h
    · cases h
    · cases h
      exact ⟨rfl, hprovenance⟩

theorem provenance_of_compile {out : Output}
    (h : (c.compile now cancel r schema profile).1 = .ok out) :
    ∃ ts st, c.tokenize r.source = .ok ts ∧
      Statement.ofTokens c.config.settings.maxDepth ts = .ok st ∧ out.node.kind = st.kind ∧
        if st.kind.isMutation then
          ∃ p, out.node.provenance = some p ∧ r.actor? ts = some p.actor ∧
            r.rationale? ts = some p.rationale
        else out.node.provenance = none := by
  unfold compile at h
  split at h
  · cases h
  · next st run hfront =>
    obtain ⟨ts, hts, hst⟩ := front_eq_ok hfront
    obtain ⟨t, p, n, ht, hp, hn, hnode, -⟩ := back_eq_ok h
    obtain ⟨hactor, hrationale⟩ := said_of_check hts hst ht
    obtain ⟨hkind, hprovenance⟩ := provenance_of_lower hn
    refine ⟨ts, st, hts, hst, ?_⟩
    rw [hnode, ← (Checker.checked_of_check ht).kind]
    refine ⟨hkind, ?_⟩
    show if _ then ∃ p, n.provenance = some p ∧ _ else n.provenance = none
    by_cases hk : t.kind.isMutation = true
    · rw [if_pos hk]
      rcases t.provenance.resolve_change r.defaults hk c.clock now with
        ⟨q, hq, ha, hr⟩ | ⟨⟨why, hwhy⟩, -⟩
      · rw [hp] at hq
        cases hq
        have hrecord : n.provenance = some q := by
          simpa [Node.provenanceOf, hk, eq_comm] using hprovenance
        exact ⟨q, hrecord, hactor ▸ ha, hrationale ▸ hr⟩
      · rw [hp] at hwhy
        cases hwhy
    · rw [if_neg hk]
      simpa [Node.provenanceOf, hk, eq_comm] using hprovenance

/-- Lowering fails for want of a record exactly if a text is not said, and before all else. -/
theorem lower_provenance {t : TypedStatement} (hk : t.kind.isMutation = true) (now : UInt64)
    (r : Request) (profile : Profile) :
    if Text.isUnsaid (t.provenance.actor <|> r.defaults.actor) ||
        Text.isUnsaid (t.provenance.rationale <|> r.defaults.rationale) then
      ∃ why, (c.lower now r profile t).1 = .error (.provenance why)
    else ∀ why, (c.lower now r profile t).1 ≠ .error (.provenance why) := by
  rcases t.provenance.resolve_change r.defaults hk c.clock now with
    ⟨q, hq, ha, hr⟩ | ⟨⟨why, hwhy⟩, hunsaid⟩
  · have hrecord : Node.provenanceOf t (some q) = .ok (some q) := by simp [Node.provenanceOf, hk]
    have hsaid : (Text.isUnsaid (some q.actor) || Text.isUnsaid (some q.rationale)) = false := by
      simp [Text.isUnsaid, q.valid]
    rw [ha, hr, hsaid, if_neg (by simp)]
    intro why h
    unfold lower at h
    simp only [hq] at h
    rw [Node.lower_of_provenanceOf hrecord] at h
    have hpredicate := Outcome.map_eq_error.mp (Outcome.map_eq_error.mp h)
    unfold Node.predicateOf at hpredicate
    split at hpredicate
    · cases hpredicate
    · split at hpredicate <;> cases hpredicate
  · rw [if_pos (by simpa using hunsaid)]
    refine ⟨why, ?_⟩
    unfold lower
    simp only [hwhy]

/-- A compilation that comes to the lowering fails for want of a record exactly as that does. -/
theorem compile_unsaid (now : UInt64) (profile : Profile) {ts : List Token} {st : Statement}
    {t : TypedStatement} (hts : c.tokenize r.source = .ok ts)
    (hst : Statement.ofTokens c.config.settings.maxDepth ts = .ok st)
    (ht : Checker.check schema c.verifier st = .ok t) (hk : st.kind.isMutation = true) :
    if Text.isUnsaid (r.actor? ts) || Text.isUnsaid (r.rationale? ts) then
      ∃ why, (c.compile now none r schema profile).1 = .error (.lowering (.provenance why))
    else ∀ why, (c.compile now none r schema profile).1 ≠ .error (.lowering (.provenance why)) := by
  rw [← (Checker.checked_of_check ht).kind] at hk
  obtain ⟨ha, hr⟩ := said_of_check hts hst ht
  have hlower := lower_provenance (c := c) hk now r profile
  rw [ha, hr] at hlower
  rcases compile_of_check now profile hts hst ht with ⟨e, he, hcompile⟩ | ⟨n, c', run, hn, hcompile⟩
  · rw [hcompile]
    simpa [he] using hlower
  · rw [hcompile]
    have hfinish : ∀ why, finish c' none r profile t.warnings n run ≠
        .error (.lowering (.provenance why)) := by
      intro why h
      exact failsOnly_finish (P := fun e => e ≠ .lowering (.provenance why)) (fun _ h => by cases h)
        (fun _ h => by cases h) (fun _ h => by cases h) (fun _ h => by cases h) c' none r profile
        t.warnings n run _ h rfl
    split at hlower
    · obtain ⟨why, hwhy⟩ := hlower
      rw [hn] at hwhy
      cases hwhy
    · next hsaid =>
      rw [if_neg hsaid]
      exact hfinish

/-- A compiled change carries who made it and why, from the source or else from the request, and
neither is blank; a query carries neither.  A change that passed the checks fails for want of them
exactly if one of them is missing or blank. -/
theorem compile_provenance (c : Compiler) (now : UInt64) (r : Request) (schema : Schema)
    (profile : Profile) :
    (∀ cancel out, (c.compile now cancel r schema profile).1 = .ok out →
      ∃ ts st, c.tokenize r.source = .ok ts ∧
        Statement.ofTokens c.config.settings.maxDepth ts = .ok st ∧ out.node.kind = st.kind ∧
          if st.kind.isMutation then
            ∃ p, out.node.provenance = some p ∧ r.actor? ts = some p.actor ∧
              r.rationale? ts = some p.rationale ∧ Text.isBlank p.actor = false ∧
                Text.isBlank p.rationale = false
          else out.node.provenance = none) ∧
      ∀ ts st t, c.tokenize r.source = .ok ts →
        Statement.ofTokens c.config.settings.maxDepth ts = .ok st →
        Checker.check schema c.verifier st = .ok t → st.kind.isMutation = true →
        if Text.isUnsaid (r.actor? ts) || Text.isUnsaid (r.rationale? ts) then
          ∃ e, (c.compile now none r schema profile).1 = .error e ∧ e.kind = "provenance" ∧
            e.stage = .lowering
        else ∀ e, (c.compile now none r schema profile).1 = .error e → e.kind ≠ "provenance" := by
  constructor
  · intro cancel out h
    obtain ⟨ts, st, hts, hst, hkind, hrecord⟩ := provenance_of_compile h
    refine ⟨ts, st, hts, hst, hkind, ?_⟩
    by_cases hk : st.kind.isMutation = true
    · rw [if_pos hk] at hrecord ⊢
      obtain ⟨p, hp, ha, hr⟩ := hrecord
      exact ⟨p, hp, ha, hr, p.valid⟩
    · rwa [if_neg hk] at hrecord ⊢
  · intro ts st t hts hst ht hk
    have hcompile := compile_unsaid now profile hts hst ht hk
    split at hcompile
    · next hunsaid =>
      obtain ⟨why, hwhy⟩ := hcompile
      rw [if_pos hunsaid]
      exact ⟨_, hwhy, rfl, rfl⟩
    · next hsaid =>
      rw [if_neg hsaid]
      intro e he hkind
      obtain ⟨why, rfl⟩ := CompileError.eq_of_kind hkind
      exact hcompile why he

end Compiler

def Schema.visits : Schema where
  name := "visits"
  columns := [⟨"room", .nat, false, false⟩]
  valid := rfl

/-- A deletion with these clauses, from someone who gives a name and a reason for whatever comes. -/
def Request.clearsRoom (clauses : String) : Request where
  source := "DELETE FROM visits WHERE room = 3 " ++ clauses
  role := "r"
  defaults := ⟨some "ann", some "routine"⟩

namespace Compiler

def clearsRoom (clauses : String) : Except CompileError Output × Compiler :=
  (ofConfig default).compile 0 none (.clearsRoom clauses) .visits (.unrestricted "r")

/-- Whether tokens are a change of visits that passes the checks. -/
def changesVisits (ts : List Token) : Bool :=
  (Statement.ofTokens (ofConfig default).config.settings.maxDepth ts).toOption.any fun st =>
    st.kind.isMutation &&
      (Checker.check .visits (ofConfig default).verifier st).toOption.any fun _ => true

/-- A clause goes before what is given for all statements, also where it is blank. -/
theorem clearsRoom_provenance :
    (∃ out p, (clearsRoom "ACTOR \"eve\" RATIONALE \"moved\"").1 = .ok out ∧
      out.node.provenance = some p ∧ p.actor = "eve" ∧ p.rationale = "moved") ∧
      ∃ e, (clearsRoom "RATIONALE \" \"").1 = .error e ∧ e.kind = "provenance" ∧
        e.stage = .lowering := by
  have hresult := fun clauses =>
    compile_provenance (ofConfig default) 0 (.clearsRoom clauses) .visits (.unrestricted "r")
  constructor
  · obtain ⟨out, hout, hk⟩ := Outcome.exists_of_any_toOption
      (show (clearsRoom "ACTOR \"eve\" RATIONALE \"moved\"").1.toOption.any
        (fun out => out.node.kind.isMutation) = true by decide +kernel)
    obtain ⟨ts, st, hts, -, hkind, hrecord⟩ := (hresult _).1 none out hout
    obtain ⟨ts', hts', hsaid⟩ := Outcome.exists_of_any_toOption
      (show ((ofConfig default).tokenize
          (Request.clearsRoom "ACTOR \"eve\" RATIONALE \"moved\"").source).toOption.any
        (fun ts => (Request.clearsRoom "").actor? ts == some "eve" &&
          (Request.clearsRoom "").rationale? ts == some "moved") = true by decide +kernel)
    cases hts.symm.trans hts'
    rw [hkind] at hk
    rw [if_pos hk] at hrecord
    obtain ⟨p, hp, ha, hr, -⟩ := hrecord
    simp only [Bool.and_eq_true, beq_iff_eq] at hsaid
    exact ⟨out, p, hout, hp, Option.some.inj (ha.symm.trans hsaid.1),
      Option.some.inj (hr.symm.trans hsaid.2)⟩
  · obtain ⟨ts, hts, h⟩ := Outcome.exists_of_any_toOption
      (show ((ofConfig default).tokenize (Request.clearsRoom "RATIONALE \" \"").source).toOption.any
        (fun ts => changesVisits ts && Text.isUnsaid ((Request.clearsRoom "").rationale? ts)) = true
        by decide +kernel)
    obtain ⟨hchanges, hunsaid⟩ := Bool.and_eq_true_iff.mp h
    obtain ⟨st, hst, h⟩ := Outcome.exists_of_any_toOption hchanges
    obtain ⟨hk, hchecks⟩ := Bool.and_eq_true_iff.mp h
    obtain ⟨t, ht, -⟩ := Outcome.exists_of_any_toOption hchecks
    have hfails := (hresult "RATIONALE \" \"").2 ts st t hts hst ht hk
    rwa [show Text.isUnsaid ((Request.clearsRoom "RATIONALE \" \"").rationale? ts) = true from
      hunsaid, Bool.or_true, if_pos rfl] at hfails

end Compiler
end Attest
