import Attest.Proofs.Checker.Table
import Attest.Proofs.Compiler
import Attest.Service

/-!
What a compilation takes from where schemas and profiles are looked up.

Only the checker finds fault with a statement's types, and it sees the schema that was found for
the statement's table.  So where every schema is found under its own name no statement is about the
wrong table, and where every profile is found under its own role a node is bound to the role that
was asked for.
-/

namespace Attest

open Outcome

/-- An error is not the checker's. -/
def CompileError.Unchecked (e : CompileError) : Prop := ∀ why, e ≠ .check why

theorem Run.unchecked_advance (run : Run) (cancel : Cancellation) :
    FailsOnly CompileError.Unchecked (run.advance cancel) :=
  failsOnly_advance (fun _ _ h => by cases h) (fun _ _ h => by cases h) run cancel

namespace Compiler

variable {c : Compiler} {now : UInt64} {cancel : Cancellation} {d : Directory} {r : Request}

theorem unchecked_tokenize (c : Compiler) (source : String) :
    FailsOnly CompileError.Unchecked (c.tokenize source) := by
  unfold tokenize
  dsimp only
  split_ifs
  · exact .error fun _ h => by cases h
  · split
    · exact .error fun _ h => by cases h
    · exact .error fun _ h => by cases h
    · exact .ok _

theorem unchecked_front (c : Compiler) (cancel : Cancellation) (r : Request) :
    FailsOnly CompileError.Unchecked (c.front cancel r) := by
  refine (Run.unchecked_advance _ cancel).bind fun run => ?_
  refine (unchecked_tokenize c r.source).bind fun ts => ?_
  refine (Run.unchecked_advance run cancel).bind fun run => ?_
  refine (FailsOnly.mapError fun _ _ h => by cases h).bind fun s => ?_
  exact (Run.unchecked_advance run cancel).bind fun run => .ok (s, run)

theorem unchecked_findSchema (c : Compiler) (cancel : Cancellation) (d : Directory)
    (table : String) : FailsOnly CompileError.Unchecked (c.findSchema cancel d table) := by
  unfold findSchema
  split
  · exact .error fun _ h => by cases h
  · split
    · exact .mapError fun _ _ h => by cases h
    · split
      · exact .error fun _ h => by cases h
      · exact .error fun _ h => by cases h

theorem unchecked_finish (c : Compiler) (cancel : Cancellation) (r : Request) (profile : Profile)
    (warnings : List String) (n : Node) (run : Run) :
    FailsOnly CompileError.Unchecked (c.finish cancel r profile warnings n run) :=
  failsOnly_finish (fun _ _ h => by cases h) (fun _ _ h => by cases h) (fun _ _ h => by cases h)
    (fun _ _ h => by cases h) c cancel r profile warnings n run

/-- Past the front only the checker gives an error of the checker. -/
theorem check_of_back {s : Statement} {schema : Schema} {profile : Profile} {run : Run}
    {why : CheckError} (h : (c.back now cancel r s schema profile run).1 = .error (.check why)) :
    Checker.check schema c.verifier s = .error why := by
  unfold back at h
  split at h
  · next e he =>
    cases h
    exact he
  · split at h
    · next e he =>
      cases h
      exact absurd rfl (Run.unchecked_advance _ cancel _ he why)
    · split at h
      · cases h
      · exact absurd rfl (unchecked_finish _ cancel r profile _ _ _ _ h why)

theorem schema_of_findSchema {table : String} {schema : Schema}
    (h : c.findSchema cancel d table = .ok schema) : d.schema table = .answer (.ok schema) := by
  unfold findSchema at h
  split at h
  · cases h
  · split at h
    · next found hfound => rw [hfound, mapError_eq_ok.mp h]
    · split at h <;> cases h

/-- A compilation fails before the checker sees anything, or it goes on with what it has found. -/
theorem serve_cases (c : Compiler) (now : UInt64) (cancel : Cancellation) (d : Directory)
    (r : Request) :
    (∃ e, e.Unchecked ∧ (c.serve now cancel d r).1 = .error e) ∨
      ∃ s run schema profile, d.schema s.table.name = .answer (.ok schema) ∧
        d.profile r.role = .ok profile ∧
          c.serve now cancel d r = c.back now cancel r s schema profile run := by
  unfold serve
  dsimp only
  split
  · next e he =>
    refine .inl ⟨e, ?_, rfl⟩
    refine FailsOnly.bind (unchecked_front c cancel r) (fun ⟨s, run⟩ => ?_) e he
    refine (unchecked_findSchema c cancel d s.table.name).bind fun schema => ?_
    refine (FailsOnly.mapError fun _ _ h => by cases h).bind fun profile => ?_
    exact .ok (s, run, schema, profile)
  · next s run schema profile hfound =>
    obtain ⟨found, -, hfound⟩ := bind_eq_ok.mp hfound
    obtain ⟨_, hschema, hfound⟩ := bind_eq_ok.mp hfound
    obtain ⟨_, hprofile, hfound⟩ := bind_eq_ok.mp hfound
    cases hfound
    exact .inr ⟨_, _, schema, profile, schema_of_findSchema hschema, mapError_eq_ok.mp hprofile,
      rfl⟩

/-- Where a schema is found under its own name only, no statement is about the wrong table. -/
theorem serve_ne_wrongTable
    (hd : ∀ name schema, d.schema name = .answer (.ok schema) → schema.name = name)
    (p : Position) (found table : String) :
    (c.serve now cancel d r).1 ≠ .error (.check (.type ⟨p, .wrongTable found table⟩)) := by
  intro h
  rcases serve_cases c now cancel d r with ⟨e, he, heq⟩ | ⟨s, run, schema, profile, hs, -, heq⟩
  · rw [heq] at h
    cases h
    exact he _ rfl
  · rw [heq] at h
    exact Checker.ne_of_wrongTable (check_of_back h) (hd _ _ hs).symm

/-- Where a profile is found under its own role only, a node is bound to the role asked for. -/
theorem role_of_serve (hd : ∀ role profile, d.profile role = .ok profile → profile.role = role)
    {out : Output} (h : (c.serve now cancel d r).1 = .ok out) :
    out.node.access.role = some r.role := by
  rcases serve_cases c now cancel d r with ⟨e, -, heq⟩ | ⟨s, run, schema, profile, -, hp, heq⟩
  · rw [heq] at h
    cases h
  · rw [heq] at h
    obtain ⟨t, p, n, -, -, -, hnode, -⟩ := back_eq_ok h
    rw [hnode, ← hd _ _ hp]
    rfl

end Compiler
end Attest
