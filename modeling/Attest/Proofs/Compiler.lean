import Attest.Compiler
import Attest.Proofs.Node.Lowering

/-!
What a compilation is made of.

All that outlives one are a clock and a cache, and the cache is one that lowering leaves.
-/

namespace Attest

open Outcome (FailsOnly)

/-- A stage that does not begin was cancelled, or there is none. -/
theorem Run.failsOnly_advance {P : CompileError → Prop} (hcancelled : ∀ stage, P (.cancelled stage))
    (hillegal : ∀ move, P (.illegal move)) (run : Run) (cancel : Cancellation) :
    FailsOnly P (run.advance cancel) := by
  unfold advance
  dsimp only
  split
  · exact .error (hillegal _)
  · split
    · exact .error (hcancelled _)
    · split
      · exact .ok _
      · exact .error (hillegal _)

namespace Compiler

/-- Compilers as they come to be: new at first, and then whatever a compilation leaves. -/
inductive Reachable : Compiler → Prop where
  | ofConfig (config : BuiltConfig) : Reachable (ofConfig config)
  | compile {c : Compiler} (h : Reachable c) (now : UInt64) (cancel : Cancellation) (r : Request)
      (schema : Schema) (profile : Profile) :
      Reachable (c.compile now cancel r schema profile).2

variable {c : Compiler} {now : UInt64} {cancel : Cancellation} {r : Request} {schema : Schema}
  {profile : Profile}

theorem lower_leaves (now : UInt64) (r : Request) (profile : Profile) (t : TypedStatement) :
    ∃ clock, (c.lower now r profile t).2 = { c with clock } ∨
      ∃ p, (c.lower now r profile t).2 = { c with clock, cache := (Node.lower c.cache t p).2 } := by
  unfold lower
  dsimp only
  split
  · exact ⟨_, .inl rfl⟩
  · exact ⟨_, .inr ⟨_, rfl⟩⟩

/-- A compilation leaves the configuration as it was, and the cache as it was or as the lowering of
one statement leaves it. -/
theorem compile_leaves (c : Compiler) (now : UInt64) (cancel : Cancellation) (r : Request)
    (schema : Schema) (profile : Profile) :
    ∃ clock, (c.compile now cancel r schema profile).2 = { c with clock } ∨
      ∃ t p, (c.compile now cancel r schema profile).2 =
        { c with clock, cache := (Node.lower c.cache t p).2 } := by
  unfold compile
  split
  · exact ⟨_, .inl rfl⟩
  · unfold back
    split
    · exact ⟨_, .inl rfl⟩
    · next t ht =>
      split
      · exact ⟨_, .inl rfl⟩
      · obtain ⟨clock, hlower⟩ := lower_leaves (c := c) now r profile t
        refine ⟨clock, hlower.imp (fun h => ?_) fun ⟨p, h⟩ => ⟨t, p, ?_⟩⟩
        all_goals
          rw [← h]
          split <;> next heq => rw [heq]

theorem cache_compile (hc : c.cache.Reachable) :
    (c.compile now cancel r schema profile).2.cache.Reachable := by
  obtain ⟨clock, h | ⟨t, p, h⟩⟩ := compile_leaves c now cancel r schema profile
  · rw [h]
    exact hc
  · rw [h]
    exact hc.lower t p

theorem Reachable.cache (h : c.Reachable) : c.cache.Reachable := by
  induction h with
  | ofConfig config => exact .empty _
  | compile _ now cancel r schema profile ih => exact cache_compile ih

theorem finish_eq_ok {warnings : List String} {n : Node} {run : Run} {out : Output}
    (h : c.finish cancel r profile warnings n run = .ok out) :
    out.node = n ∧ profile.validate n = .ok () ∧ out.format.writeNode n = .ok out.encoded := by
  obtain ⟨run, -, h⟩ := Outcome.bind_eq_ok.mp h
  obtain ⟨⟨⟩, hvalid, h⟩ := Outcome.bind_eq_ok.mp h
  obtain ⟨run, -, h⟩ := Outcome.bind_eq_ok.mp h
  obtain ⟨encoded, hencoded, h⟩ := Outcome.bind_eq_ok.mp h
  obtain ⟨run, -, h⟩ := Outcome.bind_eq_ok.mp h
  cases h
  exact ⟨rfl, Outcome.mapError_eq_ok.mp hvalid, Outcome.mapError_eq_ok.mp hencoded⟩

/-- A node may be forbidden, or it cannot be written. -/
theorem failsOnly_finish {P : CompileError → Prop} (hcancelled : ∀ stage, P (.cancelled stage))
    (hillegal : ∀ move, P (.illegal move)) (hpermission : ∀ why, P (.permission why))
    (hwire : ∀ why, P (.wire why)) (c : Compiler) (cancel : Cancellation) (r : Request)
    (profile : Profile) (warnings : List String) (n : Node) (run : Run) :
    FailsOnly P (c.finish cancel r profile warnings n run) := by
  have hadvance := Run.failsOnly_advance hcancelled hillegal
  refine (hadvance run cancel).bind fun run => (FailsOnly.mapError hpermission).bind fun _ => ?_
  refine (hadvance run cancel).bind fun run => (FailsOnly.mapError hwire).bind fun _ => ?_
  exact (hadvance run cancel).bind fun run => .ok _

theorem lower_eq_ok {t : TypedStatement} {n : Node} (h : (c.lower now r profile t).1 = .ok n) :
    ∃ p m, (t.provenance.resolve r.defaults t.kind c.clock now).1 = .ok p ∧
      (Node.lower c.cache t p).1 = .ok m ∧ n = m.bindRole profile.role := by
  unfold lower at h
  dsimp only at h
  split at h
  · cases h
  · next p hp =>
    obtain ⟨m, hm, rfl⟩ := Outcome.map_eq_ok.mp h
    exact ⟨p, m, hp, hm, rfl⟩

/-- What an output was made of: a checked statement, its record, its node, which the profile
permits, and the bytes of that. -/
theorem back_eq_ok {s : Statement} {run : Run} {out : Output}
    (h : (c.back now cancel r s schema profile run).1 = .ok out) :
    ∃ t p n, Checker.check schema c.verifier s = .ok t ∧
      (t.provenance.resolve r.defaults t.kind c.clock now).1 = .ok p ∧
        (Node.lower c.cache t p).1 = .ok n ∧ out.node = n.bindRole profile.role ∧
          profile.validate out.node = .ok () ∧ out.format.writeNode out.node = .ok out.encoded := by
  unfold back at h
  split at h
  · cases h
  · next t ht =>
    split at h
    · cases h
    · split at h
      · cases h
      · next n c' hlower =>
        obtain ⟨rfl, hvalid, hencoded⟩ := finish_eq_ok h
        obtain ⟨p, m, hp, hm, hn⟩ := lower_eq_ok (congrArg Prod.fst hlower)
        exact ⟨t, p, m, ht, hp, hm, hn, hvalid, hencoded⟩

theorem compile_eq_ok {out : Output} (h : (c.compile now cancel r schema profile).1 = .ok out) :
    ∃ s t p n, Checker.check schema c.verifier s = .ok t ∧ (Node.lower c.cache t p).1 = .ok n ∧
      out.node = n.bindRole profile.role ∧ profile.validate out.node = .ok () ∧
        out.format.writeNode out.node = .ok out.encoded := by
  unfold compile at h
  split at h
  · cases h
  · next s run hfront =>
    obtain ⟨t, p, n, ht, -, hn⟩ := back_eq_ok h
    exact ⟨s, t, p, n, ht, hn⟩

end Compiler
end Attest
