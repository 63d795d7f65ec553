import Attest.Proofs.Compiler
import Attest.Proofs.Node.RoundTrip
import Attest.Proofs.Node.Stamp

/-!
What earlier compilations leave behind makes no difference to the next one.

The cache holds nothing but certificates as they would be minted again, whatever it was asked for
and whatever it has forgotten, so with a cache or without one the cells of a node are the same.  The
clock is seen in the time of the provenance and nowhere else.
-/

namespace Attest

open Outcome (Agree)

/-- The configuration with no room for certificates. -/
def BuiltConfig.uncached (config : BuiltConfig) : BuiltConfig where
  toConfig := { config.toConfig with
    settings := config.settings.set .cacheCapacity (.number 0) }
  valid := by
    have hvalid := config.valid
    unfold Config.fault? Settings.outOfRange? at hvalid ⊢
    rw [Option.map_eq_none_iff, List.findSome?_eq_none_iff] at hvalid ⊢
    intro k hk
    cases k with
    | cacheCapacity => rfl
    | _ => exact hvalid _ hk

/-- Outputs that are the same but for the time in the provenance.  The bytes of each are those of
its node. -/
structure Output.Alike (o o' : Output) : Prop where
  node : ∃ t, o'.node = o.node.stamp t
  format : o'.format = o.format
  encoded : o.format.writeNode o.node = .ok o.encoded ∧
    o'.format.writeNode o'.node = .ok o'.encoded
  warnings : o'.warnings = o.warnings
  trace : o'.trace = o.trace
  timed : o'.timed = o.timed

namespace Compiler

/-- Compilers of a configuration with a history: after every compilation of whatever kind, the
cache may forget what it likes and others may turn the clock. -/
inductive After (config : BuiltConfig) : Compiler → Prop where
  | start : After config (ofConfig config)
  | compile {c : Compiler} (h : After config c) (now : UInt64) (cancel : Cancellation)
      (r : Request) (schema : Schema) (profile : Profile) :
      After config (c.compile now cancel r schema profile).2
  | forget {c : Compiler} (h : After config c) (entries : List (CertificateKey × Certificate))
      (hentries : entries ⊆ c.cache.entries) :
      After config { c with cache := { c.cache with entries } }
  | turn {c : Compiler} (h : After config c) (clock : Clock) : After config { c with clock }

variable {c c' : Compiler}

/-- No history changes the configuration or makes the cache unfaithful. -/
theorem After.invariant {config : BuiltConfig} (h : After config c) :
    c.config = config ∧ c.cache.Faithful := by
  induction h with
  | start => exact ⟨rfl, CertificateCache.faithful_empty _⟩
  | @compile c _ now cancel r schema profile ih =>
    obtain ⟨clock, h | ⟨t, p, h⟩⟩ := compile_leaves c now cancel r schema profile
    · rw [h]
      exact ih
    · rw [h]
      exact ⟨ih.1, Node.lower_faithful ih.2 t p⟩
  | forget _ entries hentries ih => exact ⟨ih.1, fun e he => ih.2 e (hentries he)⟩
  | turn _ clock ih => exact ih

theorem agree_lower (hc : c.cache.Faithful) (hc' : c'.cache.Faithful) (now now' : UInt64)
    (r : Request) (profile : Profile) (s : TypedStatement) :
    Agree (fun n m => ∃ t, m = n.stamp t) (c.lower now r profile s).1
      (c'.lower now' r profile s).1 := by
  have hresolve := s.provenance.agree_resolve r.defaults s.kind c.clock c'.clock now now'
  unfold lower
  generalize s.provenance.resolve r.defaults s.kind c.clock now = x at hresolve ⊢
  generalize s.provenance.resolve r.defaults s.kind c'.clock now' = y at hresolve ⊢
  obtain ⟨p, clock⟩ := x
  obtain ⟨q, clock'⟩ := y
  cases hresolve with
  | error e => exact .error _
  | @ok p q h =>
    obtain ⟨t, rfl⟩ := h
    refine (Node.agree_lower hc hc' s t p).map ?_
    rintro n m rfl
    exact ⟨t, rfl⟩

theorem config_lower (c : Compiler) (now : UInt64) (r : Request) (profile : Profile)
    (s : TypedStatement) : (c.lower now r profile s).2.config = c.config := by
  obtain ⟨clock, h | ⟨p, h⟩⟩ := lower_leaves (c := c) now r profile s <;> rw [h]

theorem agree_finish (hformat : c'.config.settings.format = c.config.settings.format)
    (cancel : Cancellation) (r : Request) (profile : Profile) (warnings : List String) (n : Node)
    (t : UInt64) (run : Run) :
    Agree Output.Alike (c.finish cancel r profile warnings n run)
      (c'.finish cancel r profile warnings (n.stamp t) run) := by
  unfold finish
  rw [hformat, Profile.validate_stamp]
  refine .bind_same _ fun run => .bind_same _ fun _ => .bind_same _ fun run => ?_
  refine (Format.agree_writeNode _ t n).results.mapError _ |>.bind ?_
  rintro e e' ⟨he, he', hwarnings⟩
  refine .bind_same _ fun run => .ok ?_
  exact ⟨⟨t, rfl⟩, rfl, ⟨he, he'⟩, congrArg (warnings ++ ·) hwarnings, rfl, rfl⟩

section Settings

variable (hc : c.cache.Faithful) (hc' : c'.cache.Faithful) {capacity : Nat}
  (hsettings : c'.config.settings = c.config.settings.set .cacheCapacity (.number capacity))
  (now now' : UInt64) (cancel : Cancellation) (r : Request) (schema : Schema) (profile : Profile)

include hc hc' hsettings

theorem agree_back (s : Statement) (run : Run) :
    Agree Output.Alike (c.back now cancel r s schema profile run).1
      (c'.back now' cancel r s schema profile run).1 := by
  have hverifier : c'.verifier = c.verifier := by
    unfold verifier
    rw [hsettings]
    rfl
  unfold back
  rw [hverifier]
  cases Checker.check schema c.verifier s with
  | error e => exact .error _
  | ok typed =>
    cases run.advance cancel with
    | error e => exact .error _
    | ok run =>
      have hlower := agree_lower hc hc' now now' r profile typed
      have hformat : (c'.lower now' r profile typed).2.config.settings.format =
          (c.lower now r profile typed).2.config.settings.format := by
        rw [config_lower, config_lower, hsettings]
        rfl
      dsimp only
      generalize c.lower now r profile typed = x at hlower hformat ⊢
      generalize c'.lower now' r profile typed = y at hlower hformat ⊢
      obtain ⟨x, d⟩ := x
      obtain ⟨y, d'⟩ := y
      cases hlower with
      | error e => exact .error _
      | @ok n m h =>
        obtain ⟨t, rfl⟩ := h
        exact agree_finish hformat cancel r profile typed.warnings n t run

/-- Faithful compilers whose settings differ in the room for certificates only give the same. -/
theorem agree_compile :
    Agree Output.Alike (c.compile now cancel r schema profile).1
      (c'.compile now' cancel r schema profile).1 := by
  have hfront : c'.front cancel r = c.front cancel r := by
    unfold front tokenize
    rw [hsettings]
    rfl
  unfold compile
  rw [hfront]
  cases c.front cancel r with
  | error e => exact .error e
  | ok p => exact agree_back hc hc' hsettings now now' cancel r schema profile p.1 p.2

end Settings

/-- Whatever was compiled before, a compilation gives what a new compiler without a cache gives: the
same error, or the same output but for the time of its provenance. -/
theorem compile_agrees_with_fresh {config : BuiltConfig} (hc : c.After config) (now now' : UInt64)
    (cancel : Cancellation) (r : Request) (schema : Schema) (profile : Profile) :
    Agree Output.Alike (c.compile now cancel r schema profile).1
      ((ofConfig config.uncached).compile now' cancel r schema profile).1 := by
  obtain ⟨rfl, hfaithful⟩ := hc.invariant
  have hfresh : (ofConfig c.config.uncached).cache.Faithful := CertificateCache.faithful_empty _
  exact agree_compile hfaithful hfresh rfl now now' cancel r schema profile

def insertsSeven : Request where
  source := "INSERT INTO t SET a = 7 ACTOR \"x\" RATIONALE \"y\""
  role := "r"

/-- The compiler after the row was inserted at the sixth millisecond. -/
def afterSeven : Compiler :=
  ((ofConfig default).compile 6 none insertsSeven .natural (.unrestricted "r")).2

/-- The second time the certificate comes from the cache, and the row is the same. -/
theorem compile_agrees_with_fresh_seven :
    (afterSeven.compile 6 none insertsSeven .natural (.unrestricted "r")).2.cache.hits = 1 ∧
      Agree Output.Alike (afterSeven.compile 6 none insertsSeven .natural (.unrestricted "r")).1
        ((ofConfig (default : BuiltConfig).uncached).compile 6 none insertsSeven .natural
          (.unrestricted "r")).1 :=
  ⟨by decide +kernel, compile_agrees_with_fresh (.compile .start _ _ _ _ _) _ _ _ _ _ _⟩

end Compiler
end Attest
