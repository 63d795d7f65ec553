import Attest.Proofs.Compiler.History

/-!
Cancelled compilations.

A cancellation is looked for at the boundaries between stages and nowhere else.  So it has no part
in what a stage computes, and the earlier of two events decides: the first boundary that sees the
cancellation, or the first stage that fails.
-/

namespace Attest

open Outcome (Agree FailsOnly)

namespace Stage

def Before (s t : Stage) : Prop := (Moment.boundary s).rank < (Moment.boundary t).rank

instance : DecidableRel Before := fun _ _ => Nat.decLt _ _

/-- The stages that come after one, in order. -/
def later (s : Stage) : List Stage := sequence.filter fun t => s.Before t

variable {s t : Stage}

theorem later_of_next? (h : s.next? = some t) : s.later = t :: t.later := by
  cases s <;> cases h <;> rfl

theorem before_of_mem_later (h : t ∈ s.later) : s.Before t :=
  of_decide_eq_true (List.mem_filter.mp h).2

theorem before_of_next? (h : s.next? = some t) : s.Before t :=
  before_of_mem_later (by rw [later_of_next? h]; exact List.mem_cons_self)

end Stage

/-- The first boundary after a stage at which a cancellation is seen. -/
def Cancellation.firstAfter? (cancel : Cancellation) (s : Stage) : Option Stage :=
  s.later.find? fun t => cancel.seenAt (.boundary t)

namespace Cancellation

variable {cancel : Cancellation} {s t : Stage}

theorem firstAfter?_of_seen (h : s.next? = some t) (hseen : cancel.seenAt (.boundary t) = true) :
    cancel.firstAfter? s = some t := by
  rw [firstAfter?, Stage.later_of_next? h]
  exact List.find?_cons_of_pos hseen

theorem firstAfter?_of_unseen (h : s.next? = some t)
    (hseen : ¬ cancel.seenAt (.boundary t) = true) :
    cancel.firstAfter? s = cancel.firstAfter? t := by
  rw [firstAfter?, Stage.later_of_next? h]
  exact List.find?_cons_of_neg hseen

theorem before_of_firstAfter? (h : cancel.firstAfter? s = some t) : s.Before t :=
  Stage.before_of_mem_later (List.mem_of_find?_eq_some h)

end Cancellation

namespace Run

/-- The run that has just come into a stage. -/
def into (s : Stage) : Run :=
  ⟨⟨s, Stage.sequence.takeWhile (· != s) ++ [s]⟩, (Stage.sequence.takeWhile (· != s)).tail⟩

theorem advance_into {s t : Stage} (h : s.next? = some t) (cancel : Cancellation) :
    (into s).advance cancel =
      if cancel.seenAt (.boundary t) then .error (.cancelled t) else .ok (into t) := by
  cases s <;> cases h <;> rfl

end Run

/-- What becomes of the rest `y` of a compilation, from a stage on, when it can be cancelled. -/
structure Interrupted {α : Type} (cancel : Cancellation) (s : Stage)
    (y x : Except CompileError α) : Prop where
  late : ∀ e, y = .error e → ¬ e.stage.Before s
  same : (∀ t, cancel.firstAfter? s = some t → ∃ e, y = .error e ∧ e.stage.Before t) → x = y
  cancelled : ∀ t, cancel.firstAfter? s = some t → (∀ e, y = .error e → ¬ e.stage.Before t) →
    x = .error (.cancelled t)

namespace Interrupted

variable {α β : Type} {cancel : Cancellation} {s t : Stage}

theorem done (a : α) : Interrupted cancel .done (.ok a) (.ok a) where
  late := by simp
  same := fun _ => rfl
  cancelled := by
    intro t ht
    cases ht

/-- Work in the stage itself does not see the cancellation. -/
theorem work {w : Except CompileError β} (hw : FailsOnly (·.stage = s) w)
    {f g : β → Except CompileError α} (h : ∀ b, Interrupted cancel s (f b) (g b)) :
    Interrupted cancel s (w >>= f) (w >>= g) := by
  cases w with
  | ok b => exact h b
  | error e =>
    have hstage : e.stage = s := hw e rfl
    refine ⟨fun e' he => ?_, fun _ => rfl, fun t ht he => ?_⟩
    · cases he
      rw [hstage]
      exact Nat.lt_irrefl _
    · exact absurd (hstage ▸ Cancellation.before_of_firstAfter? ht) (he e rfl)

/-- At a boundary the cancellation is seen, or what comes next decides. -/
theorem boundary (hnext : s.next? = some t) {f g : Run → Except CompileError α}
    (h : Interrupted cancel t (f (.into t)) (g (.into t))) :
    Interrupted cancel s ((Run.into s).advance none >>= f) ((Run.into s).advance cancel >>= g) := by
  have hplain : (Run.into s).advance none >>= f = f (.into t) := by
    rw [Run.advance_into hnext]
    rfl
  have hlate : ∀ e, f (.into t) = .error e → ¬ e.stage.Before s := by
    intro e he hbefore
    exact h.late e he (Nat.lt_trans hbefore (Stage.before_of_next? hnext))
  rw [hplain, Run.advance_into hnext]
  by_cases hseen : cancel.seenAt (.boundary t) = true
  · rw [if_pos hseen]
    have hfirst := Cancellation.firstAfter?_of_seen hnext hseen
    refine ⟨hlate, fun hsame => ?_, fun t' ht' _ => ?_⟩
    · obtain ⟨e, he, hbefore⟩ := hsame t hfirst
      exact absurd hbefore (h.late e he)
    · rw [hfirst] at ht'
      cases ht'
      rfl
  · rw [if_neg hseen]
    have hfirst := Cancellation.firstAfter?_of_unseen hnext hseen
    exact ⟨hlate, hfirst ▸ h.same, hfirst ▸ h.cancelled⟩

end Interrupted

namespace Compiler

variable {c c' : Compiler} (now : UInt64) (cancel : Cancellation) (r : Request) (schema : Schema)
  (profile : Profile)

theorem failsOnly_tokenize (c : Compiler) (source : String) :
    FailsOnly (·.stage = .tokenizing) (c.tokenize source) := by
  unfold tokenize
  dsimp only
  split
  · exact .error rfl
  · split
    · exact .error rfl
    · exact .error rfl
    · exact .ok _

theorem interrupted_finish (c : Compiler) (warnings : List String) (n : Node) :
    Interrupted cancel .lowering (c.finish none r profile warnings n (.into .lowering))
      (c.finish cancel r profile warnings n (.into .lowering)) := by
  unfold finish
  refine .boundary rfl (.work (.mapError (f := CompileError.permission) fun _ => rfl) fun _ => ?_)
  refine .boundary rfl (.work (.mapError (f := CompileError.wire) fun _ => rfl) fun _ => ?_)
  exact .boundary rfl (.done _)

theorem back_fst (c : Compiler) (s : Statement) (run : Run) :
    (c.back now cancel r s schema profile run).1 =
      (Checker.check schema c.verifier s).mapError .check >>= fun typed =>
        run.advance cancel >>= fun run =>
          (c.lower now r profile typed).1.mapError .lowering >>= fun n =>
            (c.lower now r profile typed).2.finish cancel r profile typed.warnings n run := by
  unfold back
  cases Checker.check schema c.verifier s with
  | error e => rfl
  | ok typed =>
    cases run.advance cancel with
    | error e => rfl
    | ok run =>
      show _ = (c.lower now r profile typed).1.mapError CompileError.lowering >>= _
      dsimp only
      cases c.lower now r profile typed with
      | mk n c' => cases n <;> rfl

theorem compile_fst (c : Compiler) :
    (c.compile now cancel r schema profile).1 =
      (Run.into .idle).advance cancel >>= fun run =>
        c.tokenize r.source >>= fun ts =>
          run.advance cancel >>= fun run =>
            (Statement.ofTokens c.config.settings.maxDepth ts).mapError .parse >>= fun s =>
              run.advance cancel >>= fun run => (c.back now cancel r s schema profile run).1 := by
  have hfront : (c.compile now cancel r schema profile).1 =
      c.front cancel r >>= fun p => (c.back now cancel r p.1 schema profile p.2).1 := by
    unfold compile
    cases c.front cancel r <;> rfl
  rw [hfront]
  unfold front
  simp only [bind_assoc, pure_bind]
  rfl

theorem interrupted_back (c : Compiler) (s : Statement) :
    Interrupted cancel .typeChecking
      (c.back now none r s schema profile (.into .typeChecking)).1
      (c.back now cancel r s schema profile (.into .typeChecking)).1 := by
  rw [back_fst, back_fst]
  refine .work (.mapError (f := CompileError.check) fun _ => rfl) fun typed => ?_
  refine .boundary rfl (.work (.mapError (f := CompileError.lowering) fun _ => rfl) fun n => ?_)
  exact interrupted_finish cancel r profile _ typed.warnings n

theorem interrupted_compile (c : Compiler) :
    Interrupted cancel .idle (c.compile now none r schema profile).1
      (c.compile now cancel r schema profile).1 := by
  rw [compile_fst, compile_fst]
  refine .boundary rfl (.work (failsOnly_tokenize c r.source) fun ts => ?_)
  refine .boundary rfl (.work (.mapError (f := CompileError.parse) fun _ => rfl) fun s => ?_)
  exact .boundary rfl (interrupted_back now cancel r schema profile c s)

/-- A compilation that can be cancelled gives what one gives that cannot, at whatever time and after
whatever others: the same error, or the same output but for the time of its provenance.  It does so
if no boundary sees the cancellation, or if a stage fails that comes before the first one that does.
Otherwise it fails as cancelled, and names the stage that was about to begin. -/
theorem compile_cancelled {config : BuiltConfig} (hc : c.After config) (hc' : c'.After config)
    (now now' : UInt64) (cancel : Cancellation) (r : Request) (schema : Schema)
    (profile : Profile) :
    (cancel.firstAfter? .idle = none →
      Agree Output.Alike (c.compile now none r schema profile).1
        (c'.compile now' cancel r schema profile).1) ∧
    ∀ s, cancel.firstAfter? .idle = some s →
      (∀ e, (c.compile now none r schema profile).1 = .error e → e.stage.Before s →
        (c'.compile now' cancel r schema profile).1 = .error e) ∧
      ((∀ e, (c.compile now none r schema profile).1 = .error e → ¬ e.stage.Before s) →
        ∃ e, (c'.compile now' cancel r schema profile).1 = .error e ∧ e.kind = "cancelled" ∧
          e.stage = s) := by
  obtain ⟨hconfig, hfaithful⟩ := hc.invariant
  obtain ⟨hconfig', hfaithful'⟩ := hc'.invariant
  have hsettings : c'.config.settings =
      c.config.settings.set .cacheCapacity (.number c.config.settings.cacheCapacity) := by
    rw [hconfig', hconfig]
    rfl
  have hagree := agree_compile hfaithful hfaithful' hsettings now now' cancel r schema profile
  have hinterrupted := interrupted_compile now cancel r schema profile c
  have herror : ∀ e, (c.compile now cancel r schema profile).1 = .error e →
      (c'.compile now' cancel r schema profile).1 = .error e := by
    intro e he
    rw [he] at hagree
    generalize (c'.compile now' cancel r schema profile).1 = x at hagree
    cases hagree
    rfl
  refine ⟨fun hnone => ?_, fun s hs => ⟨fun e he hbefore => ?_, fun he => ?_⟩⟩
  · rw [← hinterrupted.same (by simp [hnone])]
    exact hagree
  · refine herror e ((hinterrupted.same fun t ht => ?_).trans he)
    rw [hs] at ht
    cases ht
    exact ⟨e, he, hbefore⟩
  · exact ⟨_, herror _ (hinterrupted.cancelled s hs he), rfl, rfl⟩

def removesThrees : Request where
  source := "DELETE FROM t WHERE a = 3 ACTOR \"x\" RATIONALE \"y\""
  role := "r"

def asksNothing : Request where
  source := "SELECT"
  role := "r"

/-- A compilation that is cancelled before its node is written. -/
def givenUp (r : Request) : Except CompileError Output :=
  ((ofConfig default).compile 9 (some (.boundary .serializing)) r .natural (.unrestricted "r")).1

/-- A statement that is in order is cancelled; one that ends too early fails as always. -/
theorem compile_cancelled_serializing :
    (∃ e, givenUp removesThrees = .error e ∧ e.kind = "cancelled" ∧ e.stage = .serializing) ∧
      ∃ e, givenUp asksNothing = .error e ∧ e.stage = .parsing := by
  have hnew : (ofConfig default).After default := .start
  have hfirst : Cancellation.firstAfter? (some (.boundary .serializing)) .idle =
      some .serializing := rfl
  have hcompiled : ((ofConfig default).compile 8 none removesThrees .natural
      (.unrestricted "r")).1.toOption.isSome = true := by decide +kernel
  have hfails : (fun _ => ()) <$> ((ofConfig default).compile 8 none asksNothing .natural
      (.unrestricted "r")).1.mapError CompileError.stage = .error .parsing := by decide +kernel
  constructor
  · refine ((compile_cancelled hnew hnew 8 9 _ removesThrees _ _).2 _ hfirst).2 fun e he => ?_
    rw [he] at hcompiled
    cases hcompiled
  · obtain ⟨e, he, hstage⟩ := Outcome.mapError_eq_error.mp (Outcome.map_eq_error.mp hfails)
    refine ⟨e, ?_, hstage⟩
    exact ((compile_cancelled hnew hnew 8 9 _ asksNothing _ _).2 _ hfirst).1 e he
      (by rw [hstage]; decide)

end Compiler
end Attest
