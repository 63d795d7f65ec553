import Attest.Stage
import Mathlib.Data.List.Chain

/-!
What the machine of the stages can go through.

A compilation asks its machine for stages in any order, and may give up at any time; what is out of
order is refused.  Whatever is asked, the stages gone through are the first ones of the whole
sequence, with a failure behind them unless they are all of it.  A stage is refused exactly if
with it they would be something else, so each such list of stages can be gone through, and at an end
nothing is left to ask for.
-/

namespace Attest

namespace Stage

variable {s u : Stage} {t : List Stage}

/-- What can have been gone through: the first stages and, unless the last of them is the end, a
failure. -/
inductive History : List Stage → Prop where
  | ran {t : List Stage} (hne : t ≠ []) (h : t <+: sequence) : History t
  | failed {t : List Stage} (hne : t ≠ []) (h : t <+: sequence) (hdone : t.getLast? ≠ some done) :
      History (t ++ [error])

theorem History.ne_nil (h : History t) : t ≠ [] := by
  cases h with
  | ran hne _ => exact hne
  | failed _ _ _ => simp

theorem isChain_sequence : sequence.IsChain fun s u => s.next? = some u := by
  simp [sequence, next?]

theorem error_not_mem_sequence : error ∉ sequence := by
  decide

theorem canMove_of_next? (h : s.next? = some u) : s.canMove u = true := by
  cases s <;> cases h <;> rfl

theorem next?_of_canMove (h : s.canMove u = true) (hu : u ≠ error) : s.next? = some u := by
  rw [canMove, if_neg (by simpa using hu)] at h
  exact eq_of_beq h

theorem canMove_error (h : s ∈ sequence) (hdone : s ≠ done) : s.canMove error = true := by
  cases s with
  | done => exact absurd rfl hdone
  | error => exact absurd h error_not_mem_sequence
  | _ => rfl

theorem canMove_of_isTerminal (h : s.isTerminal = true) : s.canMove u = false := by
  cases s with
  | done => cases u <;> rfl
  | error => cases u <;> rfl
  | _ => cases h

/-- Behind the first stages comes the one that follows the last of them. -/
theorem append_prefix_sequence_iff (h : t <+: sequence) (hlast : t.getLast? = some s) :
    t ++ [u] <+: sequence ↔ s.next? = some u := by
  obtain ⟨rest, hrest⟩ := h
  have hchain := isChain_sequence
  rw [← hrest, List.isChain_append] at hchain
  cases rest with
  | nil =>
    -- With all stages gone through, nothing fits behind them and the last has nothing after it.
    rw [List.append_nil] at hrest
    subst hrest
    cases hlast
    constructor
    · intro hlong
      have := hlong.length_le
      rw [List.length_append] at this
      exact absurd this (Nat.not_succ_le_self _)
    · intro hnext
      cases hnext
  | cons v rest =>
    have hnext : s.next? = some v := hchain.2.2 s hlast v rfl
    rw [← hrest, List.prefix_append_right_inj, List.cons_prefix_cons, hnext, Option.some.injEq]
    exact ⟨fun h => h.1.symm, fun h => ⟨h.symm, List.nil_prefix⟩⟩

theorem history_concat (h : History (t ++ [u])) :
    t ++ [u] <+: sequence ∨
      u = error ∧ t ≠ [] ∧ t <+: sequence ∧ t.getLast? ≠ some done := by
  generalize hw : t ++ [u] = w at h
  cases h with
  | ran hne h => exact .inl h
  | failed hne h hdone =>
    obtain ⟨rfl, hu⟩ := List.append_inj' hw rfl
    cases hu
    exact .inr ⟨rfl, hne, h, hdone⟩

theorem history_of_concat (h : History (t ++ [u])) (hne : t ≠ []) : History t := by
  rcases history_concat h with h | ⟨-, -, h, -⟩
  · exact .ran hne ((List.prefix_append t [u]).trans h)
  · exact .ran hne h

/-- A stage may follow what has been gone through if it may follow the last of it. -/
theorem history_concat_iff (h : History t) (hlast : t.getLast? = some s) :
    History (t ++ [u]) ↔ s.canMove u = true := by
  constructor
  · intro hu
    rcases history_concat hu with hu | ⟨rfl, hne, hran, hdone⟩
    · have hran : t <+: sequence := (List.prefix_append t [u]).trans hu
      exact canMove_of_next? ((append_prefix_sequence_iff hran hlast).mp hu)
    · rw [hlast] at hdone
      have hmem : s ∈ sequence := hran.subset (List.mem_of_getLast? hlast)
      exact canMove_error hmem fun hs => hdone (congrArg some hs)
  · intro hmove
    cases h with
    | ran hne hran =>
      by_cases hu : u = error
      · subst hu
        refine .failed hne hran fun hdone => ?_
        rw [hlast] at hdone
        cases hdone
        cases hmove
      · have hnext : s.next? = some u := next?_of_canMove hmove hu
        exact .ran (by simp) ((append_prefix_sequence_iff hran hlast).mpr hnext)
    | failed hne hran hdone =>
      -- A failure is the last of it, and nothing may follow that.
      rw [List.getLast?_concat] at hlast
      cases hlast
      rw [canMove_of_isTerminal rfl] at hmove
      cases hmove

end Stage

namespace StageMachine

open Stage (History)

inductive Call where
  | move (target : Stage)
  | fail
deriving DecidableEq, Repr

/-- The machine after a call, and the refusal if it was refused. -/
def call (m : StageMachine) : Call → StageMachine × Option IllegalMove
  | .move target => match m.move target with
    | .ok m => (m, none)
    | .error e => (m, some e)
  | .fail => (m.fail, none)

def after (m : StageMachine) (calls : List Call) : StageMachine :=
  calls.foldl (fun m c => (m.call c).1) m

variable {m : StageMachine} {target : Stage}

theorem call_of_canMove (h : m.state.canMove target = true) :
    m.call (.move target) = (⟨target, m.trace ++ [target]⟩, none) := by
  rw [call, move, if_pos h]

theorem call_of_not_canMove (h : m.state.canMove target = false) :
    m.call (.move target) = (m, some ⟨m.state, target⟩) := by
  rw [call, move, if_neg (by rw [h]; decide)]

/-- To give up is to ask for the failure and not to care whether it is refused. -/
theorem fail_eq (m : StageMachine) : m.fail = (m.call (.move .error)).1 := by
  cases hend : m.state.isTerminal with
  | true => rw [fail, if_pos hend, call_of_not_canMove (Stage.canMove_of_isTerminal hend)]
  | false =>
    have hmove : m.state.canMove .error = true := by
      show (!m.state.isTerminal) = true
      rw [hend]
      rfl
    rw [fail, if_neg (by rw [hend]; decide), call_of_canMove hmove]

theorem call_move_cases (m : StageMachine) (target : Stage) :
    (m.call (.move target)).1 = m ∨
      m.state.canMove target = true ∧
        (m.call (.move target)).1 = ⟨target, m.trace ++ [target]⟩ := by
  cases h : m.state.canMove target with
  | true => exact .inr ⟨rfl, congrArg Prod.fst (call_of_canMove h)⟩
  | false => exact .inl (congrArg Prod.fst (call_of_not_canMove h))

/-- A call does nothing, or adds a stage that may follow. -/
theorem call_cases (m : StageMachine) (c : Call) :
    (m.call c).1 = m ∨
      ∃ u, m.state.canMove u = true ∧ (m.call c).1 = ⟨u, m.trace ++ [u]⟩ := by
  cases c with
  | move target => exact (call_move_cases m target).imp_right fun h => ⟨target, h⟩
  | fail =>
    rw [show (m.call .fail).1 = m.fail from rfl, fail_eq]
    exact (call_move_cases m .error).imp_right fun h => ⟨.error, h⟩

theorem call_of_isTerminal (h : m.state.isTerminal = true) (c : Call) : (m.call c).1 = m := by
  rcases call_cases m c with hsame | ⟨u, hmove, -⟩
  · exact hsame
  · rw [Stage.canMove_of_isTerminal h] at hmove
    cases hmove

theorem after_of_isTerminal (h : m.state.isTerminal = true) (calls : List Call) :
    m.after calls = m := by
  induction calls with
  | nil => rfl
  | cons c calls ih =>
    show ((m.call c).1).after calls = m
    rw [call_of_isTerminal h, ih]

/-- The trace is one that can have been gone through, and the machine is where it ends. -/
structure Sound (m : StageMachine) : Prop where
  history : History m.trace
  last : m.trace.getLast? = some m.state

theorem sound_initial : Sound {} := ⟨.ran (by decide) (by decide), rfl⟩

theorem Sound.call (h : m.Sound) (c : Call) : (m.call c).1.Sound := by
  rcases call_cases m c with hsame | ⟨u, hmove, hcall⟩
  · rw [hsame]
    exact h
  · rw [hcall]
    exact ⟨(Stage.history_concat_iff h.history h.last).mpr hmove, List.getLast?_concat⟩

theorem Sound.after (h : m.Sound) (calls : List Call) : (m.after calls).Sound := by
  induction calls generalizing m with
  | nil => exact h
  | cons c calls ih => exact ih (h.call c)

/-- A stage is refused exactly if it cannot come next. -/
theorem Sound.accepts_iff (h : m.Sound) :
    (m.call (.move target)).2 = none ↔ History (m.trace ++ [target]) := by
  rw [Stage.history_concat_iff h.history h.last]
  cases hmove : m.state.canMove target with
  | true => simp [call_of_canMove hmove]
  | false => simp [call_of_not_canMove hmove]

def reached (calls : List Call) : StageMachine := after {} calls

theorem sound_reached (calls : List Call) : (reached calls).Sound := sound_initial.after calls

theorem reached_append (calls more : List Call) :
    reached (calls ++ more) = (reached calls).after more := List.foldl_append

/-- All that can have been gone through is reached by asking for it stage by stage. -/
theorem exists_reached {t : List Stage} (h : History t) : ∃ calls, (reached calls).trace = t := by
  induction t using List.reverseRecOn with
  | nil => exact absurd rfl h.ne_nil
  | append_singleton t u ih =>
    by_cases hne : t = []
    · subst hne
      rcases Stage.history_concat h with hfirst | ⟨-, hne, -⟩
      · obtain ⟨rfl, -⟩ := List.cons_prefix_cons.mp hfirst
        exact ⟨[], rfl⟩
      · exact absurd rfl hne
    · obtain ⟨calls, rfl⟩ := ih (Stage.history_of_concat h hne)
      have hsound := sound_reached calls
      have hmove := (Stage.history_concat_iff hsound.history hsound.last).mp h
      refine ⟨calls ++ [.move u], ?_⟩
      rw [reached_append]
      exact congrArg (·.1.trace) (call_of_canMove hmove)

/-- Whatever is asked of the machine: the stages gone through are the first ones of the sequence,
with one failure behind them at most, and only if they do not reach its end; the machine is in the
last of them; a refusal leaves the machine as it is and names where it is and what was asked for;
refused is exactly what would give no such list of stages; to give up is to ask for the failure; and
at an end no calls have an effect.  All such lists occur. -/
theorem reached_history (calls : List Call) :
    History (reached calls).trace ∧
    (reached calls).trace.getLast? = some (reached calls).state ∧
    (∀ target e, ((reached calls).call (.move target)).2 = some e →
      ((reached calls).call (.move target)).1 = reached calls ∧
        e = ⟨(reached calls).state, target⟩) ∧
    (∀ target, ((reached calls).call (.move target)).2 = none ↔
      History ((reached calls).trace ++ [target])) ∧
    (reached calls).fail = ((reached calls).call (.move .error)).1 ∧
    ((reached calls).state.isTerminal = true → ∀ more, reached (calls ++ more) = reached calls) ∧
    ∀ t, History t → ∃ asked, (reached asked).trace = t := by
  have hsound := sound_reached calls
  refine ⟨hsound.history, hsound.last, fun target e he => ?_, fun _ => hsound.accepts_iff,
    fail_eq _, fun hend more => ?_, fun _ => exists_reached⟩
  · cases hmove : (reached calls).state.canMove target with
    | true =>
      rw [call_of_canMove hmove] at he
      cases he
    | false =>
      rw [call_of_not_canMove hmove] at he ⊢
      cases he
      exact ⟨rfl, rfl⟩
  · rw [reached_append, after_of_isTerminal hend]

example : (reached [.move .parsing, .move .tokenizing, .fail, .move .parsing, .fail]).trace =
    [.idle, .tokenizing, .error] := rfl

end StageMachine
end Attest
