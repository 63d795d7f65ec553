import Attest.CompileError

/-!
Runs through the stages, and requests to give up.

A request that is cancelled stays so.  It is looked at whenever a stage is about to begin, and
around the look-up of a schema.
-/

namespace Attest

/-- A moment at which a cancellation can be seen. -/
inductive Moment where
  /-- Before a stage begins. -/
  | boundary (stage : Stage)
  /-- Before a schema is looked up. -/
  | lookup
  /-- While a schema is waited for. -/
  | waiting
deriving DecidableEq, Repr

/-- When a moment comes, in the order of all. -/
def Moment.rank : Moment → Nat
  | boundary .idle => 0
  | boundary .tokenizing => 1
  | boundary .parsing => 2
  | boundary .typeChecking => 3
  | lookup => 4
  | waiting => 5
  | boundary .lowering => 6
  | boundary .permissionValidating => 7
  | boundary .serializing => 8
  | boundary .done => 9
  | boundary .error => 10

/-- The moment from which on a request is cancelled, if it is. -/
abbrev Cancellation := Option Moment

def Cancellation.seenAt (c : Cancellation) (m : Moment) : Bool :=
  c.any fun first => first.rank ≤ m.rank

/-- The stages that a compilation has been through, and those of them that it has left. -/
structure Run where
  machine : StageMachine := {}
  left : List Stage := []
deriving DecidableEq, Repr, Inhabited

namespace Run

/-- Leave the stage and begin the next one, unless the request is cancelled. -/
def advance (r : Run) (cancel : Cancellation) : Except CompileError Run :=
  let current := r.machine.state
  match current.next? with
  | none => .error (.illegal ⟨current, current⟩)
  | some next =>
    if cancel.seenAt (.boundary next) then .error (.cancelled next)
    else match r.machine.move next with
      | .ok m => .ok ⟨m, if current == .idle then r.left else r.left ++ [current]⟩
      | .error e => .error (.illegal e)

end Run
end Attest
