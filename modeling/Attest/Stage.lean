/-!
Stages of a compilation, and the machine that walks through them.

The stages follow one another in one order.  Every stage that is not an end may also fail.
-/

namespace Attest

inductive Stage where
  | idle
  | tokenizing
  | parsing
  | typeChecking
  | lowering
  | permissionValidating
  | serializing
  | done
  | error
deriving DecidableEq, Repr

namespace Stage

def sequence : List Stage :=
  [idle, tokenizing, parsing, typeChecking, lowering, permissionValidating, serializing, done]

def all : List Stage := sequence ++ [error]

def name : Stage → String
  | idle => "idle"
  | tokenizing => "tokenizing"
  | parsing => "parsing"
  | typeChecking => "type_checking"
  | lowering => "ir_generating"
  | permissionValidating => "permission_validating"
  | serializing => "serializing"
  | done => "done"
  | error => "error"

instance : ToString Stage := ⟨name⟩

def ofName? (s : String) : Option Stage := all.find? (·.name == s)

def isTerminal : Stage → Bool
  | done => true
  | error => true
  | _ => false

def next? : Stage → Option Stage
  | idle => some tokenizing
  | tokenizing => some parsing
  | parsing => some typeChecking
  | typeChecking => some lowering
  | lowering => some permissionValidating
  | permissionValidating => some serializing
  | serializing => some done
  | done => none
  | error => none

def canMove (s t : Stage) : Bool := if t == error then !s.isTerminal else s.next? == some t

end Stage

structure IllegalMove where
  source : Stage
  target : Stage
deriving DecidableEq, Repr

def IllegalMove.message (m : IllegalMove) : String :=
  s!"illegal pipeline transition {m.source} -> {m.target}"

/-- The stage that a compilation is in, and all stages that it has been in, oldest first. -/
structure StageMachine where
  state : Stage := .idle
  trace : List Stage := [.idle]
deriving DecidableEq, Repr, Inhabited

namespace StageMachine

def move (m : StageMachine) (target : Stage) : Except IllegalMove StageMachine :=
  if m.state.canMove target then .ok ⟨target, m.trace ++ [target]⟩ else .error ⟨m.state, target⟩

/-- Give up; once ended, nothing changes any more. -/
def fail (m : StageMachine) : StageMachine :=
  if m.state.isTerminal then m else ⟨.error, m.trace ++ [.error]⟩

end StageMachine
end Attest
