import Attest.Interval
import Attest.TypedValue

/-!
Verifiers of refinements.

A verifier answers before anything runs, or leaves the question open; then the definition decides.
Whatever a verifier says, a value is only let through if it is of its type.
-/

namespace Attest

/-- How it was found that a value is of its type. -/
inductive Method where
  | staticInterval
  | runtimePredicate
  | structural
deriving DecidableEq, Repr

namespace Method

def all : List Method := [staticInterval, runtimePredicate, structural]

def name : Method → String
  | staticInterval => "static_interval"
  | runtimePredicate => "runtime_predicate"
  | structural => "structural"

instance : ToString Method := ⟨name⟩

def ofName? (s : String) : Option Method := all.find? (·.name == s)

def unknown (s : String) : String := "unknown verification method '" ++ s ++ "'"

/-- The method of deciding by definition. -/
def ofType (ty : Ty) : Method := if ty.isRefined then runtimePredicate else structural

end Method

inductive Verification where
  | satisfied (method : Method) (evidence : String)
  | violated (why : Violation)
  | undecided (why : Doubt)
deriving Repr

structure Verifier where
  name : String
  verify : Ty → Value → Verification

inductive VerificationFailure where
  | violated (why : Violation)
  | undecidable (why : Doubt)
deriving Repr

namespace VerificationFailure

def message : VerificationFailure → String
  | violated why => why.detail
  | undecidable why => "undecidable: " ++ why.reason

end VerificationFailure

structure VerifiedValue where
  typed : TypedValue
  method : Method
  evidence : String

namespace Verification

def ofNat (min max v : UInt64) : Verification :=
  let i := Interval.closed min max
  if i.isEmpty then .undecided (.emptyNat min max)
  else if i.contains v then
    .satisfied .staticInterval (Ty.between (toString min) (toString v) (toString max))
  else if i.isBelow v then .violated (.belowNat min max v)
  else .violated (.aboveNat min max v)

def ofFloat (min max v : Double) : Verification :=
  let i := Interval.closed min max
  if v.isNaN then .undecided .noPosition
  else if !min.isFinite || !max.isFinite then .undecided .unbounded
  else if i.isEmpty then .undecided (.emptyFloat min max)
  else if i.contains v then
    .satisfied .staticInterval (Ty.between min.literal v.literal max.literal)
  else if i.isBelow v then .violated (.belowFloat min max v)
  else .violated (.aboveFloat min max v)

def ofText (s : String) : Verification :=
  let i : Interval Nat := Interval.above 1 false
  if i.contains s.length then
    .satisfied .staticInterval (s!"len = {s.length} in " ++ i.render toString)
  else .violated .emptyText

def ofScores (s : Scores) : Verification :=
  let i : Interval UInt64 := Interval.closed 0 Scores.best
  match s.entries.find? fun e => !i.contains e.2 with
  | some (n, v) => .violated (.score n v)
  | none =>
    .satisfied .staticInterval (s!"all {Scores.names.length} scores in " ++ i.render toString)

/-- Verify every item of a vector: the method for all, or the answer for the first that fails. -/
def items (f : Value → Verification) (method : Method) (index : Nat) :
    List Value → Except Verification Method
  | [] => .ok method
  | v :: rest =>
    match f v with
    | .satisfied m _ =>
      items f (if m == .staticInterval then .staticInterval else method) (index + 1) rest
    | .violated why => .error (.violated (.element index why))
    | .undecided why => .error (.undecided (.element index why))

/-- Whether the form alone makes a value one of an unrefined type. -/
def shapeMatches : Ty → Value → Bool
  | .nat, .nat _ => true
  | .int, .int _ => true
  | .float, .float _ => true
  | .string, .text _ => true
  | .bool, .bool _ => true
  | .uuid, .uuid _ => true
  | .timestamp, .timestamp _ => true
  | _, _ => false

def byInterval : Ty → Value → Verification
  | .boundedNat lo hi, .nat v => ofNat lo hi v
  | .boundedFloat lo hi, .float v => ofFloat lo hi v
  | .confidence, .float v => ofFloat Double.zero Double.one v
  | .nonEmptyString, .text s => ofText s
  | .promptScores, .scores s => ofScores s
  | .vector element size, .vector vs =>
    if !(Interval.exactly size.toNat).contains vs.length then .violated (.size vs.length size)
    else match items (byInterval element) .structural 0 vs with
      | .ok method =>
        .satisfied method (s!"len = {size}; every element satisfies " ++ element.render)
      | .error v => v
  | ty, value =>
    if !ty.isRefined && shapeMatches ty value then
      .satisfied .structural (ty.category.name ++ " value")
    else .undecided (.outside ty value)

def ofDecision (ty : Ty) : Decision → Verification
  | .holds e => .satisfied (Method.ofType ty) e
  | .fails why => .violated why
  | .undecidable why => .undecided why

end Verification

namespace Verifier

/-- Decides conditions that are bounds, and leaves the rest open. -/
def interval : Verifier := ⟨"interval", Verification.byInterval⟩

/-- Leaves everything open. -/
def runtimeOnly : Verifier := ⟨"runtime_only", fun _ _ => .undecided .disabled⟩

/-- Decides by definition. -/
def runtimePredicate : Verifier :=
  ⟨"runtime_predicate", fun ty v => .ofDecision ty (ty.decide v)⟩

/-- Let a value through if it is of its type: the verifier answers, or else the definition. -/
def check (verifier : Verifier) (ty : Ty) (value : Value) :
    Except VerificationFailure VerifiedValue := do
  let (method, evidence) ← match verifier.verify ty value with
    | .satisfied method evidence => pure (method, evidence)
    | .violated why => .error (.violated why)
    | .undecided _ => match ty.decide value with
      | .holds evidence => pure (Method.ofType ty, evidence)
      | .fails why => .error (.violated why)
      | .undecidable why => .error (.undecidable why)
  match TypedValue.make ty value with
  | .ok typed => return ⟨typed, method, evidence⟩
  | .error (.violated _ why) => .error (.violated why)
  | .error (.undecidable _ why) => .error (.undecidable why)

end Verifier
end Attest
