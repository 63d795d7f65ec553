import Attest.Double.Arith
import Attest.Double.Round

/-!
Scores of a prompt: five named natural numbers.  That each is at most a hundred is a condition of
their type, not of their form.
-/

namespace Attest

structure Scores where
  layout : UInt64
  context : UInt64
  evidence : UInt64
  reasoning : UInt64
  clarity : UInt64
deriving DecidableEq, Repr

inductive ScoresError where
  | unknown (name : String)
  | twice (name : String)
  | missing (name : String)
deriving DecidableEq, Repr

namespace Scores

def names : List String := ["structure", "context", "evidence", "reasoning", "clarity"]

def best : UInt64 := 100

def values (s : Scores) : List UInt64 := [s.layout, s.context, s.evidence, s.reasoning, s.clarity]

def entries (s : Scores) : List (String × UInt64) := names.zip s.values

/-- The first name that is no score, or that was given before. -/
def misnamed? (seen : List String) : List String → Option ScoresError
  | [] => none
  | n :: rest =>
    if !names.contains n then some (.unknown n)
    else if seen.contains n then some (.twice n)
    else misnamed? (n :: seen) rest

def score (entries : List (String × UInt64)) (name : String) : Except ScoresError UInt64 :=
  match entries.lookup name with
  | some n => .ok n
  | none => .error (.missing name)

/-- The scores of a list that names each of them once. -/
def ofEntries (entries : List (String × UInt64)) : Except ScoresError Scores :=
  match misnamed? [] (entries.map (·.1)) with
  | some e => .error e
  | none => do
    let layout ← score entries "structure"
    let context ← score entries "context"
    let evidence ← score entries "evidence"
    let reasoning ← score entries "reasoning"
    let clarity ← score entries "clarity"
    return ⟨layout, context, evidence, reasoning, clarity⟩

/-- The mean of the scores, each rounded to a float before it is added. -/
def mean (s : Scores) : Double :=
  (s.values.foldl (fun x n => x.add (Double.ofNat n.toNat)) Double.zero).div (Double.ofNat 5)

def render (s : Scores) : String :=
  "\x7b" ++ ", ".intercalate (s.entries.map fun (n, v) => n ++ s!": {v}") ++ "\x7d"

end Scores

namespace ScoresError

def message : ScoresError → String
  | unknown n =>
    "unknown prompt score '" ++ n ++ "' (expected one of " ++ ", ".intercalate Scores.names ++ ")"
  | twice n => "prompt score '" ++ n ++ "' given twice"
  | missing n => "missing prompt score '" ++ n ++ "'"

end ScoresError
end Attest
