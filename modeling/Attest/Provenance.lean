import Attest.Json.Writer
import Attest.Statement
import Attest.Text.Blank

/-!
Provenance of a change: who made it, when and why.  The time comes from a clock that never gives
the same time twice.
-/

namespace Attest

inductive ProvenanceError where
  | emptyActor
  | emptyRationale
deriving DecidableEq, Repr

def ProvenanceError.message : ProvenanceError → String
  | emptyActor => "provenance actor id must not be empty"
  | emptyRationale => "provenance rationale must not be empty"

/-- Who, when (in milliseconds) and why.  Neither text is blank. -/
structure Provenance where
  actor : String
  timestamp : UInt64
  rationale : String
  valid : Text.isBlank actor = false ∧ Text.isBlank rationale = false
deriving DecidableEq

namespace Provenance

def make (actor : String) (timestamp : UInt64) (rationale : String) :
    Except ProvenanceError Provenance :=
  if ha : Text.isBlank actor then .error .emptyActor
  else if hr : Text.isBlank rationale then .error .emptyRationale
  else .ok ⟨actor, timestamp, rationale, by simpa using ha, by simpa using hr⟩

def toJson (p : Provenance) : Json :=
  .object [("actor_id", .text p.actor), ("timestamp", .number (.nat p.timestamp)),
    ("rationale", .text p.rationale)]

end Provenance

/-- A source of rising times. -/
structure Clock where
  last : UInt64 := 0
deriving DecidableEq, Repr, Inhabited

namespace Clock

/-- The next time: that of the wall, or just behind the last one. -/
def tick (c : Clock) (now : UInt64) : UInt64 × Clock :=
  let next := max now (c.last + 1)
  (next, ⟨next⟩)

end Clock

inductive ProvenanceFault where
  | missing (kind : StatementKind) (field : String)
  | invalid (why : ProvenanceError)
deriving DecidableEq, Repr

def ProvenanceFault.message : ProvenanceFault → String
  | missing k f => s!"{k} requires provenance: missing " ++ f
  | invalid why => "invalid provenance: " ++ why.message

namespace ProvenanceClause

/-- The record that a statement must carry, which is none for a query.  What the statement says
goes before what the request says; the clock ticks only if both texts are there. -/
def resolve (clause defaults : ProvenanceClause) (kind : StatementKind) (clock : Clock)
    (now : UInt64) : Except ProvenanceFault (Option Provenance) × Clock :=
  if !kind.isMutation then (.ok none, clock)
  else match clause.actor <|> defaults.actor, clause.rationale <|> defaults.rationale with
    | none, _ => (.error (.missing kind "actor"), clock)
    | some _, none => (.error (.missing kind "rationale"), clock)
    | some actor, some rationale =>
      let (time, clock) := clock.tick now
      match Provenance.make actor time rationale with
      | .ok p => (.ok (some p), clock)
      | .error e => (.error (.invalid e), clock)

end ProvenanceClause
end Attest
