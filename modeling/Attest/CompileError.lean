import Attest.Catalog
import Attest.Node.Lowering
import Attest.Stage
import Attest.Syntax
import Attest.TypeError
import Attest.WireError

/-!
Why a compilation fails: one cause for each thing that can go wrong, with its stage, its place and
what to do about it.
-/

namespace Attest

inductive CompileError where
  | sourceTooLong (limit size : Nat)
  | tooManyTokens (limit : Nat) (position : Position)
  | lex (why : LexError)
  | parse (why : ParseError)
  | check (why : CheckError)
  | catalog (why : CatalogError)
  | timeout (table : String) (milliseconds : Nat)
  | lowering (why : LoweringError)
  | permission (why : PermissionError)
  | wire (why : WireError)
  /-- The request was cancelled before this stage began. -/
  | cancelled (stage : Stage)
  | illegal (move : IllegalMove)

namespace CompileError

def kind : CompileError → String
  | sourceTooLong _ _ => "limit"
  | tooManyTokens _ _ => "limit"
  | lex _ => "lex"
  | parse _ => "parse"
  | check (.type _) => "type"
  | check (.proof _) => "proof"
  | catalog _ => "catalog"
  | timeout _ _ => "timeout"
  | lowering (.provenance _) => "provenance"
  | lowering (.refinement _) => "type"
  | permission _ => "permission"
  | wire _ => "serialization"
  | cancelled _ => "cancelled"
  | illegal _ => "internal"

def stage : CompileError → Stage
  | sourceTooLong _ _ => .tokenizing
  | tooManyTokens _ _ => .tokenizing
  | lex _ => .tokenizing
  | parse _ => .parsing
  | check _ => .typeChecking
  | catalog _ => .typeChecking
  | timeout _ _ => .typeChecking
  | lowering _ => .lowering
  | permission _ => .permissionValidating
  | wire _ => .serializing
  | cancelled s => s
  | illegal m => m.source

def position : CompileError → Option Position
  | tooManyTokens _ p => some p
  | lex e => some e.position
  | parse e => some e.position
  | check (.type e) => some e.position
  | check (.proof e) => some e.position
  | _ => none

def limitMessage (field : String) (limit actual : Nat) : String :=
  field ++ s!" {actual} exceeds the limit of {limit}"

def message : CompileError → String
  | sourceTooLong limit n => limitMessage "max_source_bytes" limit n
  | tooManyTokens limit _ => limitMessage "max_tokens" limit (limit + 1)
  | lex e => e.reason
  | parse e => e.reason
  | check (.type e) => match e.fault.column? with
    | some c => "column '" ++ c ++ "': " ++ e.fault.message
    | none => e.fault.message
  | check (.proof e) => e.message
  | catalog e => e.message
  | timeout table ms => "schema lookup for '" ++ table ++ s!"' exceeded {ms}ms"
  | lowering e => e.message
  | permission e => e.message
  | wire e => e.message
  | cancelled s => s!"request cancelled before {s}"
  | illegal m => m.message

def limitSuggestion (field : String) : String := "split the statement or raise limits." ++ field

/-- What is to be added where the grammar asks for one thing that is not there. -/
def addition (e : ParseError) : Option String :=
  match e.note, e.expected with
  | some _, [one] => some ("add " ++ one)
  | _, _ => none

def suggestion : CompileError → Option String
  | sourceTooLong _ _ => some (limitSuggestion "max_source_bytes")
  | tooManyTokens _ _ => some (limitSuggestion "max_tokens")
  | parse e => addition e
  | check (.type e) => e.fault.suggestion
  | timeout _ _ => some "retry, or raise catalog.lookup_timeout_ms"
  | lowering (.provenance (.missing _ field)) =>
    let clause := if field == "actor" then "an ACTOR" else "a RATIONALE"
    some ("add " ++ clause ++ " clause or supply a request default")
  | permission e => some e.suggestion
  | _ => none

/-- Whether the same request may succeed later. -/
def isRetriable : CompileError → Bool
  | timeout _ _ => true
  | _ => false

def render (e : CompileError) : String :=
  e.kind ++ " error during " ++ e.stage.name
    ++ (e.position.map fun p => s!" at {p}").getD ""
    ++ ": " ++ e.message
    ++ (e.suggestion.map fun s => " (hint: " ++ s ++ ")").getD ""

end CompileError
end Attest
