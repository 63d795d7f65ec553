import Attest.CommandLine.Arguments
import Attest.Config.Document
import Attest.Config.Environment
import Attest.Service
import Attest.Store

/-!
The command line as a function: from the arguments and what is around them to what is printed.
-/

namespace Attest

/-- What a command may look at. -/
structure Surroundings where
  /-- The text of a file, if it exists. -/
  file : String → Option String
  environment : List (String × String)
  input : String
  now : UInt64
deriving Inhabited

structure Outcome where
  exit : Nat := 0
  printed : String := ""
  errors : String := ""
deriving DecidableEq, Repr

inductive Failure where
  | config (why : ConfigError)
  | catalog (why : CatalogError)
  | compile (why : CompileError)
  | execution (why : ExecutionError)

namespace Failure

def message : Failure → String
  | config e => "Configuration error: " ++ e.message
  | catalog e => "Catalog error: " ++ e.message
  | compile e => e.render
  | execution e => "Execution error: " ++ e.message

def exit : Failure → Nat
  | config _ => 2
  | _ => 1

end Failure

namespace Invocation

/-- The settings of the file and of the variables, the latter on top. -/
def settings (i : Invocation) (w : Surroundings) : Except ConfigError BuiltConfig := do
  let base ← match i.config with
    | none => pure default
    | some path => match w.file path with
      | none => .error (.io Catalog.missingFile)
      | some text => Config.ofYaml text path
  (← base.applyEnvironment w.environment).build

def catalogOf (w : Surroundings) (schemas : List String) (profiles : Option String)
    (role : String) : Except CatalogError Catalog := do
  let c ← schemas.foldlM (fun (c : Catalog) path => c.loadSchema path (w.file path)) default
  match profiles with
  | none => return c.putProfile (Profile.unrestricted role)
  | some path => return (← Catalog.readProfiles path (w.file path)).foldl Catalog.putProfile c

def rowLine (r : Row) : String :=
  "-- " ++ ", ".intercalate (r.map fun (k, v) => k ++ "=" ++ v.render)

/-- Lines that are printed, and the failure after them if there is one. -/
abbrev Report := List String × Option Failure

/-- Execute a node on an empty store. -/
def execution (n : Node) : Report :=
  match ((default : Store).submit n).1 with
  | .error e => ([], some (.execution e))
  | .ok r => (s!"-- affected: {r.affected}" :: r.rows.map rowLine, none)

def compile (w : Surroundings) (config : BuiltConfig) (source : String) (schemas : List String)
    (profiles : Option String) (role : String) (format : Option Format)
    (actor rationale : Option String) (execute : Bool) : Report :=
  match catalogOf w schemas profiles role with
  | .error e => ([], some (.catalog e))
  | .ok catalog =>
    let r : Request := { source, role, defaults := { actor, rationale }, format }
    match ((Compiler.ofConfig config).serve w.now none catalog.directory r).1 with
    | .error e => ([], some (.compile e))
    | .ok o =>
      let (lines, failure) := if execute then execution o.node else ([], none)
      (o.encoded.display :: lines, failure)

def tokens (comments : Bool) (source : String) : Report :=
  let (ts, e) := Lexer.tokensFrom comments (Lexer.Cursor.ofSource source)
  (ts.map fun t => s!"{t.position}\t" ++ t.kind.describe, e.map fun e => .compile (.lex e))

def perform (i : Invocation) (w : Surroundings) : Report :=
  let source := i.statement.getD w.input
  match i.settings w with
  | .error e => ([], some (.config e))
  | .ok config => match i.command with
    | .compile schemas profiles role format actor rationale execute =>
      compile w config source schemas profiles role format actor rationale execute
    | .tokens comments => tokens comments source
    | .checkConfig => ([config.describe, config.summary], none)

def outcome (r : Report) : Outcome :=
  let printed := String.join (r.1.map (· ++ "\n"))
  match r.2 with
  | none => { printed }
  | some f => { exit := f.exit, printed, errors := "error: " ++ f.message ++ "\n" }

end Invocation

def CommandLine.run (args : List String) (w : Surroundings) : Outcome :=
  match Invocation.parse args with
  | .error e => { exit := 2, errors := e.message }
  | .ok i => Invocation.outcome (i.perform w)

end Attest
