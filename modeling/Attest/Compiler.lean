import Attest.Checker
import Attest.Config
import Attest.Run
import Attest.Statement.Parser
import Attest.Wire

/-!
The compiler: from the text of a statement to a node and its encoding.

The first stage that fails ends the compilation.  What outlives a compilation are the cache of
certificates and the clock, and neither changes what the next one gives but for its time.
-/

namespace Attest

structure Request where
  source : String
  /-- The role whose profile is asked for. -/
  role : String
  /-- What the statement does not say about its provenance. -/
  defaults : ProvenanceClause := {}
  /-- The format, if it is not the configured one. -/
  format : Option Format := none

structure Output where
  node : Node
  encoded : Encoded
  format : Format
  warnings : List String
  trace : List Stage
  timed : List Stage

/-- A configuration and what outlives a compilation. -/
structure Compiler where
  config : BuiltConfig
  cache : CertificateCache
  clock : Clock := {}

namespace Compiler

def ofConfig (config : BuiltConfig) : Compiler :=
  { config, cache := { capacity := config.settings.cacheCapacity } }

instance : Inhabited Compiler := ⟨ofConfig default⟩

def verifier (c : Compiler) : Verifier :=
  match c.config.settings.mode with
  | .staticThenRuntime => Verifier.interval
  | .runtimeOnly => Verifier.runtimeOnly

/-- The tokens of a text, of which there are at most as many as the limits allow. -/
def tokenize (c : Compiler) (source : String) : Except CompileError (List Token) :=
  let s := c.config.settings
  if s.maxSourceBytes < source.utf8ByteSize then
    .error (.sourceTooLong s.maxSourceBytes source.utf8ByteSize)
  else
    let (ts, e) := Lexer.tokensFrom false (Lexer.Cursor.ofSource source)
    match (ts.filter fun t => !t.isEnd)[s.maxTokens]?, e with
    | some t, _ => .error (.tooManyTokens s.maxTokens t.position)
    | none, some e => .error (.lex e)
    | none, none => .ok ts

/-- From the text to a statement; the types are next. -/
def front (c : Compiler) (cancel : Cancellation) (r : Request) :
    Except CompileError (Statement × Run) := do
  let run ← Run.advance {} cancel
  let ts ← c.tokenize r.source
  let run ← run.advance cancel
  let s ← (Statement.ofTokens c.config.settings.maxDepth ts).mapError .parse
  return (s, ← run.advance cancel)

def lower (c : Compiler) (now : UInt64) (r : Request) (profile : Profile) (s : TypedStatement) :
    Except LoweringError Node × Compiler :=
  let (p, clock) := s.provenance.resolve r.defaults s.kind c.clock now
  match p with
  -- texts that are present but refused have used up a time
  | .error e => (.error (.provenance e), { c with clock := clock })
  | .ok p =>
    let (n, cache) := Node.lower c.cache s p
    (n.map (·.bindRole profile.role), { c with clock := clock, cache := cache })

def finish (c : Compiler) (cancel : Cancellation) (r : Request) (profile : Profile)
    (warnings : List String) (n : Node) (run : Run) : Except CompileError Output := do
  let run ← run.advance cancel
  (profile.validate n).mapError .permission
  let run ← run.advance cancel
  let format := r.format.getD c.config.settings.format
  let encoded ← (format.writeNode n).mapError .wire
  let run ← run.advance cancel
  return {
    node := n
    encoded := encoded
    format := format
    warnings := warnings ++ encoded.warnings
    trace := run.machine.trace
    timed := run.left }

/-- From a statement to what is given back. -/
def back (c : Compiler) (now : UInt64) (cancel : Cancellation) (r : Request) (s : Statement)
    (schema : Schema) (profile : Profile) (run : Run) : Except CompileError Output × Compiler :=
  match Checker.check schema c.verifier s with
  | .error e => (.error (.check e), c)
  | .ok typed => match run.advance cancel with
    | .error e => (.error e, c)
    | .ok run => match c.lower now r profile typed with
      | (.error e, c) => (.error (.lowering e), c)
      | (.ok n, c) => (c.finish cancel r profile typed.warnings n run, c)

/-- Compile a statement for a schema and a profile, at a time of the wall clock. -/
def compile (c : Compiler) (now : UInt64) (cancel : Cancellation) (r : Request) (schema : Schema)
    (profile : Profile) : Except CompileError Output × Compiler :=
  match c.front cancel r with
  | .error e => (.error e, c)
  | .ok (s, run) => c.back now cancel r s schema profile run

/-- Compile statements one after the other; none of them needs another's result. -/
def compileAll (c : Compiler) (now : UInt64) (schema : Schema) (profile : Profile) :
    List Request → List (Except CompileError Output) × Compiler
  | [] => ([], c)
  | r :: rest =>
    let (o, c) := c.compile now none r schema profile
    let (os, c) := compileAll c now schema profile rest
    (o :: os, c)

end Compiler
end Attest
