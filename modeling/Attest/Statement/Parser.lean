import Attest.Expr.Parser
import Attest.Statement
import Attest.Ty.Parser

/-!
Statements in the source.
-/

namespace Attest
namespace Statement

def identParser : Parser Ident := do
  let (name, position) ← Parser.ident
  return ⟨name, position⟩

def assignmentParser (limit : Nat) : Parser Assignment := do
  let column ← identParser
  let _ ← Parser.symbol .eq
  let value ← Expr.parser limit
  let declared ← Parser.optional do
    let _ ← Parser.symbol .colon
    Ty.parserAt limit limit
  return ⟨column, value, declared⟩

def assignmentsParser (limit : Nat) : Parser (List Assignment) :=
  Parser.sepBy .comma (assignmentParser limit)

def whereParser (limit : Nat) : Parser (Option Expr) :=
  Parser.optional do
    let _ ← Parser.keyword .WHERE
    Expr.parser limit

/-- Either clause about the origin of a change: which, its text, and where it stands. -/
def clauseParser : Parser (Keyword × String × Position) := do
  let position := (← Parser.stream).position
  let k ← Parser.expect "ACTOR or RATIONALE" fun t =>
    match t.kind with
    | .keyword .ACTOR => some .ACTOR
    | .keyword .RATIONALE => some .RATIONALE
    | _ => none
  let s ← Parser.text (if k == .ACTOR then "actor id" else "rationale text")
  return (k, s, position)

def clauseError (position : Position) (k : Keyword) (note : String) : ParseError :=
  ⟨position, ["end of statement"], k.name, some note⟩

/-- The clauses put together: at most one of each, the actor first. -/
def joinClauses (c : ProvenanceClause) :
    List (Keyword × String × Position) → Except ParseError ProvenanceClause
  | [] => .ok c
  | (k, s, p) :: rest =>
    if k == .ACTOR then
      if c.rationale.isSome then .error (clauseError p k "ACTOR must precede RATIONALE")
      else if c.actor.isSome then .error (clauseError p k "duplicate ACTOR clause")
      else joinClauses { c with actor := some s } rest
    else if c.rationale.isSome then .error (clauseError p k "duplicate RATIONALE clause")
    else joinClauses { c with rationale := some s } rest

def provenanceParser : Parser ProvenanceClause := do
  match joinClauses {} (← Parser.many clauseParser) with
  | .ok c => return c
  | .error e => Parser.fail e

/-- The clauses of a change whose reason must be given. -/
def reasonedParser (kind : StatementKind) : Parser ProvenanceClause := do
  let c ← provenanceParser
  if c.rationale.isSome then return c
  else Parser.refuse ["RATIONALE"] s!"RATIONALE clause required for {kind}"

def orderKeyParser : Parser OrderKey := do
  let column ← identParser
  if ← Parser.takeKeyword .DESC then return ⟨column, .desc⟩
  else
    let _ ← Parser.takeKeyword .ASC
    return ⟨column, .asc⟩

def normalForms : List String := NormalForm.all.map NormalForm.name

/-- The text of a normal form.  Those that begin with a digit are a number and a word without
space between them. -/
def normalFormText : Parser String := do
  let first := (← Parser.stream).peek
  match first.kind with
  | .nat n =>
    let _ ← Parser.advance
    let suffix := (← Parser.stream).peek
    match suffix.kind with
    | .ident s =>
      if suffix.position.offset == first.endOffset && Text.asciiUpper s == "NF" then
        let _ ← Parser.advance
        return s!"{n}NF"
      else Parser.unexpected ["NF"]
    | _ => Parser.unexpected ["NF"]
  | .ident name =>
    let _ ← Parser.advance
    return name
  | .text s =>
    let _ ← Parser.advance
    return s
  | _ => Parser.unexpected normalForms

def normalFormParser : Parser NormalForm := do
  let position := (← Parser.stream).position
  let s ← normalFormText
  match NormalForm.ofName? s with
  | some f => return f
  | none => Parser.fail ⟨position, normalForms, s, some (NormalForm.unknown s)⟩

def insertParser (limit : Nat) : Parser Statement := do
  let _ ← Parser.keyword .INSERT
  let _ ← Parser.keyword .INTO
  let table ← identParser
  let _ ← Parser.keyword .SET
  let assignments ← assignmentsParser limit
  let provenance ← provenanceParser
  return insert table assignments provenance

def projectionParser : Parser Projection := do
  if ← Parser.takeSymbol .star then return .all
  else return .columns (← Parser.sepBy .comma identParser)

def orderByParser : Parser (List OrderKey) := do
  if ← Parser.takeKeyword .ORDER then
    let _ ← Parser.keyword .BY
    Parser.sepBy .comma orderKeyParser
  else return []

def limitParser : Parser (Option UInt64) :=
  Parser.optional do
    let _ ← Parser.keyword .LIMIT
    Parser.natural

def selectParser (limit : Nat) : Parser Statement := do
  let _ ← Parser.keyword .SELECT
  let projection ← projectionParser
  let _ ← Parser.keyword .FROM
  let table ← identParser
  let predicate ← whereParser limit
  let orderBy ← orderByParser
  let count ← limitParser
  return select table projection predicate orderBy count

def updateParser (limit : Nat) : Parser Statement := do
  let _ ← Parser.keyword .UPDATE
  let table ← identParser
  let _ ← Parser.keyword .SET
  let assignments ← assignmentsParser limit
  let predicate ← whereParser limit
  let provenance ← reasonedParser .update
  return update table assignments predicate provenance

def deleteParser (limit : Nat) : Parser Statement := do
  let _ ← Parser.keyword .DELETE
  let _ ← Parser.keyword .FROM
  let table ← identParser
  match ← whereParser limit with
  | none => Parser.refuse ["WHERE"] "WHERE clause required for DELETE"
  | some predicate =>
    let provenance ← reasonedParser .delete
    return delete table predicate provenance

def normalizeParser : Parser Statement := do
  let _ ← Parser.keyword .NORMALIZE
  let table ← identParser
  let target ← if ← Parser.takeKeyword .TO then some <$> normalFormParser else pure none
  let provenance ← reasonedParser .normalize
  return normalize table target provenance

def bodyParser (limit : Nat) : Parser Statement := do
  match (← Parser.stream).peek.kind with
  | .keyword .INSERT => insertParser limit
  | .keyword .SELECT => selectParser limit
  | .keyword .UPDATE => updateParser limit
  | .keyword .DELETE => deleteParser limit
  | .keyword .NORMALIZE => normalizeParser
  | _ => Parser.unexpected ["INSERT", "SELECT", "UPDATE", "DELETE", "NORMALIZE"]

/-- One statement and then the end; a semicolon may stand between. -/
def parser (limit : Nat) : Parser Statement := do
  let s ← bodyParser limit
  let _ ← Parser.takeSymbol .semicolon
  if (← Parser.stream).isAtEnd then return s else Parser.unexpected ["end of statement"]

/-- The statement that tokens are.  At least one level of nesting is allowed. -/
def ofTokens (limit : Nat) (ts : List Token) : Except ParseError Statement :=
  (parser (max limit 1)).run (TokenStream.ofTokens ts)

def parse (source : String) : Except SyntaxError Statement :=
  (parser defaultDepth).parseText source

end Statement
end Attest
