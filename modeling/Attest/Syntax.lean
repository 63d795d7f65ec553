import Attest.Token.Lexer
import Attest.Token.Stream

/-!
Parsing of whole texts.

Nesting is limited: every parser that calls itself takes the levels it may still open.  A chain of
operators is read in a loop and stays on its level.
-/

namespace Attest

/-- A text that has no tokens, or whose tokens do not fit the grammar. -/
inductive SyntaxError where
  | lex (e : LexError)
  | parse (e : ParseError)
deriving DecidableEq, Repr

namespace SyntaxError

def message : SyntaxError → String
  | lex e => e.message
  | parse e => e.message

end SyntaxError

/-- Levels of nesting that are allowed unless another limit is set. -/
def defaultDepth : Nat := 64

namespace Parser

/-- Fail because no level is left of `limit`. -/
def tooDeep {α : Type} (limit : Nat) : Parser α :=
  refuse ["shallower expression"] s!"nesting exceeds the limit of {limit} levels"

def ident : Parser (String × Position) :=
  expect "identifier" fun t =>
    match t.kind with
    | .ident name => some (name, t.position)
    | _ => none

def natural : Parser UInt64 :=
  expect "natural number" fun t =>
    match t.kind with
    | .nat n => some n
    | _ => none

def text (what : String) : Parser String :=
  expect what fun t =>
    match t.kind with
    | .text s => some s
    | _ => none

/-- What a parser makes of a stream, without the stream behind it. -/
def run {α : Type} (p : Parser α) (s : TokenStream) : Except ParseError α :=
  match p s with
  | .ok a _ => .ok a
  | .fail e _ => .error e

def parseText {α : Type} (p : Parser α) (source : String) : Except SyntaxError α :=
  match Lexer.tokenize source with
  | .error e => .error (.lex e)
  | .ok ts => match p.run (TokenStream.ofTokens ts) with
    | .ok a => .ok a
    | .error e => .error (.parse e)

end Parser
end Attest
