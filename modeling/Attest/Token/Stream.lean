import Attest.Token

/-!
Token streams and parsers over them.

A stream is the tokens before the end together with the end itself, so that there is always a
token to look at.  A parser that fails leaves the stream where it stopped: that is how a choice
between alternatives knows whether anything has been consumed.
-/

namespace Attest

/-- A syntax error: what would have been accepted, and what was found.  A message takes the place
of the usual wording where the grammar forbids what it can read. -/
structure ParseError where
  position : Position
  expected : List String
  found : String
  note : Option String := none
deriving DecidableEq, Repr

namespace ParseError

def reason (e : ParseError) : String :=
  match e.note with
  | some m => m
  | none => match e.expected with
    | [] => "unexpected " ++ e.found
    | [one] => "expected " ++ one ++ ", found " ++ e.found
    | many => "expected one of " ++ ", ".intercalate many ++ ", found " ++ e.found

def message (e : ParseError) : String := s!"parse error at {e.position}: " ++ e.reason

end ParseError

/-- The tokens before the end, and the end. -/
structure TokenStream where
  rest : List Token
  last : Token
deriving DecidableEq, Repr

namespace TokenStream

/-- The end of a stream whose last token is `t`: on the same line, behind the token's text. -/
def endAfter (t : Token) : Token :=
  ⟨.eof, "", ⟨t.position.line, t.position.column + t.lexeme.length, t.endOffset⟩⟩

/-- Drop the comments, and add an end if there is none. -/
def ofTokens (ts : List Token) : TokenStream :=
  let ts := ts.filter fun t => !t.kind.isComment
  match ts.getLast? with
  | none => ⟨[], ⟨.eof, "", Position.start⟩⟩
  | some t => if t.isEnd then ⟨ts.dropLast, t⟩ else ⟨ts, endAfter t⟩

def peekAt (s : TokenStream) (n : Nat) : Token := s.rest[n]?.getD s.last

def peek (s : TokenStream) : Token := s.rest.head?.getD s.last

def position (s : TokenStream) : Position := s.peek.position

def isAtEnd (s : TokenStream) : Bool := s.peek.isEnd

/-- The stream behind the next token; the end stays. -/
def skip (s : TokenStream) : TokenStream := { s with rest := s.rest.drop 1 }

def unexpected (s : TokenStream) (expected : List String) : ParseError :=
  ⟨s.position, expected, s.peek.kind.describe, none⟩

end TokenStream

inductive Reply (α : Type) where
  | ok (value : α) (stream : TokenStream)
  | fail (error : ParseError) (stream : TokenStream)
deriving Repr

def Parser (α : Type) : Type := TokenStream → Reply α

namespace Parser

def pure {α : Type} (a : α) : Parser α := fun s => .ok a s

def bind {α β : Type} (p : Parser α) (f : α → Parser β) : Parser β := fun s =>
  match p s with
  | .ok a s => f a s
  | .fail e s => .fail e s

instance : Monad Parser where
  pure := pure
  bind := bind

def fail {α : Type} (e : ParseError) : Parser α := fun s => .fail e s

def stream : Parser TokenStream := fun s => .ok s s

def unexpected {α : Type} (expected : List String) : Parser α := fun s =>
  .fail (s.unexpected expected) s

/-- Fail on the next token, with words of the grammar's own. -/
def refuse {α : Type} (expected : List String) (note : String) : Parser α := fun s =>
  .fail { s.unexpected expected with note := some note } s

def advance : Parser Token := fun s => .ok s.peek s.skip

/-- Consume the next token if it has a value. -/
def takeIf {α : Type} (f : Token → Option α) : Parser (Option α) := fun s =>
  match f s.peek with
  | some a => .ok (some a) s.skip
  | none => .ok none s

/-- Consume a token that has a value, or name what was expected. -/
def expect {α : Type} (what : String) (f : Token → Option α) : Parser α := fun s =>
  match f s.peek with
  | some a => .ok a s.skip
  | none => .fail (s.unexpected [what]) s

def takeKeyword (k : Keyword) : Parser Bool := fun s =>
  if s.peek.kind == .keyword k then .ok true s.skip else .ok false s

def takeSymbol (o : Symbol) : Parser Bool := fun s =>
  if s.peek.kind == .symbol o then .ok true s.skip else .ok false s

def keyword (k : Keyword) : Parser Token :=
  expect k.name fun t => if t.kind == .keyword k then some t else none

def symbol (o : Symbol) : Parser Token :=
  expect ("'" ++ o.name ++ "'") fun t => if t.kind == .symbol o then some t else none

/-- A parser that may fail if it consumes nothing. -/
def optional {α : Type} (p : Parser α) : Parser (Option α) := fun s =>
  match p s with
  | .ok a s' => .ok (some a) s'
  | .fail e s' => if s'.rest.length == s.rest.length then .ok none s' else .fail e s'

def manyUpTo {α : Type} (p : Parser α) : Nat → Parser (List α)
  | 0 => Parser.pure []
  | n + 1 => fun s =>
    match optional p s with
    | .fail e s' => .fail e s'
    | .ok none s' => .ok [] s'
    | .ok (some a) s' =>
      if s'.rest.length == s.rest.length then .ok [a] s'
      else match manyUpTo p n s' with
        | .ok as s'' => .ok (a :: as) s''
        | .fail e s'' => .fail e s''

/-- As many repetitions as there are.  Each but the last consumes a token, so there are at most as
many as tokens and one more. -/
def many {α : Type} (p : Parser α) : Parser (List α) := fun s => manyUpTo p (s.rest.length + 1) s

def itemsUpTo {α : Type} (separator : Symbol) (p : Parser α) : Nat → Parser (List α)
  | 0 => Parser.pure []
  | n + 1 => do
    if ← takeSymbol separator then
      let a ← p
      let as ← itemsUpTo separator p n
      return a :: as
    else return []

/-- One item or more, with separators between them. -/
def sepBy {α : Type} (separator : Symbol) (p : Parser α) : Parser (List α) := do
  let a ← p
  let s ← stream
  let as ← itemsUpTo separator p s.rest.length
  return a :: as

end Parser
end Attest
