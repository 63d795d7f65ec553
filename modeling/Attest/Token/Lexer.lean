import Attest.Text.Blank
import Attest.Text.Ident
import Attest.Token

/-!
The lexer.

Scanning a token says what it is and how many characters it takes beyond the first; its text is
then a prefix of the source by definition, and every token but the last takes a character.  A
scan that fails says where, what has been read by then, and why.
-/

namespace Attest

inductive LexFault where
  | unterminatedComment
  | unterminatedText
  | missingBrace
  | malformedEscape
  | invalidScalar (digits : String)
  | invalidEscape (c : Char)
  | natRange (lexeme : String)
  | floatRange (lexeme : String)
  | strayCharacter (c : Char)
deriving DecidableEq, Repr

def LexFault.reason : LexFault → String
  | unterminatedComment => "unterminated block comment"
  | unterminatedText => "unterminated string literal"
  | missingBrace => "expected '\x7b' after \\u"
  | malformedEscape => "malformed unicode escape"
  | invalidScalar ds => "invalid unicode scalar \\u\x7b" ++ ds ++ "\x7d"
  | invalidEscape c => "invalid escape sequence '\\" ++ c.toString ++ "'"
  | natRange l => "integer literal " ++ l ++ " out of range"
  | floatRange l => "float literal " ++ l ++ " out of range"
  | strayCharacter c => "unexpected character " ++ Text.quoteChar c

structure LexError where
  position : Position
  fault : LexFault
deriving DecidableEq, Repr

namespace LexError

def reason (e : LexError) : String := e.fault.reason

def message (e : LexError) : String := s!"lex error at {e.position}: " ++ e.reason

end LexError

namespace Lexer

/-- A scan that failed: characters before the fault, characters read by then, and the cause. -/
structure Failure where
  before : Nat
  read : Nat
  fault : LexFault
deriving DecidableEq, Repr

/-- What was scanned, and how many characters it takes beyond the first. -/
abbrev Scan := Except Failure (TokenKind × Nat)

/-- Characters of a block comment behind its opening, with `n` of them read. -/
def blockComment (n : Nat) : List Char → Option Nat
  | '*' :: '/' :: _ => some (n + 2)
  | _ :: rest => blockComment (n + 1) rest
  | [] => none

/-- Where a scan is inside a string: outside an escape, or in one that began after `start`
characters. -/
inductive TextState where
  | plain
  | escape (start : Nat)
  | brace (start : Nat)
  | digits (start : Nat) (read : List Char)

def shortEscape (c : Char) : Option Char :=
  match c with
  | '"' => some '"'
  | '\\' => some '\\'
  | 'n' => some '\n'
  | 't' => some '\t'
  | 'r' => some '\r'
  | '0' => some (Char.ofNat 0)
  | _ => none

def scalarOf (digits : List Char) : Option Char :=
  (Text.hexFold 0 digits).bind fun n => if n.isValidChar then some (Char.ofNat n) else none

/-- The rest of a string, `n` characters behind its opening quote; `value` is what it holds so far,
last first. -/
def textFrom (state : TextState) (n : Nat) (value : List Char) : List Char → Scan
  | [] => match state with
    | .plain => .error ⟨0, n, .unterminatedText⟩
    | .escape start => .error ⟨start, n, .unterminatedText⟩
    | .brace start => .error ⟨start, n, .missingBrace⟩
    | .digits start _ => .error ⟨start, n, .malformedEscape⟩
  | c :: rest => match state with
    | .plain =>
      if c == '"' then .ok (.text (String.ofList value.reverse), n)
      else if c == '\\' then textFrom (.escape n) (n + 1) value rest
      else textFrom .plain (n + 1) (c :: value) rest
    | .escape start =>
      if c == 'u' then textFrom (.brace start) (n + 1) value rest
      else match shortEscape c with
        | some d => textFrom .plain (n + 1) (d :: value) rest
        | none => .error ⟨start, n + 1, .invalidEscape c⟩
    | .brace start =>
      if c == '\x7b' then textFrom (.digits start []) (n + 1) value rest
      else .error ⟨start, n, .missingBrace⟩
    | .digits start read =>
      -- the digits are counted where they end, so that the error covers all of them
      if Text.isHexDigit c then textFrom (.digits start (c :: read)) (n + 1) value rest
      else if read.isEmpty || 6 < read.length || c != '\x7d' then
        .error ⟨start, n, .malformedEscape⟩
      else match scalarOf read.reverse with
        | some d => textFrom .plain (n + 1) (d :: value) rest
        | none => .error ⟨start, n + 1, .invalidScalar (String.ofList read.reverse)⟩

/-- The digits of a fraction, if a point and a digit follow. -/
def fractionOf : List Char → List Char
  | '.' :: rest => rest.takeWhile Char.isDigit
  | _ => []

/-- The sign and digits of an exponent, if one follows: whether it is negative, how many characters
come before the digits, and the digits. -/
def exponentOf : List Char → Option (Bool × Nat × List Char)
  | e :: rest =>
    if e != 'e' && e != 'E' then none
    else
      let (down, lead, rest) := match rest with
        | '+' :: r => (false, 2, r)
        | '-' :: r => (true, 2, r)
        | _ => (false, 1, rest)
      let ds := rest.takeWhile Char.isDigit
      if ds.isEmpty then none else some (down, lead, ds)
  | [] => none

def number (cs : List Char) : Scan :=
  let whole := cs.takeWhile Char.isDigit
  let rest := cs.dropWhile Char.isDigit
  let fraction := fractionOf rest
  -- a point without a digit behind it is left for the next token
  let fractionSize := if fraction.isEmpty then 0 else fraction.length + 1
  let exponent := exponentOf (rest.drop fractionSize)
  let (down, lead, ds) := exponent.getD (false, 0, [])
  let size := whole.length + fractionSize + lead + ds.length
  let lexeme := String.ofList (cs.take size)
  if fraction.isEmpty && exponent.isNone then
    let n := Double.digitsValue whole
    if n < 0x10000000000000000 then .ok (.nat n.toUInt64, size - 1)
    else .error ⟨0, size, .natRange lexeme⟩
  else
    let x := Double.ofDigits whole fraction down ds
    if x.isFinite then .ok (.float x, size - 1) else .error ⟨0, size, .floatRange lexeme⟩

/-- What a word is: the name of a type in exactly this case, then a constant or a reserved word in
either case, and otherwise an identifier. -/
def wordKind (w : String) : TokenKind :=
  match Category.ofName? w with
  | some c => .typeName c
  | none =>
    let upper := Text.asciiUpper w
    if upper == "TRUE" then .bool true
    else if upper == "FALSE" then .bool false
    else if upper == "NULL" then .null
    else match Keyword.ofWord? w with
      | some k => .keyword k
      | none => .ident w

def word (cs : List Char) : TokenKind × Nat :=
  let w := cs.takeWhile Text.isIdentRest
  (wordKind (String.ofList w), w.length - 1)

def symbolOf (c : Char) (next : Option Char) : Option (Symbol × Nat) :=
  match c with
  | '=' => some (.eq, 0)
  | '!' => if next == some '=' then some (.ne, 1) else none
  | '<' =>
    if next == some '=' then some (.le, 1)
    else if next == some '>' then some (.ne, 1)
    else some (.lt, 0)
  | '>' => if next == some '=' then some (.ge, 1) else some (.gt, 0)
  | '|' => if next == some '|' then some (.concat, 1) else none
  | '+' => some (.plus, 0)
  | '-' => some (.minus, 0)
  | '*' => some (.star, 0)
  | '/' => some (.slash, 0)
  | '%' => some (.percent, 0)
  | '^' => some (.caret, 0)
  | ',' => some (.comma, 0)
  | '(' => some (.lparen, 0)
  | ')' => some (.rparen, 0)
  | '[' => some (.lbracket, 0)
  | ']' => some (.rbracket, 0)
  | '\x7b' => some (.lbrace, 0)
  | '\x7d' => some (.rbrace, 0)
  | ':' => some (.colon, 0)
  | ';' => some (.semicolon, 0)
  | '.' => some (.dot, 0)
  | _ => none

/-- A comment with the characters it takes beyond the first. -/
def commentOf (cs : List Char) (extra : Nat) : Scan :=
  .ok (.comment (String.ofList (cs.take (extra + 1))), extra)

def scan (c : Char) (rest : List Char) : Scan :=
  if c == '-' && rest.head? == some '-' then
    commentOf (c :: rest) (rest.takeWhile (· != '\n')).length
  else if c == '/' && rest.head? == some '*' then
    match blockComment 1 (rest.drop 1) with
    | some n => commentOf (c :: rest) n
    | none => .error ⟨0, rest.length + 1, .unterminatedComment⟩
  else if c == '"' then textFrom .plain 1 [] rest
  else if c.isDigit then number (c :: rest)
  else if Text.isIdentStart c then .ok (word (c :: rest))
  else match symbolOf c rest.head? with
    | some (s, n) => .ok (.symbol s, n)
    | none => .error ⟨0, 1, .strayCharacter c⟩

/-- What is left of the source, and where that begins. -/
structure Cursor where
  rest : List Char
  position : Position
deriving DecidableEq, Repr

namespace Cursor

def ofSource (s : String) : Cursor := ⟨s.toList, Position.start⟩

def skip (c : Cursor) (n : Nat) : Cursor := ⟨c.rest.drop n, c.position.after (c.rest.take n)⟩

def skipSpace (c : Cursor) : Cursor := c.skip (c.rest.takeWhile Text.isSpace).length

@[simp] theorem length_rest_skip (c : Cursor) (n : Nat) :
    (c.skip n).rest.length = c.rest.length - n := by simp [skip]

theorem length_rest_skipSpace_le (c : Cursor) : c.skipSpace.rest.length ≤ c.rest.length := by
  simp [skipSpace]

end Cursor

/-- The next token and the cursor behind it.  Comments are tokens only if `keep` says so. -/
def next (keep : Bool) (c : Cursor) : Except (LexError × Cursor) (Token × Cursor) :=
  let here := c.skipSpace
  match _h : here.rest with
  | [] => .ok (⟨.eof, "", here.position⟩, here)
  | ch :: rest =>
    match scan ch rest with
    | .error f =>
      .error (⟨(here.skip f.before).position, f.fault⟩, here.skip f.read)
    | .ok (kind, extra) =>
      if kind.isComment && !keep then next keep (here.skip (extra + 1))
      else
        .ok (⟨kind, String.ofList (here.rest.take (extra + 1)), here.position⟩,
          here.skip (extra + 1))
termination_by c.rest.length
decreasing_by
  have := c.length_rest_skipSpace_le
  have : c.skipSpace.rest.length = rest.length + 1 := by rw [show c.skipSpace.rest = _ from _h]; rfl
  simp only [Cursor.length_rest_skip]
  omega

/-- A token other than the end takes at least one character. -/
theorem length_rest_next_lt {keep : Bool} {c c' : Cursor} {t : Token}
    (h : next keep c = .ok (t, c')) (ht : t.isEnd = false) : c'.rest.length < c.rest.length := by
  fun_induction next keep c with
  | case1 c here hr =>
    simp only [Except.ok.injEq, Prod.mk.injEq] at h
    simp [Token.isEnd, ← h.1] at ht
  | case2 => cases h
  | case3 c here ch rest hr kind extra hs hk ih =>
    have := ih h
    have := c.length_rest_skipSpace_le
    simp only [here, Cursor.length_rest_skip] at *
    omega
  | case4 c here ch rest hr kind extra hs hk =>
    simp only [Except.ok.injEq, Prod.mk.injEq] at h
    rw [← h.2]
    have := c.length_rest_skipSpace_le
    have : c.skipSpace.rest.length = rest.length + 1 := by
      rw [show c.skipSpace.rest = _ from hr]; rfl
    simp only [here, Cursor.length_rest_skip]
    omega

/-- Tokens from a cursor to the end or the first error, the end included. -/
def tokensFrom (keep : Bool) (c : Cursor) : List Token × Option LexError :=
  match _h : next keep c with
  | .error (e, _) => ([], some e)
  | .ok (t, c') =>
    if _ht : t.isEnd then ([t], none)
    else
      let more := tokensFrom keep c'
      (t :: more.1, more.2)
termination_by c.rest.length
decreasing_by exact length_rest_next_lt _h (by simpa using _ht)

/-- The tokens of a source; the last of them is its end. -/
def tokenize (s : String) : Except LexError (List Token) :=
  match tokensFrom false (Cursor.ofSource s) with
  | (ts, none) => .ok ts
  | (_, some e) => .error e

/-- A lexer that is asked for one token at a time, and asked no more after the end or an error. -/
structure Session where
  source : String
  keep : Bool
  cursor : Cursor
  finished : Bool

namespace Session

def ofSource (source : String) (keep : Bool) : Session :=
  ⟨source, keep, Cursor.ofSource source, false⟩

def restart (s : Session) : Session := ofSource s.source s.keep

def advance (s : Session) : Option (Except LexError Token) × Session :=
  if s.finished then (none, s)
  else match next s.keep s.cursor with
    | .error (e, c) => (some (.error e), { s with cursor := c, finished := true })
    | .ok (t, c) => (some (.ok t), { s with cursor := c, finished := t.isEnd })

end Session

end Lexer
end Attest
