import Attest.Yaml.Scalar

/-!
The tokens of a YAML document.

Indentation becomes tokens: a block opens where a column is further right than the block around it
and closes where the text goes back to the left.  What may turn out to be a key is remembered, and
the token that says so is put before it once its colon is found.
-/

namespace Attest
namespace Yaml

inductive Token where
  | documentStart
  | documentEnd
  | openSeq
  | closeSeq
  | openMap
  | closeMap
  | comma
  | blockSeq
  | blockMap
  | blockEnd
  | entry
  | key
  | value
  | scalar (plain : Bool) (text : String)
deriving DecidableEq, Repr

/-- Where the scanner stands, and what is still to be read. -/
structure Cursor where
  rest : List Char
  index : Nat := 0
  line : Nat := 0
  column : Nat := 0

namespace Cursor

def step (p : Cursor) (c : Char) (rest : List Char) : Cursor :=
  if isBreak c then ⟨rest, p.index + 1, p.line + 1, 0⟩
  else ⟨rest, p.index + 1, p.line, p.column + 1⟩

def skip : Nat → Cursor → Cursor
  | 0, p => p
  | n + 1, p => match p.rest with
    | [] => p
    | c :: rest => skip n (p.step c rest)

/-- Where only `rest` is still to be read. -/
def goto (p : Cursor) (rest : List Char) : Cursor := p.skip (p.rest.length - rest.length)

end Cursor

/-- What may turn out to be a key. -/
structure KeyPlace where
  /-- How many tokens stand before it. -/
  tokens : Nat
  index : Nat
  line : Nat
  column : Nat
  /-- Whether nothing but a key can stand here. -/
  isRequired : Bool

structure Scanner where
  cursor : Cursor
  tokens : List Token := []
  /-- Columns of the open blocks, innermost first. -/
  blocks : List Nat := []
  /-- What may be a key inside the innermost brackets. -/
  candidate : Option KeyPlace := none
  /-- The same for the brackets around them; their number is that of the open brackets. -/
  outer : List (Option KeyPlace) := []
  /-- Whether a key may begin here. -/
  keyAllowed : Bool := true

namespace Scanner

def inFlow (s : Scanner) : Bool := !s.outer.isEmpty

/-- The column that a block must be right of, counted from one: zero outside all blocks. -/
def indent (s : Scanner) : Nat := match s.blocks with
  | [] => 0
  | column :: _ => column + 1

def emit (s : Scanner) (t : Token) : Scanner := { s with tokens := s.tokens ++ [t] }

/-- Open a block at a column, unless one is open there, with its token before the given place. -/
def openBlock (s : Scanner) (column place : Nat) (t : Token) : Scanner :=
  if s.inFlow || column < s.indent then s
  else { s with blocks := column :: s.blocks, tokens := s.tokens.insertIdx place t }

/-- Close the blocks right of a column, which is counted from one. -/
def closeBlocks (s : Scanner) (column : Nat) : Scanner :=
  if s.inFlow then s
  else
    let kept := s.blocks.dropWhile fun b => column < b + 1
    { s with
      blocks := kept
      tokens := s.tokens ++ List.replicate (s.blocks.length - kept.length) .blockEnd }

/-- Forget what may be a key, unless it has to be one. -/
def dropKey (s : Scanner) : Option Scanner :=
  match s.candidate with
  | some k => if k.isRequired then none else some { s with candidate := none }
  | none => some s

def saveKey (s : Scanner) : Option Scanner :=
  if !s.keyAllowed then some s
  else do
    let p := s.cursor
    let isRequired := !s.inFlow && s.indent == p.column + 1
    let s ← s.dropKey
    return { s with candidate := some ⟨s.tokens.length, p.index, p.line, p.column, isRequired⟩ }

/-- Most characters from the beginning of a key to its colon. -/
def keyLength : Nat := 1024

/-- A candidate for a key, unless its line has ended or it is too long. -/
def stillKey (p : Cursor) : Option KeyPlace → Option (Option KeyPlace)
  | none => some none
  | some k =>
    if k.line < p.line || k.index + keyLength < p.index then
      if k.isRequired then none else some none
    else some (some k)

def expireKeys (s : Scanner) : Option Scanner := do
  let candidate ← stillKey s.cursor s.candidate
  let outer ← s.outer.mapM (stillKey s.cursor)
  return { s with candidate := candidate, outer := outer }

/-- Skip blanks, comments and line breaks, where a tab counts as a blank if no key may begin. -/
def skipGap (inFlow : Bool) (inComment keyAllowed : Bool) (p : Cursor) :
    List Char → Cursor × Bool
  | [] => (p, keyAllowed)
  | c :: rest =>
    if isBreak c then skipGap inFlow false (keyAllowed || !inFlow) (p.step c rest) rest
    else if inComment then skipGap inFlow true keyAllowed (p.step c rest) rest
    else if c == ' ' || (c == '\t' && (inFlow || !keyAllowed)) then
      skipGap inFlow false keyAllowed (p.step c rest) rest
    else if c == '#' then skipGap inFlow true keyAllowed (p.step c rest) rest
    else (p, keyAllowed)

def skip (s : Scanner) (n : Nat) : Scanner := { s with cursor := s.cursor.skip n }

def marker (s : Scanner) (t : Token) : Option Scanner := do
  let s ← (s.closeBlocks 0).dropKey
  return ({ s with keyAllowed := false }.skip 3).emit t

def openFlow (s : Scanner) (t : Token) : Option Scanner := do
  let s ← s.saveKey
  let s := { s with candidate := none, outer := s.candidate :: s.outer, keyAllowed := true }
  return (s.skip 1).emit t

def closeFlow (s : Scanner) (t : Token) : Option Scanner := do
  let s ← s.dropKey
  let s := match s.outer with
    | [] => s
    | k :: outer => { s with candidate := k, outer := outer }
  return ({ s with keyAllowed := false }.skip 1).emit t

def comma (s : Scanner) : Option Scanner := do
  let s ← s.dropKey
  return ({ s with keyAllowed := true }.skip 1).emit .comma

def entry (s : Scanner) : Option Scanner := do
  if !s.inFlow && !s.keyAllowed then none
  else
    let s := s.openBlock s.cursor.column s.tokens.length .blockSeq
    let s ← s.dropKey
    return ({ s with keyAllowed := true }.skip 1).emit .entry

def key (s : Scanner) : Option Scanner := do
  if !s.inFlow && !s.keyAllowed then none
  else
    let s := s.openBlock s.cursor.column s.tokens.length .blockMap
    let s ← s.dropKey
    return ({ s with keyAllowed := !s.inFlow }.skip 1).emit .key

/-- A colon before a value, which makes a key of what stood before it. -/
def value (s : Scanner) : Option Scanner :=
  match s.candidate with
  | some k =>
    let s := { s with tokens := s.tokens.insertIdx k.tokens .key, candidate := none }
    let s := s.openBlock k.column k.tokens .blockMap
    some (({ s with keyAllowed := false }.skip 1).emit .value)
  | none =>
    if !s.inFlow && !s.keyAllowed then none
    else
      let s := s.openBlock s.cursor.column s.tokens.length .blockMap
      some (({ s with keyAllowed := !s.inFlow }.skip 1).emit .value)

def scalar (s : Scanner) (plain : Bool) (out rest : List Char) : Scanner :=
  { s with cursor := s.cursor.goto rest }.emit (.scalar plain (String.ofList out.reverse))

def quoted (s : Scanner) (read : Option (List Char × List Char)) : Option Scanner := do
  let s ← s.saveKey
  let (out, rest) ← read
  return { s with keyAllowed := false }.scalar false out rest

def plain (s : Scanner) : Option Scanner := do
  let s ← s.saveKey
  let t ← plainText s.inFlow s.indent [] .none s.cursor.column s.cursor.rest
  return { s with keyAllowed := t.broken }.scalar true t.out t.rest

def beginsPlain (inFlow : Bool) (c : Char) (rest : List Char) : Bool :=
  if c == '-' then !rest.head?.any isBlank
  else if c == '?' || c == ':' then !inFlow && !blankNext rest
  else !(isFlowMark c || ['#', '&', '*', '!', '|', '>', '\'', '"', '%', '@', '\x60'].contains c)

def fetch (s : Scanner) (c : Char) (rest : List Char) : Option Scanner :=
  let atStart := s.cursor.column == 0
  if atStart && c == '%' then none
  else if atStart && isMarker (c :: rest) then
    s.marker (if c == '-' then .documentStart else .documentEnd)
  else if c == '[' then s.openFlow .openSeq
  else if c == '\x7b' then s.openFlow .openMap
  else if c == ']' then s.closeFlow .closeSeq
  else if c == '\x7d' then s.closeFlow .closeMap
  else if c == ',' then s.comma
  else if c == '-' && blankNext rest then s.entry
  else if c == '?' && (s.inFlow || blankNext rest) then s.key
  else if c == ':' && (s.inFlow || blankNext rest) then s.value
  else if c == '\'' then s.quoted (singleQuoted [] .none rest)
  else if c == '"' then s.quoted (doubleQuoted [] .none .outside rest)
  else if beginsPlain s.inFlow c rest then s.plain
  else none

def finish (s : Scanner) : Option (List Token) := do
  let s ← (s.closeBlocks 0).dropKey
  return s.tokens

/-- Read tokens, each of which takes at least one of the characters that are left. -/
def run : Nat → Scanner → Option (List Token)
  | 0, _ => none
  | n + 1, s => do
    let (cursor, keyAllowed) := skipGap s.inFlow false s.keyAllowed s.cursor s.cursor.rest
    let s ← expireKeys { s with cursor := cursor, keyAllowed := keyAllowed }
    match s.cursor.rest with
    | [] => s.finish
    | c :: rest => run n (← (s.closeBlocks (s.cursor.column + 1)).fetch c rest)

end Scanner

def isAllowed (c : Char) : Bool :=
  let n := c.toNat
  n == 0x09 || n == 0x0a || n == 0x0d || (0x20 ≤ n && n ≤ 0x7e) || n == 0x85
    || (0xa0 ≤ n && n ≤ 0xfffd && n != 0xfeff) || 0x10000 ≤ n

/-- Line ends of every system as line feeds. -/
def normalBreaks : List Char → List Char
  | '\r' :: '\n' :: rest => '\n' :: normalBreaks rest
  | '\r' :: rest => '\n' :: normalBreaks rest
  | '\u0085' :: rest => '\n' :: normalBreaks rest
  | c :: rest => c :: normalBreaks rest
  | [] => []

/-- A byte order mark at the beginning is no part of the text. -/
def withoutMark : List Char → List Char
  | '\ufeff' :: rest => rest
  | cs => cs

def tokenize (text : String) : Option (List Token) :=
  let cs := withoutMark text.toList
  if cs.all isAllowed then
    let cs := normalBreaks cs
    Scanner.run (cs.length + 1) { cursor := { rest := cs } }
  else none

end Yaml
end Attest
