import Attest.Text.Hex

/-!
Scalars of YAML: quoted texts with their escapes, and plain texts with their continuation lines.

A line break between two words becomes a space, and one with empty lines after it becomes those.
-/

namespace Attest
namespace Yaml

def isBlank (c : Char) : Bool := c == ' ' || c == '\t'

def isBreak (c : Char) : Bool := c == '\n' || c == '\u2028' || c == '\u2029'

/-- Whether a text begins with a blank or a line break, or ends here. -/
def blankNext : List Char → Bool
  | [] => true
  | c :: _ => isBlank c || isBreak c

def isMarker : List Char → Bool
  | '-' :: '-' :: '-' :: rest => blankNext rest
  | '.' :: '.' :: '.' :: rest => blankNext rest
  | _ => false

/-- Blanks and line breaks between words, last first. -/
inductive Gap where
  /-- Blanks in one line. -/
  | blanks (read : List Char)
  /-- Line breaks; the blanks around them do not count. -/
  | breaks (read : List Char)
  /-- Line breaks after one that was escaped. -/
  | joined (read : List Char)

namespace Gap

def none : Gap := blanks []

def isBroken : Gap → Bool
  | breaks _ => true
  | _ => false

def push (c : Char) : Gap → Gap
  | blanks bs => if isBreak c then breaks [c] else blanks (c :: bs)
  | breaks bs => if isBreak c then breaks (c :: bs) else breaks bs
  | joined bs => if isBreak c then joined (c :: bs) else joined bs

/-- What a gap is in the text, last first. -/
def fold : Gap → List Char
  | blanks bs => bs
  | breaks bs => match bs.reverse with
    | ['\n'] => [' ']
    | '\n' :: trail => trail.reverse
    | all => all.reverse
  | joined bs => bs

end Gap

def escaped? : Char → Option Char
  | '0' => some '\x00'
  | 'a' => some '\x07'
  | 'b' => some '\x08'
  | 't' => some '\t'
  | '\t' => some '\t'
  | 'n' => some '\n'
  | 'v' => some '\x0b'
  | 'f' => some '\x0c'
  | 'r' => some '\r'
  | 'e' => some '\x1b'
  | ' ' => some ' '
  | '"' => some '"'
  | '/' => some '/'
  | '\\' => some '\\'
  | 'N' => some '\u0085'
  | '_' => some '\u00a0'
  | 'L' => some '\u2028'
  | 'P' => some '\u2029'
  | _ => none

def codeWidth? : Char → Option Nat
  | 'x' => some 2
  | 'u' => some 4
  | 'U' => some 8
  | _ => none

inductive EscapeState where
  | outside
  /-- After the backslash. -/
  | start
  /-- With so many digits of a code point to come, and its value so far. -/
  | code (left value : Nat)

/-- The rest of a text in double quotes: what it says, last first, and what follows it. -/
def doubleQuoted (out : List Char) (gap : Gap) :
    EscapeState → List Char → Option (List Char × List Char)
  | _, [] => none
  | .outside, c :: rest =>
    if isBlank c || isBreak c then
      if isBreak c && isMarker rest then none else doubleQuoted out (gap.push c) .outside rest
    else if c == '"' then some (gap.fold ++ out, rest)
    else if c == '\\' then doubleQuoted (gap.fold ++ out) .none .start rest
    else doubleQuoted (c :: (gap.fold ++ out)) .none .outside rest
  | .start, c :: rest =>
    if isBreak c then
      if isMarker rest then none else doubleQuoted out (.joined []) .outside rest
    else match escaped? c, codeWidth? c with
      | some d, _ => doubleQuoted (d :: out) .none .outside rest
      | none, some w => doubleQuoted out .none (.code w 0) rest
      | none, none => none
  | .code left value, c :: rest => match Text.hexValue? c with
    | none => none
    | some d =>
      let value := value * 16 + d
      if 1 < left then doubleQuoted out .none (.code (left - 1) value) rest
      else if value.isValidChar then doubleQuoted (Char.ofNat value :: out) .none .outside rest
      else none

/-- The rest of a text in single quotes, where a doubled quote stands for one. -/
def singleQuoted (out : List Char) (gap : Gap) : List Char → Option (List Char × List Char)
  | [] => none
  | '\'' :: '\'' :: rest => singleQuoted ('\'' :: (gap.fold ++ out)) .none rest
  | c :: rest =>
    if isBlank c || isBreak c then
      if isBreak c && isMarker rest then none else singleQuoted out (gap.push c) rest
    else if c == '\'' then some (gap.fold ++ out, rest)
    else singleQuoted (c :: (gap.fold ++ out)) .none rest

def isFlowMark (c : Char) : Bool := [',', '[', ']', '\x7b', '\x7d'].contains c

/-- A plain text that was read: what it says, last first, what follows it, and whether a line ended
before that. -/
structure PlainText where
  out : List Char
  rest : List Char
  broken : Bool

/-- The rest of a plain text.  Outside brackets it ends at a line that is indented less than
`indent`; `column` is where the next character stands. -/
def plainText (inFlow : Bool) (indent : Nat) (out : List Char) (gap : Gap) (column : Nat) :
    List Char → Option PlainText
  | [] => some ⟨out, [], gap.isBroken⟩
  | c :: rest =>
    if isBreak c then plainText inFlow indent out (gap.push c) 0 rest
    else if isBlank c then
      if c == '\t' && gap.isBroken && column < indent then none
      else plainText inFlow indent out (gap.push c) (column + 1) rest
    else
      let afterGap := match gap with
        | .blanks [] => false
        | _ => true
      let ends := (afterGap && (c == '#' || (gap.isBroken && !inFlow && column < indent)))
        || (gap.isBroken && column == 0 && isMarker (c :: rest))
      if ends then some ⟨out, c :: rest, gap.isBroken⟩
      else if inFlow && c == ':' && rest.head?.any (fun d => d == '?' || isFlowMark d) then none
      else if (c == ':' && blankNext rest) || (inFlow && isFlowMark c) then
        some ⟨out, c :: rest, gap.isBroken⟩
      else plainText inFlow indent (c :: (gap.fold ++ out)) .none (column + 1) rest

end Yaml
end Attest
