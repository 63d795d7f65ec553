import Attest.Json.Basic
import Attest.Text.Hex

/-!
Reading of documents, strictly by the grammar.

A reader is an automaton that takes one character at a time.  Its state holds the open arrays and
objects, innermost first, and what may come next; there is no recursion but the one along the text.
-/

namespace Attest
namespace Json
namespace Reader

/-- An array or object that is open, with what it holds so far, last first. -/
inductive Frame where
  | array (items : List Json)
  | object (members : List (String × Json)) (name : String)

inductive Escape where
  | none
  /-- After the backslash. -/
  | start
  /-- After `count` digits of a code unit; `high` is the leading surrogate before it. -/
  | unit (count value : Nat) (high : Option Nat)
  /-- After a leading surrogate, which must be followed by another unit. -/
  | second (high : Nat)
  /-- After the backslash of that unit. -/
  | secondStart (high : Nat)

inductive Mode where
  | value
  | firstItem
  | firstName
  | name
  | colon
  | after
  | string (isName : Bool) (escape : Escape) (read : List Char)
  | number (read : List Char)
  | word (read : List Char)

/-- State of a reader; `result` is the document once it is complete. -/
structure State where
  stack : List Frame
  mode : Mode
  result : Option Json

def isSpace (c : Char) : Bool := c == ' ' || c == '\t' || c == '\n' || c == '\r'

/-- Hand a complete value to the innermost frame. -/
def complete (s : State) (v : Json) : State :=
  match s.stack with
  | [] => { s with mode := .after, result := some v }
  | .array items :: rest => { s with stack := .array (v :: items) :: rest, mode := .after }
  | .object members name :: rest =>
    { s with stack := .object ((name, v) :: members) name :: rest, mode := .after }

def close (s : State) (bracket : Char) : Option State :=
  match s.stack with
  | .array items :: rest =>
    if bracket == ']' then some (complete { s with stack := rest } (.array items.reverse)) else none
  | .object members _ :: rest =>
    if bracket == '\x7d' then
      some (complete { s with stack := rest } (.object members.reverse))
    else none
  | [] => none

/-- Open an array or object, unless too many are open. -/
def push (limit : Nat) (s : State) (f : Frame) (m : Mode) : Option State :=
  if s.stack.length < limit then some { s with stack := f :: s.stack, mode := m } else none

/-- Begin a value with its first character. -/
def begin (limit : Nat) (s : State) (c : Char) : Option State :=
  if c == '"' then some { s with mode := .string false .none [] }
  else if c == '[' then push limit s (.array []) .firstItem
  else if c == '\x7b' then push limit s (.object [] "") .firstName
  else if c == '-' || c.isDigit then some { s with mode := .number [c] }
  else if c.isAlpha then some { s with mode := .word [c] }
  else none

def digits (cs : List Char) : List Char × List Char :=
  (cs.takeWhile Char.isDigit, cs.dropWhile Char.isDigit)

/-- A float, unless it overflows. -/
def floatOf (minus : Bool) (x : Double) : Option JsonNumber :=
  if x.isFinite then some (.float (if minus then x.neg else x)) else none

def numberOf (cs : List Char) : Option JsonNumber :=
  let (minus, cs) := match cs with
    | '-' :: rest => (true, rest)
    | _ => (false, cs)
  let (whole, rest) := digits cs
  if whole.isEmpty || (whole.head? == some '0' && 1 < whole.length) then none
  else if rest.isEmpty then
    let n := Double.digitsValue whole
    if minus then
      if n == 0 then some (.float Double.zero.neg)
      else if n ≤ 0x8000000000000000 then some (.int (Int64.ofInt (-(n : Int))))
      else floatOf true (Double.ofNat n)
    else if n < 0x10000000000000000 then some (.nat n.toUInt64)
    else floatOf false (Double.ofNat n)
  else
    let fraction? := match rest with
      | '.' :: r => let (ds, r) := digits r; if ds.isEmpty then none else some (ds, r)
      | _ => some ([], rest)
    match fraction? with
    | none => none
    | some (fraction, []) => floatOf minus (Double.ofDigits whole fraction false [])
    | some (fraction, e :: r) =>
      if e != 'e' && e != 'E' then none
      else
        let (down, r) := match r with
          | '-' :: r => (true, r)
          | '+' :: r => (false, r)
          | _ => (false, r)
        let (exponent, r) := digits r
        if exponent.isEmpty || !r.isEmpty then none
        else floatOf minus (Double.ofDigits whole fraction down exponent)

def wordOf (cs : List Char) : Option Json :=
  match String.ofList cs with
  | "null" => some .null
  | "true" => some (.bool true)
  | "false" => some (.bool false)
  | _ => none

/-- A character between values. -/
def between (limit : Nat) (s : State) (c : Char) : Option State :=
  if isSpace c then some s
  else match s.mode with
    | .value => begin limit s c
    | .firstItem => if c == ']' then close s c else begin limit s c
    | .firstName =>
      if c == '\x7d' then close s c
      else if c == '"' then some { s with mode := .string true .none [] }
      else none
    | .name => if c == '"' then some { s with mode := .string true .none [] } else none
    | .colon => if c == ':' then some { s with mode := .value } else none
    | .after =>
      if c == ',' then match s.stack with
        | .array _ :: _ => some { s with mode := .value }
        | .object _ _ :: _ => some { s with mode := .name }
        | [] => none
      else close s c
    | _ => none

def shortEscape (c : Char) : Option Char :=
  match c with
  | '"' => some '"'
  | '\\' => some '\\'
  | '/' => some '/'
  | 'b' => some (Char.ofNat 8)
  | 'f' => some (Char.ofNat 12)
  | 'n' => some '\n'
  | 'r' => some '\r'
  | 't' => some '\t'
  | _ => none

def isHigh (n : Nat) : Bool := 0xD800 ≤ n && n < 0xDC00
def isLow (n : Nat) : Bool := 0xDC00 ≤ n && n < 0xE000

def unitDone (isName : Bool) (read : List Char) (value : Nat) : Option Nat → Option Mode
  | none =>
    if isHigh value then some (.string isName (.second value) read)
    else if isLow value then none
    else some (.string isName .none (Char.ofNat value :: read))
  | some high =>
    if isLow value then
      some (.string isName .none
        (Char.ofNat ((high - 0xD800) * 0x400 + (value - 0xDC00) + 0x10000) :: read))
    else none

/-- A character inside a string, other than the quote that ends it. -/
def inString (isName : Bool) (escape : Escape) (read : List Char) (c : Char) : Option Mode :=
  match escape with
  | .none =>
    if c == '\\' then some (.string isName .start read)
    else if c.toNat < 32 then none
    else some (.string isName .none (c :: read))
  | .start =>
    if c == 'u' then some (.string isName (.unit 0 0 none) read)
    else (shortEscape c).map fun d => .string isName .none (d :: read)
  | .unit count value high =>
    match Text.hexValue? c with
    | none => none
    | some d =>
      if count == 3 then unitDone isName read (value * 16 + d) high
      else some (.string isName (.unit (count + 1) (value * 16 + d) high) read)
  | .second high => if c == '\\' then some (.string isName (.secondStart high) read) else none
  | .secondStart high =>
    if c == 'u' then some (.string isName (.unit 0 0 (some high)) read) else none

def endString (s : State) (isName : Bool) (read : List Char) : State :=
  let t := String.ofList read.reverse
  if isName then match s.stack with
    | .object members _ :: rest => { s with stack := .object members t :: rest, mode := .colon }
    | _ => s
  else complete s (.text t)

/-- End a number or word, which nothing but the next character ends. -/
def settle (s : State) : Option State :=
  match s.mode with
  | .number read => (numberOf read.reverse).map fun n => complete s (.number n)
  | .word read => (wordOf read.reverse).map (complete s)
  | _ => some s

def isNumberChar (c : Char) : Bool :=
  c.isDigit || c == '.' || c == 'e' || c == 'E' || c == '+' || c == '-'

def step (limit : Nat) (s : State) (c : Char) : Option State :=
  match s.mode with
  | .string isName .none read =>
    if c == '"' then some (endString s isName read)
    else (inString isName .none read c).map fun m => { s with mode := m }
  | .string isName escape read => (inString isName escape read c).map fun m => { s with mode := m }
  | .number read =>
    if isNumberChar c then some { s with mode := .number (c :: read) }
    else (settle s).bind fun s => between limit s c
  | .word read =>
    if c.isAlphanum then some { s with mode := .word (c :: read) }
    else (settle s).bind fun s => between limit s c
  | _ => between limit s c

end Reader

/-- The document that a text spells, with at most `limit` arrays and objects open at once. -/
def read? (limit : Nat) (s : String) : Option Json := do
  let start : Reader.State := { stack := [], mode := .value, result := none }
  let last ← s.toList.foldlM (Reader.step limit) start
  let last ← Reader.settle last
  match last.mode, last.stack with
  | .after, [] => last.result
  | _, _ => none

end Json
end Attest
