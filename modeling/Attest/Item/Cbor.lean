import Attest.Item
import Attest.WireError

/-!
Data items as CBOR.

Writing is canonical: lengths are definite, heads are as short as possible, the entries of a map
stand in the order of their written keys, and floats have double width.  Reading also takes floats
of half and single width and entries in any order, checks every length against what is left, and
limits nesting.
-/

namespace Attest
namespace Cbor

/-- The last bytes of a number, highest first. -/
def bigEndian : Nat → Nat → List UInt8
  | 0, _ => []
  | k + 1, n => (n / Nat.pow 256 k).toUInt8 :: bigEndian k n

/-- The number of bytes, highest first. -/
def ofBigEndian (bs : List UInt8) : Nat := bs.foldl (fun n b => n * 256 + b.toNat) 0

/-- Kinds of items, as the first three bits say. -/
inductive Major where
  | unsigned
  | negative
  | bytes
  | text
  | array
  | map
  | tag
  | simple
deriving DecidableEq, Repr

namespace Major

def number : Major → Nat
  | unsigned => 0
  | negative => 1
  | bytes => 2
  | text => 3
  | array => 4
  | map => 5
  | tag => 6
  | simple => 7

def ofNumber (n : Nat) : Major :=
  match n with
  | 0 => unsigned
  | 1 => negative
  | 2 => bytes
  | 3 => text
  | 4 => array
  | 5 => map
  | 6 => tag
  | _ => simple

end Major

def initial (m : Major) (info : Nat) : UInt8 := (m.number * 32 + info).toUInt8

/-- The head of an item: its kind and a number. -/
def head (m : Major) (n : Nat) : List UInt8 :=
  if n < 24 then [initial m n]
  else if n < 256 then initial m 24 :: bigEndian 1 n
  else if n < 0x10000 then initial m 25 :: bigEndian 2 n
  else if n < 0x100000000 then initial m 26 :: bigEndian 4 n
  else initial m 27 :: bigEndian 8 n

def sortEntries (es : List (List UInt8 × List UInt8)) : List (List UInt8 × List UInt8) :=
  Sorting.sort (fun a b => Item.keyLess a.1 b.1) es

def joinEntries (es : List (List UInt8 × List UInt8)) : List UInt8 := es.flatMap fun e => e.1 ++ e.2

mutual

def encode : Item → List UInt8
  | .unsigned n => head .unsigned n.toNat
  | .negative n => head .negative n.toNat
  | .bytes bs => head .bytes bs.length ++ bs
  | .text s => head .text s.utf8ByteSize ++ Text.utf8 s
  | .array items => head .array items.length ++ encodeItems items
  | .map entries => head .map entries.length ++ joinEntries (sortEntries (encodeEntries entries))
  | .tag n content => head .tag n.toNat ++ encode content
  | .bool b => [initial .simple (if b then 21 else 20)]
  | .null => [initial .simple 22]
  | .float x => initial .simple 27 :: bigEndian 8 x.bits.toNat

def encodeItems : List Item → List UInt8
  | [] => []
  | i :: rest => encode i ++ encodeItems rest

def encodeEntries : List (Item × Item) → List (List UInt8 × List UInt8)
  | [] => []
  | (k, v) :: rest => (encode k, encode v) :: encodeEntries rest

end

/-- Bytes that are left, and how many were read before them. -/
structure Input where
  offset : Nat
  rest : List UInt8
deriving DecidableEq, Repr

def take (n : Nat) (i : Input) : Except WireError (List UInt8 × Input) :=
  if i.rest.length < n then .error (.truncated i.offset (n - i.rest.length))
  else .ok (i.rest.take n, ⟨i.offset + n, i.rest.drop n⟩)

def takeNumber (n : Nat) (i : Input) : Except WireError (Nat × Input) := do
  let (bs, i) ← take n i
  return (ofBigEndian bs, i)

/-- The number of a head that began at an offset. -/
def argument (info start : Nat) (i : Input) : Except WireError (Nat × Input) :=
  if info < 24 then .ok (info, i)
  else if info == 24 then takeNumber 1 i
  else if info == 25 then takeNumber 2 i
  else if info == 26 then takeNumber 4 i
  else if info == 27 then takeNumber 8 i
  else if info == 31 then .error (.malformedLength start .indefinite)
  else .error (.malformedLength start (.reserved info))

/-- A number of things that are left, each of which takes at least so many bytes. -/
def count (info start least : Nat) (i : Input) : Except WireError (Nat × Input) := do
  let (n, i) ← argument info start i
  if n * least ≤ i.rest.length then return (n, i)
  else .error (.malformedLength start (.tooLong n i.rest.length))

def readMany (item : Input → Except WireError (Item × Input)) :
    Nat → Input → Except WireError (List Item × Input)
  | 0, i => .ok ([], i)
  | n + 1, i => do
    let (x, i) ← item i
    let (xs, i) ← readMany item n i
    return (x :: xs, i)

def readEntries (item : Input → Except WireError (Item × Input)) :
    Nat → Input → Except WireError (List (Item × Item) × Input)
  | 0, i => .ok ([], i)
  | n + 1, i => do
    let (k, i) ← item i
    let (v, i) ← item i
    let (es, i) ← readEntries item n i
    return ((k, v) :: es, i)

def scaled (negative : Bool) (m : Nat) (e : Int) : Double :=
  let x :=
    if 0 ≤ e then Double.ofRatio (m * Nat.pow 2 e.toNat) 1
    else Double.ofRatio m (Nat.pow 2 (-e).toNat)
  if negative then x.neg else x

/-- The float of half width.  What is no number loses its payload. -/
def ofHalf (n : Nat) : Double :=
  let negative := n / 0x8000 == 1
  let exponent : Nat := n / 0x400 % 32
  let fraction := n % 0x400
  if exponent == 0 then scaled negative fraction (-24)
  else if exponent == 31 then
    if fraction != 0 then Double.nan
    else if negative then Double.infinity.neg else Double.infinity
  else scaled negative (fraction + 0x400) ((exponent : Int) - 25)

/-- The float of single width.  What is no number keeps its payload and becomes quiet. -/
def ofSingle (n : Nat) : Double :=
  let negative := n / 0x80000000 == 1
  let exponent : Nat := n / 0x800000 % 256
  let fraction := n % 0x800000
  if exponent == 0 then scaled negative fraction (-149)
  else if exponent == 255 then
    if fraction == 0 then if negative then Double.infinity.neg else Double.infinity
    else
      let sign := n / 0x80000000 * 0x8000000000000000
      (Double.ofBits (sign + 0x7ff0000000000000 + fraction * 0x20000000)).quiet
  else scaled negative (fraction + 0x800000) ((exponent : Int) - 150)

/-- An item of the last kind: a constant or a float. -/
def readSimple (info start : Nat) (i : Input) : Except WireError (Item × Input) :=
  if info == 20 then .ok (.bool false, i)
  else if info == 21 then .ok (.bool true, i)
  else if info == 22 then .ok (.null, i)
  else if info == 25 then do
    let (n, i) ← takeNumber 2 i
    return (.float (ofHalf n), i)
  else if info == 26 then do
    let (n, i) ← takeNumber 4 i
    return (.float (ofSingle n), i)
  else if info == 27 then do
    let (n, i) ← takeNumber 8 i
    return (.float (Double.ofBits n), i)
  else if info == 31 then .error (.malformedLength start .strayBreak)
  else .error (.unexpected "boolean, null or float" s!"simple value {info} at offset {start}")

def readText (size start : Nat) (i : Input) : Except WireError (Item × Input) := do
  let (bs, i) ← take size i
  match Text.ofUtf8? bs with
  | some s => return (.text s, i)
  | none => .error (.unexpected "UTF-8 text" s!"invalid UTF-8 at offset {start}")

def maxDepth : Nat := 128

/-- The next item, with this many levels left. -/
def readItem : Nat → Input → Except WireError (Item × Input)
  | 0, i => .error (.malformedLength i.offset (.tooDeep maxDepth))
  | d + 1, i => do
    let start := i.offset
    let (byte, i) ← takeNumber 1 i
    let info := byte % 32
    match Major.ofNumber (byte / 32) with
    | .unsigned => do
      let (n, i) ← argument info start i
      return (.unsigned n.toUInt64, i)
    | .negative => do
      let (n, i) ← argument info start i
      return (.negative n.toUInt64, i)
    | .bytes => do
      let (n, i) ← count info start 1 i
      let (bs, i) ← take n i
      return (.bytes bs, i)
    | .text => do
      let (n, i) ← count info start 1 i
      readText n start i
    | .array => do
      let (n, i) ← count info start 1 i
      let (items, i) ← readMany (readItem d) n i
      return (.array items, i)
    | .map => do
      -- an entry is two items, and so at least two bytes
      let (n, i) ← count info start 2 i
      let (entries, i) ← readEntries (readItem d) n i
      return (.map entries, i)
    | .tag => do
      let (n, i) ← argument info start i
      let (content, i) ← readItem d i
      return (.tag n.toUInt64 content, i)
    | .simple => readSimple info start i

/-- The item that all the bytes are. -/
def decode (bs : List UInt8) : Except WireError Item := do
  let (item, i) ← readItem maxDepth ⟨0, bs⟩
  if i.rest.isEmpty then return item else .error (.trailing i.offset i.rest.length)

end Cbor
end Attest
