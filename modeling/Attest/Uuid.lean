import Attest.Text.Hex
import Attest.Text.Utf8

/-!
Universally unique identifiers and their texts.

An identifier is written as five groups of hexadecimal digits.  It may also be read without
hyphens, within braces, or as a URN; a text that fits none of these is answered with the first
thing wrong with it.
-/

namespace Attest

/-- A universally unique identifier: a number of 128 bits. -/
structure Uuid where
  value : BitVec 128
deriving DecidableEq, Inhabited, Repr

inductive UuidError where
  | length (found : Nat)
  | character (found : Char) (index : Nat)
  | groupCount (found : Nat)
  | groupLength (group expected found : Nat)
deriving DecidableEq, Repr

namespace UuidError

def message : UuidError → String
  | length n => s!"invalid length: found {n}"
  | character c i => "invalid character: found \x60" ++ c.toString ++ s!"\x60 at {i}"
  | groupCount n => s!"invalid group count: expected 5, found {n}"
  | groupLength g e n => s!"invalid group length in group {g}: expected {e}, found {n}"

end UuidError

namespace Uuid

def digits (u : Uuid) : List Char :=
  (List.range 32).map fun i => Text.hexDigit (u.value.toNat / Nat.pow 16 (31 - i) % 16)

def hyphenated (u : Uuid) : String :=
  let ds := u.digits
  String.ofList (ds.take 8 ++ '-' :: (ds.drop 8).take 4 ++ '-' :: (ds.drop 12).take 4
    ++ '-' :: (ds.drop 16).take 4 ++ '-' :: ds.drop 20)

def compare (a b : Uuid) : Ordering := Ord.compare a.value.toNat b.value.toNat

def ofDigits? (cs : List Char) : Option Uuid :=
  if cs.length == 32 then (Text.hexFold 0 cs).map fun n => ⟨BitVec.ofNat 128 n⟩ else none

/-- The identifier that 36 characters in five groups spell. -/
def ofGroups? (cs : List Char) : Option Uuid :=
  let hyphenAt (i : Nat) := cs[i]? == some '-'
  if cs.length == 36 && hyphenAt 8 && hyphenAt 13 && hyphenAt 18 && hyphenAt 23 then
    ofDigits? (cs.take 8 ++ (cs.drop 9).take 4 ++ (cs.drop 14).take 4 ++ (cs.drop 19).take 4
      ++ cs.drop 24)
  else none

def braced? : List Char → Option (List Char)
  | '\x7b' :: rest => match rest.reverse with
    | '\x7d' :: inner => some inner.reverse
    | _ => none
  | _ => none

/-- What follows the URN mark, which may be of either case. -/
def urn? (cs : List Char) : Option (List Char) :=
  if (cs.take 9).map Char.toLower == "urn:uuid:".toList then some (cs.drop 9) else none

def byteCount (cs : List Char) : Nat := cs.foldr (fun c n => c.utf8Size + n) 0

/-- The first character, with its byte index, that is neither a digit nor a hyphen. -/
def strayFrom (index : Nat) : List Char → Option (Char × Nat)
  | [] => none
  | c :: rest =>
    if Text.isHexDigit c || c == '-' then strayFrom (index + c.utf8Size) rest
    else some (c, index)

def hyphens (cs : List Char) : List Nat :=
  (cs.zipIdx.filter (·.1 == '-')).map (·.2)

/-- The first group, of those that a hyphen ends, whose hyphen is not where it should be.  The
triples hold the group, its start and its length. -/
def shortGroup : List Nat → List (Nat × Nat × Nat) → Option UuidError
  | h :: hs, (g, start, n) :: rest =>
    if h == start + n then shortGroup hs rest else some (.groupLength g n (h - start))
  | _, _ => none

/-- What is wrong with a text, of which `skipped` characters came before `body`. -/
def faultOf (whole body : List Char) (skipped : Nat) (bare : Bool) : UuidError :=
  match strayFrom skipped body with
  | some (c, i) => .character c i
  | none =>
    let hs := hyphens body
    if hs.isEmpty && bare then .length (byteCount whole)
    else if hs.length != 4 then .groupCount (hs.length + 1)
    else (shortGroup hs [(0, 0, 8), (1, 9, 4), (2, 14, 4), (3, 19, 4)]).getD
      (.groupLength 4 12 (byteCount whole - 24))

def fault (cs : List Char) : UuidError :=
  let n := byteCount cs
  if n == 0 || 45 < n then .length n
  else if n == 36 then faultOf cs cs 0 false
  else match braced? cs, urn? cs with
    | some inner, _ => if n == 38 then faultOf inner inner 0 false else faultOf cs inner 1 false
    | none, some inner => if n == 45 then faultOf inner inner 0 false else faultOf cs inner 9 false
    | none, none => faultOf cs cs 0 true

def parse (s : String) : Except UuidError Uuid :=
  let cs := s.toList
  let found := (ofDigits? cs) <|> (ofGroups? cs) <|> ((braced? cs).bind ofGroups?)
    <|> ((urn? cs).bind ofGroups?)
  match found with
  | some u => .ok u
  | none => .error (fault cs)

end Uuid
end Attest
