import Attest.Item.Cbor

/-!
MessagePack values: the payload of the packed form.
-/

namespace Attest

/-- A value.  Texts are kept as bytes, since nothing makes sure that they are texts. -/
inductive MsgPack where
  | nil
  | bool (b : Bool)
  | nat (n : Nat)
  | int (i : Int)
  | float (x : Double)
  | text (bs : List UInt8)
  | binary (bs : List UInt8)
  | array (items : List MsgPack)
  | map (entries : List (MsgPack × MsgPack))
  | ext
deriving Repr, Inhabited

namespace MsgPack

/-- A natural number in the fewest bytes. -/
def writeNat (n : Nat) : List UInt8 :=
  if n < 128 then [n.toUInt8]
  else if n < 256 then 0xcc :: Cbor.bigEndian 1 n
  else if n < 0x10000 then 0xcd :: Cbor.bigEndian 2 n
  else if n < 0x100000000 then 0xce :: Cbor.bigEndian 4 n
  else 0xcf :: Cbor.bigEndian 8 n

def writeText (bs : List UInt8) : List UInt8 :=
  let n := bs.length
  let head :=
    if n < 32 then [(0xa0 + n).toUInt8]
    else if n < 256 then 0xd9 :: Cbor.bigEndian 1 n
    else if n < 0x10000 then 0xda :: Cbor.bigEndian 2 n
    else 0xdb :: Cbor.bigEndian 4 n
  head ++ bs

def arrayHead (n : Nat) : List UInt8 :=
  if n < 16 then [(0x90 + n).toUInt8]
  else if n < 0x10000 then 0xdc :: Cbor.bigEndian 2 n
  else 0xdd :: Cbor.bigEndian 4 n

/-- A map of one entry whose key is a text. -/
def writeVariant (name : String) (content : List UInt8) : List UInt8 :=
  0x81 :: writeText (Text.utf8 name) ++ content

def writeFloat (x : Double) : List UInt8 := 0xcb :: Cbor.bigEndian 8 x.bits.toNat

def take? (n : Nat) (bs : List UInt8) : Option (List UInt8 × List UInt8) :=
  if bs.length < n then none else some (bs.take n, bs.drop n)

def number? (n : Nat) (bs : List UInt8) : Option (Nat × List UInt8) := do
  let (ds, bs) ← take? n bs
  return (Cbor.ofBigEndian ds, bs)

/-- An integer of so many bytes, in two's complement. -/
def signed? (n : Nat) (bs : List UInt8) : Option (MsgPack × List UInt8) := do
  let (m, bs) ← number? n bs
  let bound := Nat.pow 2 (8 * n - 1)
  return (if m < bound then nat m else int ((m : Int) - (2 * bound : Nat)), bs)

def many? {α : Type} (p : List UInt8 → Option (α × List UInt8)) :
    Nat → List UInt8 → Option (List α × List UInt8)
  | 0, bs => some ([], bs)
  | n + 1, bs => do
    let (x, bs) ← p bs
    let (xs, bs) ← many? p n bs
    return (x :: xs, bs)

/-- The next value.  Every level takes a byte, so the bytes bound the levels; arrays nest at most
as deep as `depth` says. -/
def readAt : Nat → Nat → List UInt8 → Option (MsgPack × List UInt8)
  | 0, _, _ => none
  | _ + 1, _, [] => none
  | fuel + 1, depth, b :: bs =>
    let readArray (n : Nat) (bs : List UInt8) : Option (MsgPack × List UInt8) :=
      if depth ≤ 1 then none
      else do
        let (xs, bs) ← many? (readAt fuel (depth - 1)) n bs
        return (array xs, bs)
    let readMap (n : Nat) (bs : List UInt8) : Option (MsgPack × List UInt8) := do
      let (es, bs) ← many? (fun bs => do
        let (k, bs) ← readAt fuel depth bs
        let (v, bs) ← readAt fuel depth bs
        return ((k, v), bs)) n bs
      return (map es, bs)
    let readBytes (make : List UInt8 → MsgPack) (n : Nat) (bs : List UInt8) := do
      let (xs, bs) ← take? n bs
      return (make xs, bs)
    let sized (width : Nat) (k : Nat → List UInt8 → Option (MsgPack × List UInt8)) := do
      let (n, bs) ← number? width bs
      k n bs
    let n := b.toNat
    if n < 0x80 then some (nat n, bs)
    else if n < 0x90 then readMap (n - 0x80) bs
    else if n < 0xa0 then readArray (n - 0x90) bs
    else if n < 0xc0 then readBytes text (n - 0xa0) bs
    else if 0xe0 ≤ n then some (int ((n : Int) - 256), bs)
    else match n with
      | 0xc0 => some (nil, bs)
      | 0xc2 => some (bool false, bs)
      | 0xc3 => some (bool true, bs)
      | 0xc4 => sized 1 (readBytes binary)
      | 0xc5 => sized 2 (readBytes binary)
      | 0xc6 => sized 4 (readBytes binary)
      | 0xca => sized 4 fun n bs => some (float (Cbor.ofSingle n), bs)
      | 0xcb => sized 8 fun n bs => some (float (Double.ofBits n), bs)
      | 0xcc => sized 1 fun n bs => some (nat n, bs)
      | 0xcd => sized 2 fun n bs => some (nat n, bs)
      | 0xce => sized 4 fun n bs => some (nat n, bs)
      | 0xcf => sized 8 fun n bs => some (nat n, bs)
      | 0xd0 => signed? 1 bs
      | 0xd1 => signed? 2 bs
      | 0xd2 => signed? 4 bs
      | 0xd3 => signed? 8 bs
      | 0xd9 => sized 1 (readBytes text)
      | 0xda => sized 2 (readBytes text)
      | 0xdb => sized 4 (readBytes text)
      | 0xdc => sized 2 readArray
      | 0xdd => sized 4 readArray
      | 0xde => sized 2 readMap
      | 0xdf => sized 4 readMap
      | 0xc1 => none
      | _ => some (ext, bs)

def read? (bs : List UInt8) : Option MsgPack := (readAt (bs.length + 1) 1024 bs).map (·.1)

end MsgPack
end Attest
