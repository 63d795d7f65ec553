import Attest.MsgPack

/-!
Data items in packed form: a mark, the length of the payload, and the payload.

An item is a map of one entry from the name of its kind to its content; null is the bare name.
-/

namespace Attest
namespace Packed

def magic : List UInt8 := Text.utf8 "PQB1"

def littleEndian4 (n : Nat) : List UInt8 := (Cbor.bigEndian 4 n).reverse

mutual

def payload : Item → List UInt8
  | .unsigned n => MsgPack.writeVariant "Unsigned" (MsgPack.writeNat n.toNat)
  | .negative n => MsgPack.writeVariant "Negative" (MsgPack.writeNat n.toNat)
  | .bytes bs => MsgPack.writeVariant "Bytes"
      (MsgPack.arrayHead bs.length ++ bs.flatMap fun b => MsgPack.writeNat b.toNat)
  | .text s => MsgPack.writeVariant "Text" (MsgPack.writeText (Text.utf8 s))
  | .array items => MsgPack.writeVariant "Array"
      (MsgPack.arrayHead items.length ++ payloadItems items)
  | .map entries => MsgPack.writeVariant "Map"
      (MsgPack.arrayHead entries.length ++ payloadEntries entries)
  | .tag n content => MsgPack.writeVariant "Tag"
      (MsgPack.arrayHead 2 ++ MsgPack.writeNat n.toNat ++ payload content)
  | .bool b => MsgPack.writeVariant "Bool" [if b then 0xc3 else 0xc2]
  | .null => MsgPack.writeText (Text.utf8 "Null")
  | .float x => MsgPack.writeVariant "Float" (MsgPack.writeFloat x)

def payloadItems : List Item → List UInt8
  | [] => []
  | i :: rest => payload i ++ payloadItems rest

def payloadEntries : List (Item × Item) → List UInt8
  | [] => []
  | (k, v) :: rest => MsgPack.arrayHead 2 ++ payload k ++ payload v ++ payloadEntries rest

end

def kinds : List String :=
  ["Unsigned", "Negative", "Bytes", "Text", "Array", "Map", "Tag", "Bool", "Null", "Float"]

/-- The kind that a key names, by its name or by its place. -/
def kindOf? : MsgPack → Option String
  | .text bs => (Text.ofUtf8? bs).bind fun s => kinds.find? (· == s)
  | .binary bs => (Text.ofUtf8? bs).bind fun s => kinds.find? (· == s)
  | .nat n => kinds[n]?
  | _ => none

def word? : MsgPack → Option UInt64
  | .nat n => some n.toUInt64
  | _ => none

def byte? : MsgPack → Option UInt8
  | .nat n => if n < 256 then some n.toUInt8 else none
  | _ => none

def text? : MsgPack → Option String
  | .text bs => Text.ofUtf8? bs
  | .binary bs => Text.ofUtf8? bs
  | _ => none

def float? : MsgPack → Option Double
  | .float x => some x
  | .nat n => some (Double.ofNat n)
  | .int i => some (Double.ofInt i)
  | _ => none

def bytes? : MsgPack → Option (List UInt8)
  | .array items => items.mapM byte?
  | _ => none

def leaf? (kind : String) (content : MsgPack) : Option Item :=
  match kind with
  | "Unsigned" => Item.unsigned <$> word? content
  | "Negative" => Item.negative <$> word? content
  | "Bytes" => Item.bytes <$> bytes? content
  | "Text" => Item.text <$> text? content
  | "Bool" => match content with
    | .bool b => some (.bool b)
    | _ => none
  | "Null" => match content with
    | .nil => some .null
    | _ => none
  | "Float" => Item.float <$> float? content
  | _ => none

mutual

def ofPayload? : MsgPack → Option Item
  | .map [(key, content)] => match kindOf? key with
    | some "Array" => match content with
      | .array items => Item.array <$> ofPayloads? items
      | _ => none
    | some "Map" => match content with
      | .array items => Item.map <$> ofPairs? items
      | _ => none
    | some "Tag" => match content with
      | .array [number, content] => do
        let n ← word? number
        let i ← ofPayload? content
        return .tag n i
      | _ => none
    | some kind => leaf? kind content
    | none => none
  | .map _ => none
  | key => match kindOf? key with
    | some "Null" => some .null
    | _ => none

def ofPayloads? : List MsgPack → Option (List Item)
  | [] => some []
  | p :: rest => do
    let i ← ofPayload? p
    return i :: (← ofPayloads? rest)

def ofPairs? : List MsgPack → Option (List (Item × Item))
  | [] => some []
  | .array [k, v] :: rest => do
    let k ← ofPayload? k
    let v ← ofPayload? v
    return (k, v) :: (← ofPairs? rest)
  | _ :: _ => none

end

def encode (i : Item) : List UInt8 :=
  let body := payload i
  magic ++ littleEndian4 body.length ++ body

def decode (bs : List UInt8) : Except WireError Item :=
  if bs.length < 8 then .error (.truncated bs.length (8 - bs.length))
  else if bs.take 4 != magic then .error (.badMagic (bs.take 4))
  else
    let size := Cbor.ofBigEndian ((bs.drop 4).take 4).reverse
    let body := bs.drop 8
    if body.length < size then .error (.malformedLength 4 (.shortBody size body.length))
    else if size < body.length then .error (.trailing (8 + size) (body.length - size))
    else match (MsgPack.read? body).bind ofPayload? with
      | some i => .ok i
      | none => .error .packed

end Packed
end Attest
