import Attest.Item.Cbor
import Attest.Item.Document
import Attest.Item.Packed
import Attest.Node.Sql
import Attest.Wire.Node

/-!
Values and nodes in every format.
-/

namespace Attest

inductive Encoded where
  | binary (bs : List UInt8)
  | text (s : String)
  | sql (s : String) (warnings : List String)
deriving DecidableEq, Repr

namespace Encoded

def size : Encoded → Nat
  | binary bs => bs.length
  | text s => s.utf8ByteSize
  | sql s _ => s.utf8ByteSize

def warnings : Encoded → List String
  | sql _ ws => ws
  | _ => []

/-- What can be printed: digits for bytes, or else the text. -/
def display : Encoded → String
  | binary bs => Text.hex bs
  | text s => s
  | sql s _ => s

def bytes : Encoded → List UInt8
  | binary bs => bs
  | text s => Text.utf8 s
  | sql s _ => Text.utf8 s

end Encoded

namespace Format

def write (f : Format) (i : Item) : Except WireError Encoded :=
  match f with
  | cbor => .ok (.binary (Cbor.encode i))
  | packed => .ok (.binary (Packed.encode i))
  | json => Encoded.text <$> i.toDocument
  | sql => .error (.unsupported .sql "generic data items")

def read (f : Format) (bs : List UInt8) : Except WireError Item :=
  match f with
  | cbor => Cbor.decode bs
  | packed => Packed.decode bs
  | json => match Text.ofUtf8? bs with
    | some s => Item.ofDocument s
    | none => .error .json
  | sql => .error (.unsupported .sql "decoding")

def writeValue (f : Format) (v : TypedValue) (c : Certificate) : Except WireError Encoded :=
  if f == sql then .error (.unsupported .sql "standalone values") else f.write (v.toItem c)

def readValue (f : Format) (bs : List UInt8) : Except WireError (TypedValue × Certificate) := do
  (← f.read bs).toTypedValue

def writeNode (f : Format) (n : Node) : Except WireError Encoded :=
  if f == sql then .ok (.sql (Sql.text n) (Sql.warnings n)) else f.write n.toItem

def readNode (f : Format) (bs : List UInt8) : Except WireError Node := do (← f.read bs).toNode

end Format
end Attest
