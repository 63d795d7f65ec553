import Attest.Certificate
import Attest.Format
import Attest.NormalForm
import Attest.Provenance
import Attest.Syntax
import Attest.Tag

/-!
What can be wrong with a text or bytes that should hold a value or a node.
-/

namespace Attest

inductive LengthFault where
  | indefinite
  | reserved (info : Nat)
  | tooLong (size remaining : Nat)
  | tooDeep (limit : Nat)
  | strayBreak
  | shortBody (size present : Nat)
deriving DecidableEq, Repr

def LengthFault.reason : LengthFault → String
  | indefinite => "indefinite-length items are not supported"
  | reserved info => s!"reserved additional information {info}"
  | tooLong size remaining => s!"length {size} exceeds the {remaining} remaining bytes"
  | tooDeep limit => s!"nesting exceeds {limit} levels"
  | strayBreak => "unexpected break"
  | shortBody size present => s!"length prefix {size} exceeds the {present} bytes present"

inductive TagFault where
  | notMap (found : String)
  | reservedField (name : String)
  | notValue
deriving DecidableEq, Repr

def TagFault.reason : TagFault → String
  | notMap found => "expected map, found " ++ found
  | reservedField n => "field '" ++ n ++ "' is reserved"
  | notValue => "a proof blob is not a value"

inductive FieldFault where
  | missing
  | expected (what : String)
  | expectedFor (what : String) (ty : Ty) (found : String)
  | unknownValue (text : String)
  | unknownTag (name : String)
  | unknownCategory (name : String)
  | unknownMethod (name : String)
  | unknownNormalForm (name : String)
  | type (e : SyntaxError)
  | uuid (e : UuidError)
  | scores (e : ScoresError)
  | provenance (e : ProvenanceError)
  | certificate (e : Certificate.Mismatch)
  | needsProvenance (kind : StatementKind)
  | strayProvenance (kind : StatementKind)
deriving Repr

def FieldFault.reason : FieldFault → String
  | missing => "missing"
  | expected what => "expected " ++ what
  | expectedFor what ty found =>
    "expected " ++ what ++ " for " ++ ty.render ++ ", found " ++ found
  | unknownValue s => "unknown value '" ++ s ++ "'"
  | unknownTag s => "unknown category '" ++ s ++ "'"
  | unknownCategory s => Category.unknown s
  | unknownMethod s => Method.unknown s
  | unknownNormalForm s => NormalForm.unknown s
  | type e => e.message
  | uuid e => e.message
  | scores e => e.message
  | provenance e => e.message
  | certificate (.category c v) => s!"proof is for category {c}, value has category {v}"
  | certificate .fingerprint => "fingerprint does not match the decoded value"
  | needsProvenance k => s!"{k} node requires provenance"
  | strayProvenance k => s!"{k} node carries no provenance"

inductive WireError where
  | unknownTag (number : UInt64)
  | invalidTag (number : UInt64) (why : TagFault)
  | truncated (offset needed : Nat)
  | malformedLength (offset : Nat) (why : LengthFault)
  | unexpected (expected found : String)
  | invalidField (field : String) (why : FieldFault)
  | refinement (e : RefinementError)
  | json
  | badMagic (bytes : List UInt8)
  | packed
  | trailing (offset count : Nat)
  | unsupported (format : Format) (what : String)
deriving Repr

namespace WireError

/-- What is wrong; a text for malformed documents is not given. -/
def message : WireError → String
  | unknownTag n => "unknown tag " ++ Tag.hexText n
  | invalidTag n why => "invalid content for tag " ++ Tag.hexText n ++ ": " ++ why.reason
  | truncated offset needed => s!"truncated input at offset {offset}: need {needed} more bytes"
  | malformedLength offset why => s!"malformed length at offset {offset}: " ++ why.reason
  | unexpected expected found => "expected " ++ expected ++ ", found " ++ found
  | invalidField f why => "invalid field '" ++ f ++ "': " ++ why.reason
  | refinement e => "decoded value rejected: " ++ e.message
  | json => "JSON error"
  | badMagic bs =>
    "packed form error: bad magic [" ++ ", ".intercalate (bs.map fun b => Text.hex [b]) ++ "]"
  | packed => "packed form error"
  | trailing offset count => s!"{count} trailing bytes after item at offset {offset}"
  | unsupported f what => s!"{f} does not support " ++ what

def category : WireError → String
  | unknownTag _ => "tag"
  | invalidTag _ _ => "tag"
  | truncated _ _ => "framing"
  | malformedLength _ _ => "framing"
  | trailing _ _ => "framing"
  | unexpected _ _ => "structure"
  | invalidField _ _ => "structure"
  | refinement _ => "refinement"
  | json => "json"
  | badMagic _ => "packed"
  | packed => "packed"
  | unsupported _ _ => "unsupported"

end WireError
end Attest
