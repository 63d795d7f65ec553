import Attest.Blake3
import Attest.Text.Blank
import Attest.Text.Utf8
import Attest.Verifier

/-!
Certificates: how it was found that a value is of its type, bound to the value by a fingerprint.
-/

namespace Attest

structure Certificate where
  method : Method
  category : Category
  payload : String
  verified : Bool
deriving DecidableEq, Repr

namespace TypedValue

/-- What the fingerprint is taken of. -/
def identity (v : TypedValue) : String := v.ty.render ++ "|" ++ v.value.render

/-- The first sixteen digits of the hash of type and value. -/
def fingerprint (v : TypedValue) : String :=
  String.ofList ((Text.hex (Blake3.hash (Text.utf8 v.identity))).toList.take 16)

end TypedValue

namespace Certificate

def mark : String := "fingerprint="

def mint (method : Method) (evidence : String) (v : TypedValue) : Certificate :=
  ⟨method, v.ty.category, evidence ++ "; " ++ mark ++ v.fingerprint, true⟩

/-- The certificate of a value by definition. -/
def ofValue (v : TypedValue) : Certificate :=
  match v.ty.decide v.value with
  | .holds e => mint .runtimePredicate e v
  | .fails why => mint .runtimePredicate why.detail v
  | .undecidable why => mint .runtimePredicate why.reason v

/-- What follows the last place where a text occurs. -/
def afterLast (needle : List Char) : List Char → Option (List Char)
  | [] => none
  | c :: rest =>
    match afterLast needle rest with
    | some r => some r
    | none => if needle.isPrefixOf (c :: rest) then some ((c :: rest).drop needle.length) else none

/-- The fingerprint that a payload holds. -/
def recorded? (payload : String) : Option String :=
  (afterLast mark.toList payload.toList).map fun cs => Text.trim (String.ofList cs)

inductive Mismatch where
  | category (certificate value : Category)
  | fingerprint
deriving DecidableEq, Repr

/-- Whether a certificate is one of this very value, and why not. -/
def mismatch? (c : Certificate) (v : TypedValue) : Option Mismatch :=
  if c.category != v.ty.category then some (.category c.category v.ty.category)
  else if recorded? c.payload != some v.fingerprint then some .fingerprint
  else none

end Certificate
end Attest
