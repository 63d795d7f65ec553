import Attest.Item.Cbor
import Attest.Json.Writer
import Attest.NormalForm
import Attest.Statement
import Attest.Verifier

/-!
Reports: what the library finds out, as documents for other tools.

Counts are numbers.  Numbers of a user are texts, because a reader of documents may round a number,
and a float is told by its bits.
-/

namespace Attest

/-- How a value is told. -/
class Report (α : Type) where
  report : α → Json

namespace Report

section
variable {α ε : Type}

def member [Report α] (name : String) (a : α) : String × Json := (name, report a)

@[reducible]
def via (f : α → String) : Report α := ⟨fun a => .text (f a)⟩

instance : Report Json := ⟨id⟩
instance : Report String := ⟨.text⟩
instance : Report Bool := ⟨.bool⟩
instance : Report Nat := ⟨fun n => .number (.nat n.toUInt64)⟩
instance : Report UInt64 := via toString
instance : Report Int64 := via toString
instance : Report Int := via toString

instance : Report (List UInt8) := via Text.hex

/-- A float is told by the digits of its bits; nothing but its being none tells a NaN. -/
instance : Report Double :=
  via fun x => if x.isNaN then "nan" else Text.hex (Cbor.bigEndian 8 x.bits.toNat)

instance [Report α] : Report (Option α) := ⟨fun a => (a.map report).getD .null⟩
instance (priority := low) [Report α] : Report (List α) := ⟨fun as => .array (as.map report)⟩
instance [Report α] [Report ε] : Report (Except ε α) := ⟨fun
  | .ok a => report a
  | .error e => report e⟩

end

def problem (kind message : String) : Json :=
  .object [member "error" kind, member "message" message]

instance : Report Keyword := via Keyword.name
instance : Report Category := via Category.name
instance : Report NormalForm := via NormalForm.name
instance : Report Method := via Method.name
instance : Report SortDirection := via SortDirection.name
instance : Report StatementKind := via StatementKind.name
instance : Report Ty := via Ty.render

end Report
end Attest
