/-!
Membership of a character in a table of code point ranges.
-/

namespace Attest
namespace Text

/-- Whether some range of the table, ends included, holds the character. -/
def inRanges (table : List (Nat × Nat)) (c : Char) : Bool :=
  table.any fun r => r.1 ≤ c.toNat && c.toNat ≤ r.2

end Text
end Attest
