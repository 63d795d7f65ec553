import Attest.Text.Ranges

/-!
White space, by the Unicode property, and the texts that consist of it.
-/

namespace Attest
namespace Text

/-- Ranges of the White_Space property. -/
def whiteSpaceRanges : List (Nat × Nat) := [
   (0x9, 0xd), (0x20, 0x20), (0x85, 0x85), (0xa0, 0xa0), (0x1680, 0x1680), (0x2000, 0x200a),
   (0x2028, 0x2029), (0x202f, 0x202f), (0x205f, 0x205f), (0x3000, 0x3000)]

def isSpace (c : Char) : Bool := inRanges whiteSpaceRanges c

/-- The characters between the first and the last that are not white space. -/
def trimChars (cs : List Char) : List Char :=
  ((cs.dropWhile isSpace).reverse.dropWhile isSpace).reverse

def trim (s : String) : String := String.ofList (trimChars s.toList)

/-- A text that is empty or all white space. -/
def isBlank (s : String) : Bool := s.toList.all isSpace

end Text
end Attest
