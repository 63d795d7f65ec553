import Attest.Text.Hex
import Attest.Text.Printable

/-!
Quoted text.  Between the quotes stand the shown characters themselves; the quote, the backslash
and every hidden character stand as escapes, so that distinct texts have distinct quotations.
-/

namespace Attest
namespace Text

def codeEscape (c : Char) : List Char :=
  '\\' :: 'u' :: '\x7b' :: Nat.toDigits 16 c.toNat ++ ['\x7d']

/-- A character as it stands between quotes of the kind `q`. -/
def escapeChar (q c : Char) : List Char :=
  if c == q then ['\\', c]
  else if c == '\\' then ['\\', '\\']
  else if c == '\n' then ['\\', 'n']
  else if c == '\r' then ['\\', 'r']
  else if c == '\t' then ['\\', 't']
  else if c.toNat == 0 then ['\\', '0']
  else if isShown c then [c]
  else codeEscape c

def quoteChars (cs : List Char) : List Char := '"' :: cs.flatMap (escapeChar '"') ++ ['"']

def quote (s : String) : String := String.ofList (quoteChars s.toList)

def quoteChar (c : Char) : String := String.ofList ('\'' :: escapeChar '\'' c ++ ['\''])

end Text
end Attest
