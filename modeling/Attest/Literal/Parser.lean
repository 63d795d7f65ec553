import Attest.Literal
import Attest.Syntax

/-!
Literals in the source: constants, vectors in brackets and records in braces.  The items of a
vector or record may carry signs.
-/

namespace Attest
namespace Literal

def ofToken? : TokenKind → Option Literal
  | .nat n => some (.nat n)
  | .float x => some (.float x)
  | .text s => some (.text s)
  | .bool b => some (.bool b)
  | .null => some .null
  | _ => none

def signError (t : Token) (note : String) : ParseError :=
  ⟨t.position, ["number"], t.kind.describe, some note⟩

/-- A literal with this many levels left of the limit. -/
def parserAt (limit : Nat) : Nat → Parser Literal
  | 0 => Parser.tooDeep limit
  | d + 1 => do
    let t ← Parser.advance
    match ofToken? t.kind with
    | some l => return l
    | none => match t.kind with
      | .symbol .minus =>
        match (← parserAt limit d).negate? with
        | some l => return l
        | none => Parser.fail (signError t "only numbers can be negated")
      | .symbol .plus =>
        let l ← parserAt limit d
        if l.isNumber then return l
        else Parser.fail (signError t "only numbers can take a sign")
      | .symbol .lbracket =>
        if ← Parser.takeSymbol .rbracket then return .vector []
        else
          let items ← Parser.sepBy .comma (parserAt limit d)
          let _ ← Parser.symbol .rbracket
          return .vector items
      | .symbol .lbrace =>
        let fields ← Parser.sepBy .comma do
          let (name, _) ← Parser.ident
          let _ ← Parser.symbol .colon
          let value ← parserAt limit d
          return (name, value)
        let _ ← Parser.symbol .rbrace
        return .record fields
      | kind => Parser.fail ⟨t.position, ["literal"], kind.describe, none⟩

end Literal
end Attest
