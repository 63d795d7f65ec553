import Attest.Ty
import Attest.Syntax

/-!
Types in the source.
-/

namespace Attest
namespace Ty

/-- A bound of a float type: a number with or without a sign. -/
def boundParser : Parser Double := do
  let negative ← Parser.takeSymbol .minus
  if !negative then
    let _ ← Parser.takeSymbol .plus
  let x ← Parser.expect "number" fun t =>
    match t.kind with
    | .nat n => some (Double.ofNat n.toNat)
    | .float x => some x
    | _ => none
  return if negative then x.neg else x

def pairParser {α β : Type} (first : Parser α) (second : Parser β) : Parser (α × β) := do
  let _ ← Parser.symbol .lparen
  let a ← first
  let _ ← Parser.symbol .comma
  let b ← second
  let _ ← Parser.symbol .rparen
  return (a, b)

/-- A type with this many levels left of the limit. -/
def parserAt (limit : Nat) : Nat → Parser Ty
  | 0 => Parser.tooDeep limit
  | d + 1 => do
    let category ← Parser.expect "type" fun t =>
      match t.kind with
      | .typeName c => some c
      | _ => none
    match category with
    | .nat => return nat
    | .int => return int
    | .string => return string
    | .bool => return bool
    | .float => return float
    | .uuid => return uuid
    | .timestamp => return timestamp
    | .nonEmptyString => return nonEmptyString
    | .confidence => return confidence
    | .promptScores => return promptScores
    | .boundedNat =>
      let (lo, hi) ← pairParser Parser.natural Parser.natural
      return boundedNat lo hi
    | .boundedFloat =>
      let (lo, hi) ← pairParser boundParser boundParser
      return boundedFloat lo hi
    | .vector =>
      let (element, size) ← pairParser (parserAt limit d) Parser.natural
      return vector element size

def wholeParser : Parser Ty := do
  let t ← parserAt defaultDepth defaultDepth
  if (← Parser.stream).isAtEnd then return t else Parser.unexpected ["end of type"]

def parse (source : String) : Except SyntaxError Ty := wholeParser.parseText source

end Ty
end Attest
