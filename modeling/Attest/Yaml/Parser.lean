import Attest.Yaml
import Attest.Yaml.Scanner

/-!
The document that tokens make.
-/

namespace Attest
namespace Yaml

def endsAt (ends : List Token) : List Token → Bool
  | [] => true
  | t :: _ => ends.contains t

mutual

/-- A node.  Blocks are allowed where `block` says so, and a list at the indentation of its key
where `loose` does.  The first number bounds the steps. -/
def node (block loose : Bool) : Nat → List Token → Option (Yaml × List Token)
  | 0, _ => none
  | n + 1, tokens => match tokens with
    | .scalar plain s :: rest => some (.scalar plain s, rest)
    | .openSeq :: rest => do
      let (items, rest) ← flowItems true n rest
      return (.seq items, rest)
    | .openMap :: rest => do
      let (entries, rest) ← flowEntries true n rest
      return (.map entries, rest)
    | .blockSeq :: rest => do
      if !block then none
      else
        let (items, rest) ← blockItems n rest
        return (.seq items, rest)
    | .blockMap :: rest => do
      if !block then none
      else
        let (entries, rest) ← blockEntries n rest
        return (.map entries, rest)
    | .entry :: _ => do
      if !loose then none
      else
        let (items, rest) ← looseItems n tokens
        return (.seq items, rest)
    | _ => none

/-- A node that may be left out before some tokens. -/
def nodeOr (block loose : Bool) (ends : List Token) :
    Nat → List Token → Option (Yaml × List Token)
  | 0, _ => none
  | n + 1, tokens =>
    if endsAt ends tokens then some (nothing, tokens) else node block loose n tokens

def blockItems : Nat → List Token → Option (List Yaml × List Token)
  | 0, _ => none
  | n + 1, tokens => match tokens with
    | .blockEnd :: rest => some ([], rest)
    | .entry :: rest => do
      let (item, rest) ← nodeOr true false [.entry, .blockEnd] n rest
      let (items, rest) ← blockItems n rest
      return (item :: items, rest)
    | _ => none

/-- The items of a list at the indentation of its key. -/
def looseItems : Nat → List Token → Option (List Yaml × List Token)
  | 0, _ => none
  | n + 1, tokens => match tokens with
    | .entry :: rest => do
      let (item, rest) ← nodeOr true false [.entry, .key, .value, .blockEnd] n rest
      let (items, rest) ← looseItems n rest
      return (item :: items, rest)
    | _ => some ([], tokens)

def blockEntries : Nat → List Token → Option (List (Yaml × Yaml) × List Token)
  | 0, _ => none
  | n + 1, tokens => match tokens with
    | .blockEnd :: rest => some ([], rest)
    | .key :: rest => do
      let (k, rest) ← nodeOr true true [.key, .value, .blockEnd] n rest
      let (v, rest) ← valueOr true [.key, .value, .blockEnd] n rest
      let (entries, rest) ← blockEntries n rest
      return ((k, v) :: entries, rest)
    | _ => none

def valueOr (block : Bool) (ends : List Token) : Nat → List Token → Option (Yaml × List Token)
  | 0, _ => none
  | n + 1, tokens => match tokens with
    | .value :: rest => nodeOr block block ends n rest
    | _ => some (nothing, tokens)

/-- The items of a list in brackets; before every item but the first stands a comma. -/
def flowItems (isFirst : Bool) : Nat → List Token → Option (List Yaml × List Token)
  | 0, _ => none
  | n + 1, tokens => match tokens with
    | .closeSeq :: rest => some ([], rest)
    | _ => do
      let tokens ← afterComma isFirst tokens
      match tokens with
      | .closeSeq :: rest => return ([], rest)
      | .key :: rest =>
        let (k, rest) ← nodeOr false false [.value, .comma, .closeSeq] n rest
        let (v, rest) ← valueOr false [.comma, .closeSeq] n rest
        let (items, rest) ← flowItems false n rest
        return (.map [(k, v)] :: items, rest)
      | tokens =>
        let (item, rest) ← node false false n tokens
        let (items, rest) ← flowItems false n rest
        return (item :: items, rest)

def flowEntries (isFirst : Bool) : Nat → List Token → Option (List (Yaml × Yaml) × List Token)
  | 0, _ => none
  | n + 1, tokens => match tokens with
    | .closeMap :: rest => some ([], rest)
    | _ => do
      let tokens ← afterComma isFirst tokens
      match tokens with
      | .closeMap :: rest => return ([], rest)
      | .key :: rest =>
        let (k, rest) ← nodeOr false false [.value, .comma, .closeMap] n rest
        let (v, rest) ← valueOr false [.comma, .closeMap] n rest
        let (entries, rest) ← flowEntries false n rest
        return ((k, v) :: entries, rest)
      | tokens =>
        let (k, rest) ← node false false n tokens
        let (entries, rest) ← flowEntries false n rest
        return ((k, nothing) :: entries, rest)

/-- What follows the comma, where one has to stand. -/
def afterComma (isFirst : Bool) : List Token → Option (List Token)
  | .comma :: rest => if isFirst then none else some rest
  | tokens => if isFirst then some tokens else none

end

/-- The only document of tokens, which may stand between markers. -/
def document (tokens : List Token) : Option Yaml := do
  let tokens := tokens.dropWhile (· == .documentEnd)
  let bound := 2 * tokens.length + 2
  let (y, rest) ← match tokens with
    | [] => some (nothing, [])
    | .documentStart :: rest => nodeOr true false [.documentStart, .documentEnd] bound rest
    | tokens => node true false bound tokens
  if (rest.dropWhile (· == .documentEnd)).isEmpty then some y else none

def parse (text : String) : Option Yaml := do document (← tokenize text)

end Yaml
end Attest
