import Attest.Text.Hex

/-!
YAML documents, without tags and anchors.

A scalar keeps whether it was written plainly, because only a plain one can be a number, a truth
value or null; as a text every scalar is what it says.
-/

namespace Attest

inductive Yaml where
  | scalar (plain : Bool) (text : String)
  | seq (items : List Yaml)
  | map (entries : List (Yaml × Yaml))
deriving Inhabited, Repr

namespace Yaml

/-- The node where nothing is written. -/
def nothing : Yaml := scalar true ""

def text? : Yaml → Option String
  | scalar _ s => some s
  | _ => none

def bool? : Yaml → Option Bool
  | scalar true "true" => some true
  | scalar true "True" => some true
  | scalar true "TRUE" => some true
  | scalar true "false" => some false
  | scalar true "False" => some false
  | scalar true "FALSE" => some false
  | _ => none

def isNull : Yaml → Bool
  | scalar true s => ["", "~", "null", "Null", "NULL"].contains s
  | _ => false

def optional {α : Type} (read : Yaml → Option α) (y : Yaml) : Option (Option α) :=
  if y.isNull then some none else some <$> read y

/-- The items of a sequence, of which there are none where nothing is written. -/
def items? : Yaml → Option (List Yaml)
  | seq items => some items
  | scalar true "" => some []
  | _ => none

def entries? : Yaml → Option (List (Yaml × Yaml))
  | map entries => some entries
  | scalar true "" => some []
  | _ => none

def digit? (base : Nat) (c : Char) : Option Nat := (Text.hexValue? c).filter (· < base)

def number? (base : Nat) (cs : List Char) : Option Nat :=
  if cs.isEmpty then none
  else cs.foldlM (fun n c => (digit? base c).map (n * base + ·)) 0

/-- The number that a text says: hexadecimal, octal, binary or decimal, where a decimal number
does not begin with a zero. -/
def unsigned? (cs : List Char) : Option Nat :=
  match cs with
  | '0' :: 'x' :: ds => number? 16 ds
  | '0' :: 'o' :: ds => number? 8 ds
  | '0' :: 'b' :: ds => number? 2 ds
  | '0' :: _ :: _ => none
  | ds => number? 10 ds

def nat? (bound : Nat) : Yaml → Option Nat
  | scalar true s =>
    let n? := match s.toList with
      | '+' :: cs => unsigned? cs
      | cs => unsigned? cs
    n?.filter (· < bound)
  | _ => none

def named? {α : Type} (name : α → String) (all : List α) (y : Yaml) : Option α := do
  let s ← y.text?
  all.find? (name · == s)

/-- The entries of a mapping by the names of a record's fields.  A field that is given twice is an
error; other names are one if the record is strict. -/
def fields? (known : List String) (isStrict : Bool) (y : Yaml) : Option (List (String × Yaml)) := do
  let entries ← y.entries?
  let named ← entries.mapM fun (k, v) => do return (← k.text?, v)
  let (mine, others) := named.partition fun (n, _) => known.contains n
  if isStrict && !others.isEmpty then none
  else if (mine.map (·.1)).eraseDups.length != mine.length then none
  else some mine

def required {α : Type} (read : Yaml → Option α) (name : String) (fields : List (String × Yaml)) :
    Option α := do read (← fields.lookup name)

def defaulted {α : Type} (value : α) (read : Yaml → Option α) (name : String)
    (fields : List (String × Yaml)) : Option α :=
  match fields.lookup name with
  | none => some value
  | some y => read y

end Yaml
end Attest
