import Attest.Double.Arith
import Attest.Double.Text
import Attest.Sorting
import Attest.Text.Hex
import Attest.Text.Quoted
import Attest.Text.Utf8

/-!
Data items: what every format of the wire can say.
-/

namespace Attest

/-- A data item.  A negative integer is stored as the number of steps below minus one. -/
inductive Item where
  | unsigned (n : UInt64)
  | negative (n : UInt64)
  | bytes (bs : List UInt8)
  | text (s : String)
  | array (items : List Item)
  | map (entries : List (Item × Item))
  | tag (number : UInt64) (content : Item)
  | bool (b : Bool)
  | null
  | float (x : Double)
deriving Repr, Inhabited

namespace Item

def int (i : Int64) : Item :=
  if 0 ≤ i then unsigned i.toUInt64 else negative (~~~ i.toUInt64)

/-- The order of keys: the shorter first, and then by bytes. -/
def keyOrder (a b : List UInt8) : Ordering := (compare a.length b.length).then (compare a b)

def keyLess (a b : List UInt8) : Bool := keyOrder a b == .lt

/-- A map with texts for keys, in the order of the keys. -/
def ofFields (fields : List (String × Item)) : Item :=
  map ((Sorting.sort (fun a b => keyLess (Text.utf8 a.1) (Text.utf8 b.1)) fields).map
    fun (k, v) => (text k, v))

def optional (i : Option Item) : Item := i.getD null

/-- The value of the first entry whose key is this text. -/
def lookup (name : String) : List (Item × Item) → Option Item
  | [] => none
  | (text k, v) :: rest => if k == name then some v else lookup name rest
  | _ :: rest => lookup name rest

def field? (i : Item) (name : String) : Option Item :=
  match i with
  | map entries => lookup name entries
  | _ => none

def toWord? : Item → Option UInt64
  | unsigned n => some n
  | _ => none

def toInt? : Item → Option Int64
  | unsigned n => if n.toNat < 0x8000000000000000 then some n.toInt64 else none
  | negative n => if n.toNat < 0x8000000000000000 then some (-1 - n.toInt64) else none
  | _ => none

/-- The number that an item is: integers read as floats. -/
def toDouble? : Item → Option Double
  | float x => some x
  | unsigned n => some (Double.ofNat n.toNat)
  | negative n => some (Double.one.neg.sub (Double.ofNat n.toNat))
  | _ => none

def toText? : Item → Option String
  | text s => some s
  | _ => none

def toBool? : Item → Option Bool
  | bool b => some b
  | _ => none

def toArray? : Item → Option (List Item)
  | array items => some items
  | _ => none

def isNull : Item → Bool
  | null => true
  | _ => false

def describe : Item → String
  | unsigned _ => "unsigned integer"
  | negative _ => "negative integer"
  | bytes _ => "byte string"
  | text _ => "text string"
  | array _ => "array"
  | map _ => "map"
  | tag _ _ => "tagged item"
  | bool _ => "boolean"
  | null => "null"
  | float _ => "float"

mutual

/-- The item in the notation of diagnostics. -/
def render : Item → String
  | .unsigned n => toString n
  | .negative n => s!"-{n.toNat + 1}"
  | .bytes bs => "h'" ++ Text.hex bs ++ "'"
  | .text s => Text.quote s
  | .array items => "[" ++ ", ".intercalate (renderItems items) ++ "]"
  | .map entries => "\x7b" ++ ", ".intercalate (renderEntries entries) ++ "\x7d"
  | .tag n content => s!"{n}(" ++ render content ++ ")"
  | .bool b => if b then "true" else "false"
  | .null => "null"
  | .float x => x.diagnostic

def renderItems : List Item → List String
  | [] => []
  | i :: rest => render i :: renderItems rest

def renderEntries : List (Item × Item) → List String
  | [] => []
  | (k, v) :: rest => (render k ++ ": " ++ render v) :: renderEntries rest

end

mutual

/-- Equality of items, with floats compared as numbers. -/
def same : Item → Item → Bool
  | .unsigned a, .unsigned b => a == b
  | .negative a, .negative b => a == b
  | .bytes a, .bytes b => a == b
  | .text a, .text b => a == b
  | .array a, .array b => sameItems a b
  | .map a, .map b => sameEntries a b
  | .tag m a, .tag n b => m == n && same a b
  | .bool a, .bool b => a == b
  | .null, .null => true
  | .float a, .float b => a.same b
  | _, _ => false

def sameItems : List Item → List Item → Bool
  | [], [] => true
  | a :: as, b :: bs => same a b && sameItems as bs
  | _, _ => false

def sameEntries : List (Item × Item) → List (Item × Item) → Bool
  | [], [] => true
  | (j, a) :: as, (k, b) :: bs => same j k && same a b && sameEntries as bs
  | _, _ => false

end

theorem sizeOf_lt_of_lookup {name : String} {entries : List (Item × Item)} {v : Item}
    (h : lookup name entries = some v) : sizeOf v < sizeOf entries := by
  fun_induction lookup name entries with
  | case1 => cases h
  | case2 k w rest hk =>
    cases h
    simp only [List.cons.sizeOf_spec, Prod.mk.sizeOf_spec]
    omega
  | case3 k w rest hk ih =>
    have := ih h
    simp only [List.cons.sizeOf_spec]
    omega
  | case4 e rest _ ih =>
    have := ih h
    simp only [List.cons.sizeOf_spec]
    omega

/-- A field is smaller than the map that holds it. -/
theorem sizeOf_lt_of_field? {i v : Item} {name : String} (h : i.field? name = some v) :
    sizeOf v < sizeOf i := by
  cases i with
  | map entries =>
    have := sizeOf_lt_of_lookup h
    simp only [map.sizeOf_spec]
    omega
  | _ => cases h

end Item
end Attest
