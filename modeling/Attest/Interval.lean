/-!
Intervals of an ordered type.

Each end is open, closed or missing.  The order may be partial: of two bounds that cannot be
compared, an intersection keeps the first.
-/

namespace Attest

structure Bound (α : Type) where
  value : α
  isOpen : Bool
deriving DecidableEq, Repr

/-- An interval: a missing end leaves its side unbounded. -/
structure Interval (α : Type) where
  lower : Option (Bound α)
  upper : Option (Bound α)
deriving DecidableEq, Repr

/-- Comparisons that a constant turns into an interval. -/
inductive Comparison where
  | eq
  | lt
  | le
  | gt
  | ge
deriving DecidableEq, Repr

namespace Interval

variable {α : Type}

def unbounded : Interval α := ⟨none, none⟩

/-- Both ends, which belong to the interval. -/
def closed (lo hi : α) : Interval α := ⟨some ⟨lo, false⟩, some ⟨hi, false⟩⟩

def exactly (x : α) : Interval α := closed x x

def above (lo : α) (isOpen : Bool) : Interval α := ⟨some ⟨lo, isOpen⟩, none⟩

def below (hi : α) (isOpen : Bool) : Interval α := ⟨none, some ⟨hi, isOpen⟩⟩

/-- What compares in this way with a constant. -/
def ofComparison (op : Comparison) (x : α) : Interval α :=
  match op with
  | .eq => exactly x
  | .lt => below x true
  | .le => below x false
  | .gt => above x true
  | .ge => above x false

variable [LT α] [LE α] [DecidableLT α] [DecidableLE α]

/-- Whether the ends exclude each other. -/
def isEmpty (i : Interval α) : Bool :=
  match i.lower, i.upper with
  | some l, some u => if l.isOpen || u.isOpen then u.value ≤ l.value else u.value < l.value
  | _, _ => false

/-- The stronger of two lower ends. -/
def laterLower : Option (Bound α) → Option (Bound α) → Option (Bound α)
  | none, b => b
  | a, none => a
  | some a, some b =>
    if b.value < a.value then some a
    else if a.value < b.value then some b
    else some ⟨a.value, a.isOpen || b.isOpen⟩

def earlierUpper : Option (Bound α) → Option (Bound α) → Option (Bound α)
  | none, b => b
  | a, none => a
  | some a, some b =>
    if a.value < b.value then some a
    else if b.value < a.value then some b
    else some ⟨a.value, a.isOpen || b.isOpen⟩

def intersect (i j : Interval α) : Interval α :=
  ⟨laterLower i.lower j.lower, earlierUpper i.upper j.upper⟩

/-- Whether a value lies on the right side of a lower end. -/
def meetsLower (x : α) : Option (Bound α) → Bool
  | none => true
  | some l => if l.isOpen then l.value < x else l.value ≤ x

def meetsUpper (x : α) : Option (Bound α) → Bool
  | none => true
  | some u => if u.isOpen then x < u.value else x ≤ u.value

def contains (i : Interval α) (x : α) : Bool := meetsLower x i.lower && meetsUpper x i.upper

def isBelow (i : Interval α) (x : α) : Bool :=
  match i.lower with
  | none => false
  | some l => if l.isOpen then x ≤ l.value else x < l.value

def render {α : Type} (text : α → String) (i : Interval α) : String :=
  let low := match i.lower with
    | some l => (if l.isOpen then "(" else "[") ++ text l.value
    | none => "(-inf"
  let high := match i.upper with
    | some u => text u.value ++ (if u.isOpen then ")" else "]")
    | none => "+inf)"
  low ++ ", " ++ high

end Interval
end Attest
