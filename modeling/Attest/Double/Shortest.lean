import Attest.Double.Basic

/-!
The shortest decimal that reads back as a given number.

A decimal reads back as the number when it lies in the interval of reals that round to it.  On each
decimal grid, from coarse to fine, only the two neighbours of the number need a test: if any point
of the grid lies in the interval, so does one of them.  Of two neighbours that both do, the nearer
is taken, and a tie is left to the caller.
-/

namespace Attest

/-- A decimal `0.d₁d₂…` style reading: the digits, and the power of ten of the first of them. -/
structure Decimal where
  digits : List Char
  exponent : Int
deriving DecidableEq, Repr

/-- Which neighbour a tie goes to. -/
inductive Tie where
  | up
  | even
deriving DecidableEq, Repr

namespace Shortest

/-- An exact positive value `value / scale` with the ends of its rounding interval on that scale. -/
structure Target where
  low : Nat
  value : Nat
  high : Nat
  scale : Nat
  closed : Bool

/-- The target of a finite number other than zero.  All is counted in quarters of the unit, since
below a power of two the neighbour is half as far. -/
def target (x : Double) : Target :=
  let (m, q) := x.parts
  let below := if m == 0x10000000000000 && -1074 < q then 1 else 2
  let e := q - 2
  let k := if e < 0 then 1 else Nat.pow 2 e.natAbs
  { low := (4 * m - below) * k
    value := 4 * m * k
    high := (4 * m + 2) * k
    scale := if e < 0 then Nat.pow 2 e.natAbs else 1
    closed := m % 2 == 0 }

/-- Whether `n` units of `num / den` lie in the interval. -/
def Target.holds (t : Target) (num den n : Nat) : Bool :=
  let here := n * num * t.scale
  if t.closed then t.low * den ≤ here && here ≤ t.high * den
  else t.low * den < here && here < t.high * den

/-- The point of the grid with unit `num / den` that stands for the target, if there is one. -/
def Target.onGrid (t : Target) (tie : Tie) (num den : Nat) : Option Nat :=
  let down := t.value * den / (num * t.scale)
  let rest := t.value * den % (num * t.scale)
  let preferUp := num * t.scale < 2 * rest ||
    (2 * rest == num * t.scale && (tie == .up || down % 2 == 1))
  let downHolds := 0 < down && t.holds num den down
  let upHolds := t.holds num den (down + 1)
  if rest == 0 then (if downHolds then some down else none)
  else if downHolds && upHolds then some (if preferUp then down + 1 else down)
  else if downHolds then some down
  else if upHolds then some (down + 1)
  else none

/-- Power of ten of the first digit of `value / scale`, between the estimates given. -/
def Target.leading (t : Target) : Nat → Int → Int
  | 0, e => e
  | n + 1, e =>
    let fits :=
      if e < 0 then t.scale ≤ t.value * Nat.pow 10 e.natAbs
      else t.scale * Nat.pow 10 e.natAbs ≤ t.value
    if fits then e else t.leading n (e - 1)

/-- Digits of a positive number without the zeros at their end. -/
def significant (n : Nat) : List Char :=
  ((Nat.toDigits 10 n).reverse.dropWhile (· == '0')).reverse

/-- Try the grids with `count` digits and more; `first` is the power of ten of the first digit. -/
def Target.search (t : Target) (tie : Tie) (first : Int) : Nat → Nat → Decimal
  | 0, _ => ⟨['0'], 0⟩
  | fuel + 1, count =>
    let unit := first - (count : Int) + 1
    let num := if unit < 0 then 1 else Nat.pow 10 unit.natAbs
    let den := if unit < 0 then Nat.pow 10 unit.natAbs else 1
    match t.onGrid tie num den with
    | some n =>
      let ds := Nat.toDigits 10 n
      ⟨significant n, unit + (ds.length : Int) - 1⟩
    | none => t.search tie first fuel (count + 1)

end Shortest

/-- The shortest decimal that reads back as the magnitude of a finite number; zero is one digit.
Seventeen digits always suffice. -/
def Double.shortest (x : Double) (tie : Tie) : Decimal :=
  if x.isZero then ⟨['0'], 0⟩
  else
    let t := Shortest.target x
    -- the first digit stands at most one place above what the binary exponent tells
    let estimate : Int := ((x.parts.1.log2 : Int) + x.parts.2) * 30103 / 100000 + 1
    t.search tie (t.leading 4 estimate) 17 1

end Attest
