/-!
Edit distance between texts, and the candidate closest to a misspelled word.

Distances are found row by row, a row for each character of the first text.  Two rows are enough:
the one that was finished last, and a spare one, in which the next is written over what stood there
two rows before.
-/

namespace Attest
namespace Text

/-- Two rows of distances, with an entry for each beginning of a text of `n` characters. -/
structure DistanceRows (n : Nat) where
  finished : Vector Nat (n + 1)
  spare : Vector Nat (n + 1)

namespace DistanceRows

variable {n : Nat}

/-- The row of the empty text, and a spare one. -/
def first (n : Nat) : DistanceRows n := ⟨Vector.range (n + 1), Vector.replicate (n + 1) 0⟩

/-- Write the entry behind the `j`-th character, from the row above and the entry to the left. -/
def write (a : Char) (bs : Vector Char n) (above row : Vector Nat (n + 1)) (j : Nat) (h : j < n) :
    Vector Nat (n + 1) :=
  row.set (j + 1)
    (min (min (above[j + 1] + 1) (row[j] + 1)) (above[j] + if a == bs[j] then 0 else 1))

/-- Write the row behind the `i`-th character in the spare one, and let the two change places. -/
def next (bs : Vector Char n) (rows : DistanceRows n) (a : Char) (i : Nat) : DistanceRows n :=
  ⟨n.fold (fun j h row => write a bs rows.finished row j h) (rows.spare.set 0 (i + 1)),
    rows.finished⟩

def behind (bs : Vector Char n) (as : List Char) : DistanceRows n :=
  as.zipIdx.foldl (fun rows p => rows.next bs p.1 p.2) (first n)

end DistanceRows

/-- Least number of insertions, deletions and substitutions of characters. -/
def distance (s t : String) : Nat :=
  (DistanceRows.behind t.toList.toArray.toVector s.toList).finished.back

def distanceLimit (target : String) : Nat := max (target.length / 3) 2

def nearest : List (Nat × String) → Option (Nat × String)
  | [] => none
  | p :: rest => match nearest rest with
    | none => some p
    | some q => if q.1 < p.1 then some q else some p

/-- The first candidate of least distance, if it lies within the limit. -/
def closest? (target : String) (candidates : List String) : Option String :=
  let scored := candidates.map fun c => (distance target c, c)
  (nearest (scored.filter (·.1 ≤ distanceLimit target))).map (·.2)

end Text
end Attest
