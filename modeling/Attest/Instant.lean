/-!
Instants in milliseconds since 1970 and their RFC 3339 texts.

Dates are those of the proleptic Gregorian calendar.  Both directions go through the number of the
day, counted from 1 January 1970.
-/

namespace Attest
namespace Instant

def isLeap (year : Int) : Bool := year % 4 == 0 && (year % 100 != 0 || year % 400 == 0)

def daysInMonth (year : Int) (month : Nat) : Nat :=
  if month == 2 then (if isLeap year then 29 else 28)
  else if month == 4 || month == 6 || month == 9 || month == 11 then 30
  else 31

/-- Days from 1 January 1970 to a date.  Years are counted from March, which puts the leap day at
the end. -/
def dayNumber (year : Int) (month day : Nat) : Int :=
  let y := if month ≤ 2 then year - 1 else year
  let era := y.fdiv 400
  let yearOfEra := y - era * 400
  let fromMarch : Int := ((month + 9) % 12 : Nat)
  let dayOfYear := (153 * fromMarch + 2) / 5 + day - 1
  era * 146097 + yearOfEra * 365 + yearOfEra / 4 - yearOfEra / 100 + dayOfYear - 719468

def dateOf (number : Int) : Int × Nat × Nat :=
  let z := number + 719468
  let era := z.fdiv 146097
  let dayOfEra := z - era * 146097
  let yearOfEra := (dayOfEra - dayOfEra / 1460 + dayOfEra / 36524 - dayOfEra / 146096) / 365
  let dayOfYear := dayOfEra - (365 * yearOfEra + yearOfEra / 4 - yearOfEra / 100)
  let fromMarch := (5 * dayOfYear + 2) / 153
  let day := dayOfYear - (153 * fromMarch + 2) / 5 + 1
  let month := if fromMarch < 10 then fromMarch + 3 else fromMarch - 9
  (yearOfEra + era * 400 + (if month ≤ 2 then 1 else 0), month.toNat, day.toNat)

def padded (width n : Nat) : String :=
  let ds := Nat.toDigits 10 n
  String.ofList (List.replicate (width - ds.length) '0' ++ ds)

/-- A year: four digits, with a sign when it has more or is negative. -/
def yearText (year : Int) : String :=
  if 0 ≤ year && year ≤ 9999 then padded 4 year.natAbs
  else (if year < 0 then "-" else "+") ++ padded 4 year.natAbs

/-- The years that have a text. -/
def firstDay : Int := dayNumber (-262143) 1 1
def lastDay : Int := dayNumber 262142 12 31

/-- The text of an instant, if its year has one. -/
def format (millis : Int) : Option String :=
  let day := millis.fdiv 86400000
  if day < firstDay || lastDay < day then none
  else
    let (y, m, d) := dateOf day
    let t := (millis - day * 86400000).toNat
    some (yearText y ++ "-" ++ padded 2 m ++ "-" ++ padded 2 d ++ "T" ++ padded 2 (t / 3600000)
      ++ ":" ++ padded 2 (t / 60000 % 60) ++ ":" ++ padded 2 (t / 1000 % 60)
      ++ "." ++ padded 3 (t % 1000) ++ "Z")

def takeDigits (n : Nat) (cs : List Char) : Option (Nat × List Char) :=
  let ds := cs.take n
  if ds.length == n && ds.all Char.isDigit then
    some (ds.foldl (fun v c => v * 10 + (c.toNat - '0'.toNat)) 0, cs.drop n)
  else none

def takeChar (p : Char → Bool) : List Char → Option (List Char)
  | [] => none
  | c :: rest => if p c then some rest else none

def takeFraction (cs : List Char) : Option (Nat × List Char) :=
  match cs with
  | '.' :: rest =>
    let ds := rest.takeWhile Char.isDigit
    if ds.isEmpty then none
    else (takeDigits 3 ((ds ++ ['0', '0']).take 3)).map fun r => (r.1, rest.dropWhile Char.isDigit)
  | _ => some (0, cs)

/-- The offset from UTC in minutes, which must end the text.  The minus may be the typographic
one. -/
def takeOffset : List Char → Option Int
  | ['Z'] => some 0
  | ['z'] => some 0
  | sign :: rest => do
    let minus := sign == '-' || sign.toNat == 0x2212
    if !(minus || sign == '+') then none
    else
      let (h, rest) ← takeDigits 2 rest
      let rest ← takeChar (· == ':') rest
      let (m, rest) ← takeDigits 2 rest
      if 23 < h || 59 < m || !rest.isEmpty then none
      else
        let minutes : Int := h * 60 + m
        return if minus then -minutes else minutes
  | [] => none

/-- The instant that an RFC 3339 text names.  Second 60 is the instant after second 59. -/
def parse (s : String) : Option Int := do
  let (year, rest) ← takeDigits 4 s.toList
  let rest ← takeChar (· == '-') rest
  let (month, rest) ← takeDigits 2 rest
  let rest ← takeChar (· == '-') rest
  let (day, rest) ← takeDigits 2 rest
  let rest ← takeChar (fun c => c == 'T' || c == 't' || c == ' ') rest
  let (hour, rest) ← takeDigits 2 rest
  let rest ← takeChar (· == ':') rest
  let (minute, rest) ← takeDigits 2 rest
  let rest ← takeChar (· == ':') rest
  let (second, rest) ← takeDigits 2 rest
  let (milli, rest) ← takeFraction rest
  let offset ← takeOffset rest
  if month < 1 || 12 < month || day < 1 || daysInMonth year month < day then none
  else if 23 < hour || 59 < minute || 60 < second then none
  else
    let minutes := (dayNumber year month day * 24 + hour) * 60 + minute - offset
    return (minutes * 60 + second) * 1000 + milli

end Instant
end Attest
