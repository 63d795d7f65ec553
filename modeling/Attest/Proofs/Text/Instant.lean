import Attest.Instant
import Attest.Proofs.Text.Delimited

/-!
The text of an instant shows the instant.

The calendar repeats after four hundred years of 146097 days.  Within them a day is found from its
number by a division that corrects for the leap days, and its number from the date by counting them;
the one undoes the other.  A text then shows the parts of its date and of its time because each is
a run of digits that something else ends.
-/

namespace Attest
namespace Instant

/-- The year of a day, counted from the start of the four hundred, and the day within that year. -/
theorem dayOfYear_bounds {d y : Int} (hd : 0 ≤ d ∧ d < 146097)
    (hy : y = (d - d / 1460 + d / 36524 - d / 146096) / 365) :
    (0 ≤ y ∧ y < 400) ∧ 0 ≤ d - (365 * y + y / 4 - y / 100) ∧
      d - (365 * y + y / 4 - y / 100) < 366 := by
  -- the last day is a leap day, on which a fifth century seems to begin
  have hlast : d / 146096 = 0 ∨ d / 146096 = 1 := by omega
  have hcentury : y / 100 = d / 36524 - d / 146096 := by
    have hfew : d / 36524 = 0 ∨ d / 36524 = 1 ∨ d / 36524 = 2 ∨ d / 36524 = 3 ∨ d / 36524 = 4 := by
      omega
    omega
  omega

/-- The number of a day whose year and month are counted from March. -/
theorem dayNumber_fromMarch {era y m day month : Int} (hy : 0 ≤ y ∧ y < 400)
    (hm : 0 ≤ m ∧ m < 12) (hday : 0 ≤ day) (hmonth : month = if m < 10 then m + 3 else m - 9) :
    dayNumber (y + era * 400 + (if month ≤ 2 then 1 else 0)) month.toNat day.toNat =
      era * 146097 + y * 365 + y / 4 - y / 100 + ((153 * m + 2) / 5 + day - 1) - 719468 := by
  have hera : (y + era * 400).fdiv 400 = era := by
    rw [Int.fdiv_eq_ediv_of_nonneg _ (by decide)]
    omega
  have hfrom : ((month.toNat + 9) % 12 : Nat) = m := by
    split at hmonth <;> omega
  have hyear : (if month.toNat ≤ 2 then y + era * 400 + (if month ≤ 2 then 1 else 0) - 1
      else y + era * 400 + (if month ≤ 2 then 1 else 0)) = y + era * 400 := by
    split <;> split <;> omega
  unfold dayNumber
  dsimp only
  rw [hyear, hera, hfrom, Int.toNat_of_nonneg hday, Int.add_sub_cancel]

theorem dayNumber_dateOf (n : Int) :
    dayNumber (dateOf n).1 (dateOf n).2.1 (dateOf n).2.2 = n := by
  unfold dateOf
  dsimp only
  have he := Int.fdiv_eq_ediv_of_nonneg (n + 719468) (show (0 : Int) ≤ 146097 by decide)
  generalize (n + 719468).fdiv 146097 = e at he ⊢
  generalize hd : n + 719468 - e * 146097 = d
  generalize hy : (d - d / 1460 + d / 36524 - d / 146096) / 365 = y
  obtain ⟨hyears, hdays⟩ := dayOfYear_bounds (by omega) hy.symm
  generalize hr : d - (365 * y + y / 4 - y / 100) = r at hdays ⊢
  rw [dayNumber_fromMarch hyears (m := (5 * r + 2) / 153) (by omega) (by omega) rfl]
  omega

theorem dateOf_inj {m n : Int} (h : dateOf m = dateOf n) : m = n := by
  rw [← dayNumber_dateOf m, h, dayNumber_dateOf]

theorem toList_padded (width n : Nat) :
    (padded width n).toList = Text.zeroed (width - (Nat.toDigits 10 n).length) n :=
  String.toList_ofList

def yearSign (year : Int) : List Char :=
  if 0 ≤ year ∧ year ≤ 9999 then [] else if year < 0 then ['-'] else ['+']

theorem toList_yearText (year : Int) :
    (yearText year).toList = yearSign year ++ (padded 4 year.natAbs).toList := by
  unfold yearText yearSign
  simp only [Bool.and_eq_true, decide_eq_true_eq]
  by_cases hshort : 0 ≤ year ∧ year ≤ 9999
  · rw [if_pos hshort, if_pos hshort, List.nil_append]
  · rw [if_neg hshort, if_neg hshort, String.toList_append]
    split <;> rfl

theorem mem_yearSign {year : Int} {c : Char} (h : c ∈ yearSign year) : c = '-' ∨ c = '+' := by
  unfold yearSign at h
  split_ifs at h
  · cases h
  · exact .inl (List.mem_singleton.mp h)
  · exact .inr (List.mem_singleton.mp h)

theorem eq_of_yearSign {y y' : Int} (hsign : yearSign y = yearSign y')
    (habs : y.natAbs = y'.natAbs) : y = y' := by
  unfold yearSign at hsign
  split_ifs at hsign <;> simp at hsign <;> omega

/-- The characters of a date and of a time of day. -/
def stamp (date : Int × Nat × Nat) (t : Nat) : List Char :=
  (yearText date.1).toList ++ '-' :: ((padded 2 date.2.1).toList ++
    '-' :: ((padded 2 date.2.2).toList ++ 'T' :: ((padded 2 (t / 3600000)).toList ++
      ':' :: ((padded 2 (t / 60000 % 60)).toList ++ ':' :: ((padded 2 (t / 1000 % 60)).toList ++
        '.' :: ((padded 3 (t % 1000)).toList ++ ['Z']))))))

theorem toList_of_format {ms : Int} {s : String} (h : format ms = some s) :
    s.toList = stamp (dateOf (ms.fdiv 86400000)) (ms - ms.fdiv 86400000 * 86400000).toNat := by
  unfold format at h
  dsimp only at h
  split at h
  · exact absurd h (by simp)
  · rw [← Option.some.inj h]
    simp [stamp]

/-- What the text of an instant is made of. -/
theorem mem_stamp {date : Int × Nat × Nat} {t : Nat} {c : Char} (h : c ∈ stamp date t) :
    c.isDigit = true ∨ c ∈ ['-', '+', 'T', ':', '.', 'Z'] := by
  have hpadded : ∀ width n, c ∈ (padded width n).toList → c.isDigit = true := by
    intro width n hc
    rw [toList_padded] at hc
    exact Text.isDigit_of_mem_zeroed hc
  have hyear : c ∈ (yearText date.1).toList → c.isDigit = true ∨ c = '-' ∨ c = '+' := by
    intro hc
    rw [toList_yearText] at hc
    rcases List.mem_append.mp hc with hc | hc
    · exact .inr (mem_yearSign hc)
    · exact .inl (hpadded _ _ hc)
  simp only [stamp, List.mem_append, List.mem_cons, List.not_mem_nil, or_false] at h ⊢
  grind

theorem stamp_inj {date date' : Int × Nat × Nat} {t t' : Nat} (h : stamp date t = stamp date' t') :
    date = date' ∧ t = t' := by
  have hends : ∀ c : Char, c.isDigit = true → (!c.isDigit) = false := by simp
  have hpadded : ∀ width m n, Text.Tells (fun c => !c.isDigit) (m = n)
      (padded width m).toList (padded width n).toList := by
    intro width m n
    rw [toList_padded, toList_padded]
    exact Text.tells_zeroed hends _ _ m n
  have hsign : ∀ year, ∀ c ∈ yearSign year, c.isDigit = false := by
    intro year c hc
    rcases mem_yearSign hc with rfl | rfl <;> decide
  have hyear : ∀ y y', Text.Tells (fun c => !c.isDigit) (y = y')
      (yearText y).toList (yearText y').toList := by
    intro y y'
    rw [toList_yearText, toList_yearText, toList_padded, toList_padded]
    exact (Text.tells_signed hends (hsign y) (hsign y') _ _ _ _).imp fun ⟨hsame, habs⟩ =>
      eq_of_yearSign hsame habs
  have htells : Text.Tells (fun c => !c.isDigit) _ (stamp date t) (stamp date' t') :=
    (hyear _ _).chain rfl <| (hpadded 2 _ _).chain rfl <| (hpadded 2 _ _).chain rfl <|
      (hpadded 2 _ _).chain rfl <| (hpadded 2 _ _).chain rfl <| (hpadded 2 _ _).chain rfl <|
        (hpadded 3 _ _).close rfl []
  obtain ⟨hy, hm, hd, hhour, hminute, hsecond, hmilli⟩ := htells.of_eq h
  exact ⟨Prod.ext hy (Prod.ext hm hd), by omega⟩

theorem format_inj {a b : Int} {s : String} (ha : format a = some s) (hb : format b = some s) :
    a = b := by
  have hstamp := (toList_of_format ha).symm.trans (toList_of_format hb)
  obtain ⟨hdate, htime⟩ := stamp_inj hstamp
  have hday := dateOf_inj hdate
  have hfloor := fun n : Int => Int.fdiv_eq_ediv_of_nonneg n (show (0 : Int) ≤ 86400000 by decide)
  rw [hfloor, hfloor] at hday htime
  omega

end Instant
end Attest
