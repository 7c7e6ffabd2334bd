import Mathlib.Data.List.Basic
import RequestBook.Calendar.Date

/-!
# Days are numbered without a gap

The number of a date counts days: the day after a date has the next number
(`number_next`), across the ends of months and years and through the 29ths
of February. So a number names one date at most, and what the calendar holds is
an interval of numbers (`ofNumber?_eq_some_iff`, `exists_isValid_iff`), in which
later dates stand behind earlier ones (`notAfter_iff`).

The way back from a number to a date is where something could go wrong. The
year is guessed by the mean length of a year, and `yearOfDay_eq_iff` says
that the two corrections which the definition makes are all that a guess can
need. Within the year, the months are searched from the last one down; the
first one that is not too late is the right one because the days before a
month only grow (`daysBeforeMonth_mono`).
-/

namespace RequestBook

/-- How many days a year has. -/
def yearLength (year : Int) : Nat := if isLeapYear year then 366 else 365

/-! ## Years -/

theorem isLeapYear_iff {year : Int} :
    isLeapYear year = true ↔ year % 4 = 0 ∧ (year % 100 ≠ 0 ∨ year % 400 = 0) := by
  simp [isLeapYear]

theorem yearStart_succ (year : Int) : yearStart (year + 1) = yearStart year + yearLength year := by
  rw [yearLength]
  split
  · next h =>
      rw [isLeapYear_iff] at h
      simp only [yearStart]
      omega
  · next h =>
      rw [isLeapYear_iff] at h
      simp only [yearStart]
      omega

theorem yearStart_mono {a b : Int} (h : a ≤ b) : yearStart a ≤ yearStart b := by
  simp only [yearStart]
  omega

/-- The guess is never off by more than one year. -/
theorem yearOfDay_spec (n : Int) :
    yearStart (yearOfDay n) ≤ n ∧ n < yearStart (yearOfDay n + 1) := by
  simp only [yearOfDay]
  split
  · next h => exact ⟨by simp only [yearStart]; omega, by rwa [Int.sub_add_cancel]⟩
  · next h =>
      split
      · next h' => exact ⟨h', by simp only [yearStart]; omega⟩
      · next h' => exact ⟨by omega, by omega⟩

theorem le_yearOfDay_iff {n year : Int} : year ≤ yearOfDay n ↔ yearStart year ≤ n := by
  obtain ⟨hle, hlt⟩ := yearOfDay_spec n
  constructor
  · intro h
    exact Int.le_trans (yearStart_mono h) hle
  · intro h
    by_contra hyear
    have := yearStart_mono (show yearOfDay n + 1 ≤ year by omega)
    omega

theorem yearOfDay_eq_iff {n year : Int} :
    yearOfDay n = year ↔ yearStart year ≤ n ∧ n < yearStart (year + 1) := by
  rw [← le_yearOfDay_iff, ← Int.not_le, ← le_yearOfDay_iff]
  omega

/-! ## Months -/

theorem monthLength_pos (year : Int) (month : Nat) : 1 ≤ monthLength year month := by
  rw [monthLength.eq_def]
  split
  · split <;> decide
  · decide
  · decide
  · decide
  · decide
  · decide

theorem daysBeforeMonth_one (year : Int) : daysBeforeMonth year 1 = 0 := rfl

theorem daysBeforeMonth_succ (year : Int) {month : Nat} (h : 1 ≤ month) :
    daysBeforeMonth year (month + 1) = daysBeforeMonth year month + monthLength year month := by
  obtain ⟨m, rfl⟩ : ∃ m, month = m + 1 := ⟨month - 1, by omega⟩
  rfl

theorem daysBeforeMonth_mono (year : Int) {a b : Nat} (ha : 1 ≤ a) (h : a ≤ b) :
    daysBeforeMonth year a ≤ daysBeforeMonth year b := by
  obtain ⟨k, rfl⟩ := Nat.exists_eq_add_of_le h
  induction k with
  | zero => exact Nat.le_refl _
  | succ k ih =>
      have hle := ih (Nat.le_add_right a k)
      rw [← Nat.add_assoc, daysBeforeMonth_succ year (show 1 ≤ a + k by omega)]
      omega

/-- The months fill the year. -/
theorem daysBeforeMonth_thirteen (year : Int) : daysBeforeMonth year 13 = yearLength year := by
  simp only [daysBeforeMonth, monthLength, yearLength]
  split <;> rfl

theorem monthOfDay_of_bounds {year : Int} {day month : Nat} (hfirst : 1 ≤ month)
    (hlast : month ≤ 12) (hle : daysBeforeMonth year month ≤ day)
    (hlt : day < daysBeforeMonth year (month + 1)) : monthOfDay year day = month := by
  -- searched from the last month down: the months that are too late come first
  have hmonths : List.range' 1 12 =
      List.range' 1 (month - 1) ++ (month :: List.range' (month + 1) (12 - month)) := by
    have hnext : 1 + (month - 1) = month := by omega
    have hlength : 12 = month - 1 + (12 - month + 1) := by omega
    rw [← List.range'_succ]
    conv => lhs; rw [hlength, ← List.range'_append_1, hnext]
  have hlate : (List.range' (month + 1) (12 - month)).reverse.find?
      (fun m => decide (daysBeforeMonth year m ≤ day)) = none := by
    rw [List.find?_eq_none]
    intro m hm
    rw [List.mem_reverse, List.mem_range'_1] at hm
    have := daysBeforeMonth_mono year (by omega : 1 ≤ month + 1) hm.1
    rw [decide_eq_true_eq]
    omega
  rw [monthOfDay, hmonths, List.reverse_append, List.reverse_cons, List.append_assoc,
    List.find?_append, hlate, Option.none_or, List.singleton_append, List.find?_cons,
    decide_eq_true hle]
  rfl

theorem exists_month {year : Int} {day : Nat} (h : day < yearLength year) :
    ∃ month, 1 ≤ month ∧ month ≤ 12 ∧ daysBeforeMonth year month ≤ day ∧
      day < daysBeforeMonth year (month + 1) := by
  have hupto : ∀ k, day < daysBeforeMonth year (k + 1) → ∃ month, 1 ≤ month ∧ month ≤ k ∧
      daysBeforeMonth year month ≤ day ∧ day < daysBeforeMonth year (month + 1) := by
    intro k
    induction k with
    | zero =>
        intro hk
        exact absurd hk (Nat.not_lt_zero _)
    | succ k ih =>
        intro hk
        by_cases hle : daysBeforeMonth year (k + 1) ≤ day
        · exact ⟨k + 1, by omega, by omega, hle, hk⟩
        · obtain ⟨month, hfirst, hlast, hbounds⟩ := ih (by omega)
          exact ⟨month, hfirst, by omega, hbounds⟩
  rw [← daysBeforeMonth_thirteen] at h
  exact hupto 12 h

/-! ## Dates -/

namespace Date

/-- Whether there is such a day in its year, whichever year that is. -/
def IsProper (d : Date) : Prop :=
  1 ≤ d.month ∧ d.month ≤ 12 ∧ 1 ≤ d.day ∧ d.day ≤ monthLength d.year d.month

/-- The first date of the calendar. -/
def first : Date := ⟨firstYear, 1, 1⟩

/-- The last date of the calendar. -/
def last : Date := ⟨lastYear, 12, 31⟩

/-- The day after a date. -/
def next (d : Date) : Date :=
  if d.day < monthLength d.year d.month then { d with day := d.day + 1 }
  else if d.month < 12 then { d with month := d.month + 1, day := 1 }
  else ⟨d.year + 1, 1, 1⟩

theorem isValid_iff {d : Date} :
    d.IsValid ↔ (firstYear ≤ d.year ∧ d.year ≤ lastYear) ∧ d.IsProper := by
  rw [IsValid, IsProper, and_assoc]

theorem eq_of_parts {a b : Date} (hyear : a.year = b.year) (hmonth : a.month = b.month)
    (hday : a.day = b.day) : a = b := by
  cases a
  cases b
  subst hyear hmonth hday
  rfl

/-- A day of a month lies in its year. -/
theorem IsProper.dayOfYear_le {d : Date} (h : d.IsProper) :
    daysBeforeMonth d.year d.month + d.day ≤ daysBeforeMonth d.year (d.month + 1) ∧
      daysBeforeMonth d.year (d.month + 1) ≤ yearLength d.year := by
  obtain ⟨hfirst, hlast, -, hday⟩ := h
  have hsucc := daysBeforeMonth_succ d.year hfirst
  have hyear := daysBeforeMonth_mono d.year (by omega : 1 ≤ d.month + 1)
    (by omega : d.month + 1 ≤ 13)
  rw [daysBeforeMonth_thirteen] at hyear
  omega

theorem number_next {d : Date} (h : d.IsProper) : d.next.number = d.number + 1 := by
  rw [next]
  split
  · simp only [number]
    omega
  · next hfull =>
      obtain ⟨hfirst, hlast, -, hday⟩ := h
      have hsucc := daysBeforeMonth_succ d.year hfirst
      split
      · simp only [number]
        omega
      · next hdec =>
          have hmonth : d.month = 12 := by omega
          rw [hmonth] at hsucc hday hfull
          rw [daysBeforeMonth_thirteen] at hsucc
          simp only [number, hmonth, daysBeforeMonth_one, yearStart_succ]
          omega

theorem isProper_next {d : Date} (h : d.IsProper) : d.next.IsProper := by
  obtain ⟨hfirst, hlast, hone, hday⟩ := h
  rw [next]
  split
  · next hroom => exact ⟨hfirst, hlast, by simp, hroom⟩
  · split
    · next hdec => exact ⟨by simp, hdec, Nat.le_refl 1, monthLength_pos _ _⟩
    · exact ⟨Nat.le_refl 1, (by decide : 1 ≤ 12), Nat.le_refl 1, monthLength_pos _ _⟩

theorem ofNumber_number {d : Date} (h : d.IsProper) : ofNumber d.number = d := by
  obtain ⟨hmonth, hyear⟩ := h.dayOfYear_le
  obtain ⟨hfirst, hlast, hone, hday⟩ := h
  have hy : yearOfDay d.number = d.year := by
    rw [yearOfDay_eq_iff, yearStart_succ, number]
    omega
  have hrest : (d.number - yearStart d.year).toNat =
      daysBeforeMonth d.year d.month + d.day - 1 := by
    rw [number]
    omega
  have hm : monthOfDay d.year (daysBeforeMonth d.year d.month + d.day - 1) = d.month :=
    monthOfDay_of_bounds hfirst hlast (by omega) (by omega)
  have hd : daysBeforeMonth d.year d.month + d.day - 1 - daysBeforeMonth d.year d.month + 1 =
      d.day := by omega
  rw [ofNumber, hy, hrest, hm, hd]

theorem number_ofNumber (n : Int) : (ofNumber n).IsProper ∧ (ofNumber n).number = n := by
  obtain ⟨hle, hlt⟩ := yearOfDay_spec n
  rw [yearStart_succ] at hlt
  obtain ⟨month, hfirst, hlast, hbefore, hafter⟩ :=
    exists_month (show (n - yearStart (yearOfDay n)).toNat < yearLength (yearOfDay n) by omega)
  have hsucc := daysBeforeMonth_succ (yearOfDay n) hfirst
  have hm := monthOfDay_of_bounds hfirst hlast hbefore hafter
  rw [ofNumber]
  simp only [hm]
  refine ⟨⟨hfirst, hlast, by simp, ?_⟩, ?_⟩
  · simp only []
    omega
  · simp only [number]
    omega

theorem ofNumber?_eq_some_iff {n : Int} {d : Date} :
    ofNumber? n = some d ↔ d.IsValid ∧ d.number = n := by
  rw [isValid_iff, ofNumber?]
  simp only [Option.ite_none_right_eq_some, Option.some.injEq]
  constructor
  · rintro ⟨hyear, rfl⟩
    exact ⟨⟨hyear, (number_ofNumber n).1⟩, (number_ofNumber n).2⟩
  · rintro ⟨⟨hyear, hproper⟩, rfl⟩
    rw [ofNumber_number hproper]
    exact ⟨hyear, rfl⟩

theorem eq_of_number {a b : Date} (ha : a.IsValid) (hb : b.IsValid) (h : a.number = b.number) :
    a = b := by
  rw [← ofNumber_number (isValid_iff.mp ha).2, h, ofNumber_number (isValid_iff.mp hb).2]

/-! ## The order of dates -/

/-- Whether a date is another or lies before it. -/
def NotAfter (a b : Date) : Prop :=
  a.year < b.year ∨
    (a.year = b.year ∧ (a.month < b.month ∨ (a.month = b.month ∧ a.day ≤ b.day)))

theorem NotAfter.year_le {a b : Date} (h : a.NotAfter b) : a.year ≤ b.year := by
  rw [NotAfter] at h
  omega

theorem number_lt_of_year {a b : Date} (ha : a.IsProper) (hb : b.IsProper)
    (h : a.year < b.year) : a.number < b.number := by
  have hyears := yearStart_mono (show a.year + 1 ≤ b.year from h)
  have hyear := ha.dayOfYear_le
  have hone := hb.2.2.1
  rw [yearStart_succ] at hyears
  rw [number, number]
  omega

theorem number_lt_of_month {a b : Date} (ha : a.IsProper) (hb : b.IsProper)
    (hyear : a.year = b.year) (h : a.month < b.month) : a.number < b.number := by
  have hmonths := daysBeforeMonth_mono a.year (by omega : 1 ≤ a.month + 1) h
  have hmonth := ha.dayOfYear_le.1
  have hone := hb.2.2.1
  rw [number, number, ← hyear]
  omega

/-- Later dates have greater numbers. -/
theorem notAfter_iff {a b : Date} (ha : a.IsProper) (hb : b.IsProper) :
    a.NotAfter b ↔ a.number ≤ b.number := by
  have hsame : a.year = b.year → a.month = b.month →
      (a.number ≤ b.number ↔ a.day ≤ b.day) := by
    intro hyear hmonth
    rw [number, number, hyear, hmonth]
    omega
  rcases Int.lt_trichotomy a.year b.year with hyear | hyear | hyear
  · exact iff_of_true (.inl hyear) (Int.le_of_lt (number_lt_of_year ha hb hyear))
  · rcases Nat.lt_trichotomy a.month b.month with hmonth | hmonth | hmonth
    · exact iff_of_true (.inr ⟨hyear, .inl hmonth⟩)
        (Int.le_of_lt (number_lt_of_month ha hb hyear hmonth))
    · rw [hsame hyear hmonth, NotAfter]
      omega
    · have := number_lt_of_month hb ha hyear.symm hmonth
      rw [NotAfter]
      omega
  · have := number_lt_of_year hb ha hyear
    rw [NotAfter]
    omega

/-! ## The ends of the calendar -/

theorem number_first : first.number = yearStart firstYear := by
  simp [first, number, daysBeforeMonth_one]

theorem number_last : last.number = yearStart (lastYear + 1) - 1 := by
  decide

/-- The calendar is an interval of numbers. -/
theorem exists_isValid_iff {n : Int} :
    (∃ d : Date, d.IsValid ∧ d.number = n) ↔ first.number ≤ n ∧ n ≤ last.number := by
  rw [number_first, number_last]
  constructor
  · rintro ⟨d, hd, rfl⟩
    obtain ⟨⟨hfirst, hlast⟩, hproper⟩ := isValid_iff.mp hd
    have hyear := hproper.dayOfYear_le
    have hlow := yearStart_mono hfirst
    have hhigh := yearStart_mono (show d.year + 1 ≤ lastYear + 1 by omega)
    have hone := hproper.2.2.1
    rw [yearStart_succ d.year] at hhigh
    rw [number]
    omega
  · rintro ⟨hfirst, hlast⟩
    obtain ⟨hproper, hnumber⟩ := number_ofNumber n
    have hlow : firstYear ≤ yearOfDay n := le_yearOfDay_iff.mpr hfirst
    have hhigh : ¬ lastYear + 1 ≤ yearOfDay n := fun h => by
      have := le_yearOfDay_iff.mp h
      omega
    exact ⟨ofNumber n, isValid_iff.mpr ⟨⟨hlow, Int.lt_add_one_iff.mp (Int.not_le.mp hhigh)⟩,
      hproper⟩, hnumber⟩

end Date

end RequestBook
