import RequestBook.Proofs.Days
import RequestBook.Value

/-!
# Shifts are exact

A timestamp is moved by way of a product with a sign, a count of seconds in
64 bits, a span with a limit of its own and a carry from the time of day
into the date; or by way of a count of months in 32 bits. Each of these may
refuse, and none of them refuses too early: the calendar is shorter than the
longest span and has fewer months than 32 bits count, so whatever leaves one
of the limits on the way leaves the calendar too (`not_inCalendar_of_far`).

What is left is the carry. A moment outside leap seconds has a place on the
line of nanoseconds, no two of them have the same (`IsAt.unique`), and
carrying puts together the one at the place that is asked for
(`carried?_isAt`). Months are counted from year zero on, and the day is cut
to the length of the month that is reached.
-/

namespace RequestBook

/-- The length of a unit in nanoseconds, if it has one length. -/
def TimeUnit.nanos? : TimeUnit → Option Int
  | millis => some 1000000
  | seconds => some 1000000000
  | minutes => some 60000000000
  | hours => some 3600000000000
  | days => some 86400000000000
  | weeks => some 604800000000000
  | months => none
  | years => none

/-- How many months a unit has, if it is counted in months. -/
def TimeUnit.months? : TimeUnit → Option Int
  | months => some 1
  | years => some 12
  | _ => none

/-- The way in which an operator moves timestamps: forward or back. -/
def Operator.sign? : Operator → Option Int
  | add => some 1
  | sub => some (-1)
  | _ => none

/-- The length of a span in nanoseconds. -/
def Span.length (span : Span) : Int := span.seconds * nanosPerSecond + span.nanos

/-- A span that is to have a length has it, or no span is as long as that. -/
def Span.Measures (span? : Option Span) (n : Int) : Prop :=
  (∃ span, span? = some span ∧ span.length = n) ∨
    (span? = none ∧ Span.longestSeconds * nanosPerSecond < n.natAbs)

namespace Timestamp

/-- The first moment of the calendar. -/
def earliest : Timestamp := midnight Date.first

/-- The last moment of the calendar. -/
def latest : Timestamp := ⟨Date.last, 23, 59, 59, 999999999⟩

/-- Whether the calendar reaches as far as an instant. -/
def InCalendar (n : Int) : Prop := earliest.instant ≤ n ∧ n ≤ latest.instant

/-- The moment, outside leap seconds, that is at an instant. -/
structure IsAt (t : Timestamp) (n : Int) : Prop where
  valid : t.IsValid
  plain : t.nano < nanosPerSecond
  place : t.instant = n

/-- A move that the calendar reaches far enough for comes to a timestamp that
is there, and any other is an overflow. -/
def Lands (result : Except EvalError Timestamp) (reaches : Prop) (there : Timestamp → Prop) :
    Prop :=
  (reaches ∧ ∃ u, result = .ok u ∧ there u) ∨ (¬ reaches ∧ result = .error .overflow)

/-- What a move comes to, said of the value: as there is one timestamp at most
that is there, the value is right, is one where it can be and is an overflow
elsewhere. -/
theorem Lands.map_timestamp {result : Except EvalError Timestamp} {reaches : Prop}
    {there : Timestamp → Prop} (h : Lands result reaches there)
    (hunique : ∀ {u v}, there u → there v → u = v) (hreach : ∀ {u}, there u → reaches) :
    (∀ u, result.map Value.timestamp = .ok (.timestamp u) ↔ there u) ∧
      (reaches ↔ ∃ u, result.map Value.timestamp = .ok (.timestamp u)) ∧
      (¬ reaches ↔ result.map Value.timestamp = .error .overflow) := by
  rcases h with ⟨hin, u, rfl, hu⟩ | ⟨hout, rfl⟩
  · refine ⟨fun v => ⟨?_, fun hv => ?_⟩, ⟨fun _ => ⟨u, rfl⟩, fun _ => hin⟩,
      ⟨fun hout => absurd hin hout, fun herror => nomatch herror⟩⟩
    · intro heq
      cases heq
      exact hu
    · rw [hunique hu hv]
      rfl
  · refine ⟨fun v => ⟨fun heq => (nomatch heq), fun hv => absurd (hreach hv) hout⟩,
      ⟨fun hin => absurd hin hout, ?_⟩, ⟨fun _ => rfl, fun _ => hout⟩⟩
    rintro ⟨u, heq⟩
    cases heq

/-! ## Instants -/

theorem IsValid.secondOfDay_lt {t : Timestamp} (h : t.IsValid) : t.secondOfDay < secondsPerDay := by
  obtain ⟨-, hhour, hminute, hsecond, -⟩ := h
  rw [secondOfDay, secondsPerDay]
  omega

/-- The day, the second of the day and the nanosecond that an instant has. -/
theorem IsAt.parts {t : Timestamp} {n : Int} (h : t.IsAt n) :
    t.date.number = n / nanosPerDay ∧
      (t.secondOfDay : Int) = n % nanosPerDay / nanosPerSecond ∧
      (t.nano : Int) = n % nanosPerSecond := by
  have hsecond := h.valid.secondOfDay_lt
  have hnano := h.plain
  have hplace := h.place
  simp only [instant, nanosPerDay, secondsPerDay, nanosPerSecond] at hsecond hnano hplace ⊢
  omega

/-- No two moments are at one instant. -/
theorem IsAt.unique {t u : Timestamp} {n : Int} (ht : t.IsAt n) (hu : u.IsAt n) : t = u := by
  obtain ⟨hdate, hsecond, hnano⟩ := ht.parts
  obtain ⟨hdate', hsecond', hnano'⟩ := hu.parts
  have hdays : t.date = u.date :=
    Date.eq_of_number ht.valid.1 hu.valid.1 (hdate.trans hdate'.symm)
  obtain ⟨-, hhour, hminute, hlast, -⟩ := ht.valid
  obtain ⟨-, hhour', hminute', hlast', -⟩ := hu.valid
  obtain ⟨date, hour, minute, second, nano⟩ := t
  obtain ⟨date', hour', minute', second', nano'⟩ := u
  simp only [secondOfDay, Timestamp.mk.injEq] at *
  refine ⟨hdays, ?_, ?_, ?_, ?_⟩
  all_goals omega

theorem inCalendar_iff {n : Int} :
    InCalendar n ↔ Date.first.number ≤ n / nanosPerDay ∧ n / nanosPerDay ≤ Date.last.number := by
  simp only [InCalendar, earliest, latest, midnight, instant, secondOfDay, nanosPerDay,
    secondsPerDay, nanosPerSecond]
  omega

theorem IsAt.inCalendar {t : Timestamp} {n : Int} (h : t.IsAt n) : InCalendar n := by
  rw [inCalendar_iff, ← h.parts.1, ← Date.exists_isValid_iff]
  exact ⟨t.date, h.valid.1, rfl⟩

/-! ## The carry -/

theorem carried?_isAt {date : Date} {second nano : Int} {u : Timestamp}
    (h : carried? date second nano = some u) :
    u.IsAt (date.number * nanosPerDay + second * nanosPerSecond + nano) := by
  rw [carried?, Option.map_eq_some_iff] at h
  obtain ⟨day, hday, rfl⟩ := h
  rw [Date.addDays?, Date.ofNumber?_eq_some_iff] at hday
  obtain ⟨hvalid, hnumber⟩ := hday
  simp only [secondsPerDay, nanosPerSecond] at hnumber ⊢
  constructor
  · refine ⟨hvalid, ?_, ?_, ?_, ?_⟩
    all_goals
      simp only [nanosPerSecond]
      omega
  · simp only [nanosPerSecond]
    omega
  · simp only [instant, hnumber, secondOfDay, nanosPerDay, secondsPerDay, nanosPerSecond]
    omega

theorem carried?_eq_none {date : Date} {second nano : Int} (h : carried? date second nano = none) :
    ¬ InCalendar (date.number * nanosPerDay + second * nanosPerSecond + nano) := by
  rw [carried?, Option.map_eq_none_iff, Date.addDays?] at h
  rw [inCalendar_iff, ← Date.exists_isValid_iff]
  rintro ⟨d, hd, hnumber⟩
  have hday : Date.ofNumber? (date.number + (second + nano / nanosPerSecond) / secondsPerDay) =
      some d := by
    rw [Date.ofNumber?_eq_some_iff, hnumber]
    refine ⟨hd, ?_⟩
    simp only [nanosPerDay, secondsPerDay, nanosPerSecond]
    omega
  rw [h] at hday
  cases hday

/-- Outside leap seconds a span is added by carrying. -/
theorem addSpan?_lands {t : Timestamp} (hplain : t.nano < nanosPerSecond) (span : Span) :
    Lands (orOverflow (t.addSpan? span)) (InCalendar (t.instant + span.length))
      (·.IsAt (t.instant + span.length)) := by
  have hleap : t.inLeapSecond = false := by
    rw [inLeapSecond, decide_eq_false_iff_not]
    omega
  have hplace : t.instant + span.length = t.date.number * nanosPerDay +
      (Int.ofNat t.secondOfDay + span.seconds) * nanosPerSecond +
        (Int.ofNat t.nano + span.nanos) := by
    simp only [instant, Span.length, Int.ofNat_eq_natCast, nanosPerDay, nanosPerSecond]
    omega
  rw [addSpan?, hleap, Bool.not_false, Bool.true_or, if_pos rfl, hplace]
  cases hcarried : carried? t.date (Int.ofNat t.secondOfDay + span.seconds)
      (Int.ofNat t.nano + span.nanos) with
  | none => exact .inr ⟨carried?_eq_none hcarried, rfl⟩
  | some u =>
      have hu := carried?_isAt hcarried
      exact .inl ⟨hu.inCalendar, u, rfl, hu⟩

/-! ## Limits on the way -/

/-- The calendar is shorter than the longest span. -/
theorem latest_sub_earliest :
    latest.instant - earliest.instant < Span.longestSeconds * nanosPerSecond := by
  decide

theorem not_inCalendar_of_far {t : Timestamp} (ht : t.IsValid) (hplain : t.nano < nanosPerSecond)
    {n : Int} (hn : Span.longestSeconds * nanosPerSecond < n.natAbs) :
    ¬ InCalendar (t.instant + n) := by
  have hstart : InCalendar t.instant := IsAt.inCalendar ⟨ht, hplain, rfl⟩
  have hcalendar := latest_sub_earliest
  simp only [InCalendar] at hstart ⊢
  omega

end Timestamp

namespace Span

theorem ofMillis?_measures (n : Int) : Measures (ofMillis? n) (n * 1000000) := by
  rw [ofMillis?]
  split
  · refine .inl ⟨_, rfl, ?_⟩
    have hparts := Int.mul_tdiv_add_tmod n 1000
    simp only [length, nanosPerSecond]
    omega
  · refine .inr ⟨rfl, ?_⟩
    simp only [longestMillis, longestSeconds, nanosPerSecond] at *
    omega

theorem ofSeconds?_measures (n : Int) : Measures (ofSeconds? n) (n * nanosPerSecond) := by
  rw [ofSeconds?]
  split
  · exact .inl ⟨_, rfl, Int.add_zero _⟩
  · refine .inr ⟨rfl, ?_⟩
    simp only [nanosPerSecond]
    omega

theorem ofUnits?_measures (length n : Int) :
    Measures (ofUnits? length n) (n * length * nanosPerSecond) := by
  rw [ofUnits?]
  split
  · exact ofSeconds?_measures (n * length)
  · next hword =>
      refine .inr ⟨rfl, ?_⟩
      simp only [FitsWord, longestSeconds, longestMillis, nanosPerSecond] at hword ⊢
      omega

end Span

theorem TimeUnit.span?_measures {unit : TimeUnit} {length : Int}
    (hunit : unit.nanos? = some length) (amount : Int) :
    Span.Measures (unit.span? amount) (amount * length) := by
  have hunits : ∀ seconds : Int, length = seconds * nanosPerSecond →
      Span.Measures (Span.ofUnits? seconds amount) (amount * length) := by
    rintro seconds rfl
    rw [← Int.mul_assoc]
    exact Span.ofUnits?_measures seconds amount
  cases unit with
  | millis => cases hunit; exact Span.ofMillis?_measures amount
  | seconds => cases hunit; exact Span.ofSeconds?_measures amount
  | minutes => cases hunit; exact hunits 60 rfl
  | hours => cases hunit; exact hunits 3600 rfl
  | days => cases hunit; exact hunits 86400 rfl
  | weeks => cases hunit; exact hunits 604800 rfl
  | months => cases hunit
  | years => cases hunit

/-! ## Units of one length -/

namespace Timestamp

theorem shift_lands {t : Timestamp} (ht : t.IsValid) (hplain : t.nano < nanosPerSecond)
    {unit : TimeUnit} {length : Int} (hunit : unit.nanos? = some length) (sign amount : Int) :
    Lands (t.shift sign amount unit) (InCalendar (t.instant + sign * (amount * length)))
      (·.IsAt (t.instant + sign * (amount * length))) := by
  have hway : sign * (amount * length) = amount * sign * length := by
    rw [← Int.mul_assoc, Int.mul_comm sign]
  rw [hway]
  by_cases hword : FitsWord (amount * sign)
  · have hshift : t.shift sign amount unit =
        orOverflow ((unit.span? (amount * sign)).bind t.addSpan?) := by
      rw [shift, inWord, if_pos hword]
      cases unit <;> first | rfl | cases hunit
    rw [hshift]
    rcases TimeUnit.span?_measures hunit (amount * sign) with ⟨span, hspan, hlength⟩ | ⟨hnone, hfar⟩
    · rw [hspan, ← hlength]
      exact addSpan?_lands hplain span
    · rw [hnone]
      exact .inr ⟨not_inCalendar_of_far ht hplain hfar, rfl⟩
  · have hshift : t.shift sign amount unit = .error .overflow := by
      rw [shift, inWord, if_neg hword]
      rfl
    have hfar : Span.longestSeconds * nanosPerSecond < (amount * sign * length).natAbs := by
      have hlength : 1000000 ≤ length := by
        cases unit <;> cases hunit <;> decide
      have hamount : 0x7FFFFFFFFFFFFFFF < (amount * sign).natAbs := by
        simp only [FitsWord] at hword
        omega
      have hproduct := Nat.mul_le_mul hamount (show 1000000 ≤ length.natAbs by omega)
      rw [Int.natAbs_mul]
      simp only [Span.longestSeconds, Span.longestMillis, nanosPerSecond]
      omega
    rw [hshift]
    exact .inr ⟨not_inCalendar_of_far ht hplain hfar, rfl⟩

end Timestamp

/-- Plus and minus move a timestamp. -/
theorem Value.apply_timestamp {operator : Operator} {sign : Int}
    (h : operator.sign? = some sign) (t : Timestamp) (amount : Int) (unit : TimeUnit) :
    (timestamp t).apply operator ⟨amount, some unit⟩ =
      (t.shift sign amount unit).map timestamp := by
  cases operator <;> cases h <;> rfl

/-- A timestamp that is moved by an amount of a unit of one length comes to the
instant that is the amount away, exactly, wherever the calendar reaches that
far; and it is an overflow where it does not. -/
theorem Value.apply_unit {t : Timestamp} (ht : t.IsValid) (hplain : t.nano < nanosPerSecond)
    {operator : Operator} {sign : Int} (hsign : operator.sign? = some sign)
    {unit : TimeUnit} {length : Int} (hunit : unit.nanos? = some length) (amount : Int) :
    (∀ u : Timestamp, (timestamp t).apply operator ⟨amount, some unit⟩ = .ok (timestamp u) ↔
        u.IsAt (t.instant + sign * (amount * length))) ∧
      (Timestamp.InCalendar (t.instant + sign * (amount * length)) ↔
        ∃ u : Timestamp,
          (timestamp t).apply operator ⟨amount, some unit⟩ = .ok (timestamp u)) ∧
      (¬ Timestamp.InCalendar (t.instant + sign * (amount * length)) ↔
        (timestamp t).apply operator ⟨amount, some unit⟩ = .error .overflow) := by
  rw [apply_timestamp hsign]
  exact (Timestamp.shift_lands ht hplain hunit sign amount).map_timestamp
    (fun hu hv => hu.unique hv) fun hu => hu.inCalendar

/-- A carry through a second, an hour and a 29th of February. -/
theorem Value.apply_unit_over_leap_day :
    let t : Timestamp := ⟨⟨2024, 2, 28⟩, 23, 59, 59, 750000000⟩
    t.IsValid ∧ t.nano < nanosPerSecond ∧ Operator.sign? .add = some 1 ∧
      TimeUnit.nanos? .millis = some 1000000 ∧
      (timestamp t).apply .add ⟨90061250, some .millis⟩ =
        .ok (timestamp ⟨⟨2024, 3, 1⟩, 1, 1, 1, 0⟩) := by
  intro t
  have ht : t.IsValid := by decide
  have hplain : t.nano < nanosPerSecond := by decide
  have hmoved := (Value.apply_unit ht hplain (rfl : Operator.sign? .add = some 1)
    (rfl : TimeUnit.nanos? .millis = some 1000000) 90061250).1 ⟨⟨2024, 3, 1⟩, 1, 1, 1, 0⟩
  exact ⟨ht, hplain, rfl, rfl, hmoved.mpr ⟨by decide, by decide, by decide⟩⟩

/-! ## Months and years -/

namespace Date

/-- The date in the month with a count from year zero, on the same day or on
the last one. -/
def inMonth (d : Date) (count : Int) : Date :=
  let year := count / 12
  let month := (count % 12).toNat + 1
  ⟨year, month, min d.day (monthLength year month)⟩

theorem monthCount_inMonth (d : Date) (count : Int) : (d.inMonth count).monthCount = count := by
  simp only [inMonth, monthCount, Int.ofNat_eq_natCast]
  omega

theorem inMonth_isValid_iff {d : Date} (hd : d.IsValid) (count : Int) :
    (d.inMonth count).IsValid ↔ firstYear ≤ count / 12 ∧ count / 12 ≤ lastYear := by
  rw [isValid_iff]
  refine and_iff_left ⟨Nat.le_add_left 1 _, ?_, ?_, Nat.min_le_right _ _⟩
  · simp only [inMonth]
    omega
  · exact Nat.le_min.mpr ⟨(isValid_iff.mp hd).2.2.2.1, monthLength_pos _ _⟩

/-- Counts of months that stay in the calendar fit where they are counted. -/
theorem addMonths?_eq {d : Date} (hd : d.IsValid) (months : Int) :
    d.addMonths? months =
      if (d.inMonth (d.monthCount + months)).IsValid then some (d.inMonth (d.monthCount + months))
      else none := by
  rw [addMonths?]
  simp only []
  split
  · rfl
  · next hfits =>
      rw [if_neg]
      rw [inMonth_isValid_iff hd]
      obtain ⟨hfirst, hlast, hone, htwelve, -⟩ := hd
      simp only [FitsHalfWord, monthCount, firstYear, lastYear, Int.ofNat_eq_natCast] at *
      omega

theorem month_of_monthCount {a b : Date} (ha : a.IsValid) (hb : b.IsValid)
    (h : a.monthCount = b.monthCount) : a.year = b.year ∧ a.month = b.month := by
  obtain ⟨-, -, hone, htwelve, -⟩ := ha
  obtain ⟨-, -, hone', htwelve', -⟩ := hb
  simp only [monthCount, Int.ofNat_eq_natCast] at h
  omega

end Date

namespace Timestamp

/-- The timestamp `u` is `t` in the month with a count: at the same time of a
day that is the same, or the last of the month. -/
structure InMonth (t u : Timestamp) (count : Int) : Prop where
  valid : u.IsValid
  month : u.date.monthCount = count
  day : u.date.day = min t.date.day (monthLength u.date.year u.date.month)
  time : u = { t with date := u.date }

theorem InMonth.unique {t u v : Timestamp} {count : Int} (hu : t.InMonth u count)
    (hv : t.InMonth v count) : u = v := by
  obtain ⟨hyear, hmonth⟩ :=
    Date.month_of_monthCount hu.valid.1 hv.valid.1 (hu.month.trans hv.month.symm)
  have hday : u.date.day = v.date.day := by rw [hu.day, hv.day, hyear, hmonth]
  rw [hu.time, hv.time, Date.eq_of_parts hyear hmonth hday]

theorem InMonth.year_bounds {t u : Timestamp} {count : Int} (h : t.InMonth u count) :
    firstYear ≤ count / 12 ∧ count / 12 ≤ lastYear := by
  obtain ⟨hfirst, hlast, hone, htwelve, -⟩ := h.valid.1
  have hmonth := h.month
  simp only [Date.monthCount, Int.ofNat_eq_natCast] at hmonth
  omega

/-- A count of months that is refused on the way leads out of the calendar. -/
theorem shiftMonths_lands {t : Timestamp} (ht : t.IsValid) (months : Int) :
    let count := t.date.monthCount + months
    Lands (t.shiftMonths months) (firstYear ≤ count / 12 ∧ count / 12 ≤ lastYear)
      (t.InMonth · count) := by
  intro count
  rw [shiftMonths]
  split
  · rw [addMonths?, Date.addMonths?_eq ht.1]
    split
    · next hvalid =>
        refine .inl ⟨(Date.inMonth_isValid_iff ht.1 count).mp hvalid, _, rfl, ?_⟩
        exact ⟨⟨hvalid, ht.2⟩, Date.monthCount_inMonth t.date count, rfl, rfl⟩
    · next hout => exact .inr ⟨fun hin => hout ((Date.inMonth_isValid_iff ht.1 count).mpr hin), rfl⟩
  · next hwide =>
      refine .inr ⟨?_, rfl⟩
      obtain ⟨hfirst, hlast, hone, htwelve, -⟩ := ht.1
      simp only [count, Date.monthCount, firstYear, lastYear, Int.ofNat_eq_natCast] at *
      omega

theorem shiftMonths_of_wide (t : Timestamp) {months : Int} (h : ¬ FitsWord months) :
    t.shiftMonths months = .error .overflow := by
  rw [shiftMonths, if_neg]
  simp only [FitsWord] at h
  omega

theorem shift_eq_shiftMonths {unit : TimeUnit} {months : Int} (hunit : unit.months? = some months)
    (t : Timestamp) (sign amount : Int) :
    t.shift sign amount unit = t.shiftMonths (sign * (amount * months)) := by
  have hway : sign * (amount * months) = amount * sign * months := by
    rw [← Int.mul_assoc, Int.mul_comm sign]
  rw [hway, shift, inWord]
  by_cases hword : FitsWord (amount * sign)
  · rw [if_pos hword]
    cases unit with
    | months =>
        cases hunit
        rw [Int.mul_one]
        rfl
    | years =>
        cases hunit
        show (inWord (amount * sign * 12) >>= t.shiftMonths) = _
        rw [inWord]
        split
        · rfl
        · next hwide => exact (t.shiftMonths_of_wide hwide).symm
    | _ => cases hunit
  · have hwide : ¬ FitsWord (amount * sign * months) := by
      simp only [FitsWord] at hword ⊢
      cases unit <;> cases hunit <;> omega
    rw [if_neg hword, shiftMonths_of_wide t hwide]
    rfl

end Timestamp

/-- A timestamp that is moved by months or years comes to the month that is so
many months away, counted over all years; and it is an overflow exactly where
the year of that month is outside the calendar. -/
theorem Value.apply_months {t : Timestamp} (ht : t.IsValid)
    {operator : Operator} {sign : Int} (hsign : operator.sign? = some sign)
    {unit : TimeUnit} {months : Int} (hunit : unit.months? = some months) (amount : Int) :
    let count := t.date.monthCount + sign * (amount * months)
    (∀ u : Timestamp, (timestamp t).apply operator ⟨amount, some unit⟩ = .ok (timestamp u) ↔
        t.InMonth u count) ∧
      ((firstYear ≤ count / 12 ∧ count / 12 ≤ lastYear) ↔
        ∃ u : Timestamp,
          (timestamp t).apply operator ⟨amount, some unit⟩ = .ok (timestamp u)) ∧
      (¬ (firstYear ≤ count / 12 ∧ count / 12 ≤ lastYear) ↔
        (timestamp t).apply operator ⟨amount, some unit⟩ = .error .overflow) := by
  intro count
  rw [apply_timestamp hsign, Timestamp.shift_eq_shiftMonths hunit]
  exact (Timestamp.shiftMonths_lands ht (sign * (amount * months))).map_timestamp
    (fun hu hv => hu.unique hv) fun hu => hu.year_bounds

/-- Back into year zero, which has a 29th of February, and within a leap
second. -/
theorem Value.apply_months_into_year_zero :
    let t : Timestamp := ⟨⟨1, 3, 31⟩, 23, 59, 59, 1500000000⟩
    t.IsValid ∧ Operator.sign? .sub = some (-1) ∧ TimeUnit.months? .months = some 1 ∧
      (timestamp t).apply .sub ⟨13, some .months⟩ =
        .ok (timestamp ⟨⟨0, 2, 29⟩, 23, 59, 59, 1500000000⟩) := by
  intro t
  have ht : t.IsValid := by decide
  have hmoved := (Value.apply_months ht (rfl : Operator.sign? .sub = some (-1))
    (rfl : TimeUnit.months? .months = some 1) 13).1 ⟨⟨0, 2, 29⟩, 23, 59, 59, 1500000000⟩
  exact ⟨ht, rfl, rfl, hmoved.mpr ⟨by decide, rfl, rfl, rfl⟩⟩

end RequestBook
