import RequestBook.Engine
import RequestBook.Proofs.Shifting

/-!
# Two ways to the next day

The day after today has a name of its own, and it is also today moved by a day.
The name goes by way of the calendar, which adds one to the number of the date;
the move goes by way of a span of seconds and the carry from the time of day.
Both come to the day with that number if the calendar has it, and to an
overflow if not, and this for any number of days (`shift_days`): from midnight
the carry has nothing to round.

The readings of a day follow from its number. The days of the week count on
modulo seven (`weekday_next`), and the days of the year count on until the year
is another (`dayOfYear_next`), whatever its length. The present moment is read
through its date alone, so it reads as its midnight does.
-/

namespace RequestBook

/-! ## From day to day -/

namespace Date

variable {d e : Date}

theorem next_eq_iff (hd : d.IsProper) (he : e.IsProper) :
    d.next = e ↔ e.number = d.number + 1 := by
  rw [← number_next hd]
  constructor
  · rintro rfl
    rfl
  · intro h
    rw [← ofNumber_number (isProper_next hd), ← h, ofNumber_number he]

theorem addDays?_eq_some_iff {days : Int} :
    d.addDays? days = some e ↔ e.IsValid ∧ e.number = d.number + days :=
  ofNumber?_eq_some_iff

theorem addDays?_eq_none_iff {days : Int} :
    d.addDays? days = none ↔
      ¬ (first.number ≤ d.number + days ∧ d.number + days ≤ last.number) := by
  rw [← exists_isValid_iff, Option.eq_none_iff_forall_ne_some]
  simp only [ne_eq, addDays?_eq_some_iff, not_exists]

theorem addDays?_zero (hd : d.IsValid) : d.addDays? 0 = some d :=
  addDays?_eq_some_iff.mpr ⟨hd, (Int.add_zero _).symm⟩

theorem number_bounds (hd : d.IsValid) : first.number ≤ d.number ∧ d.number ≤ last.number :=
  exists_isValid_iff.mp ⟨d, hd, rfl⟩

theorem isValid_last : last.IsValid := by decide

theorem isValid_first : first.IsValid := by decide

/-- The day after the last one is missing. -/
theorem addDays?_one (hd : d.IsValid) :
    d.addDays? 1 = if d = last then none else some d.next := by
  have hbounds := number_bounds hd
  split
  · next hlast =>
      rw [addDays?_eq_none_iff, hlast]
      omega
  · next hlast =>
      have hbefore : d.number ≠ last.number := fun h =>
        hlast (eq_of_number hd isValid_last h)
      obtain ⟨e, he, hnumber⟩ :=
        exists_isValid_iff.mpr (show first.number ≤ d.number + 1 ∧ d.number + 1 ≤ last.number by
          omega)
      rw [(next_eq_iff (isValid_iff.mp hd).2 (isValid_iff.mp he).2).mpr hnumber]
      exact addDays?_eq_some_iff.mpr ⟨he, hnumber⟩

/-- The day before the first one is missing. -/
theorem addDays?_neg_one (hd : d.IsValid) :
    (d = first ∧ d.addDays? (-1) = none) ∨
      (d ≠ first ∧ ∃ e, d.addDays? (-1) = some e ∧ e.IsValid ∧ e.next = d) := by
  have hbounds := number_bounds hd
  by_cases hfirst : d = first
  · refine .inl ⟨hfirst, ?_⟩
    rw [addDays?_eq_none_iff, hfirst]
    omega
  · have hbehind : d.number ≠ first.number := fun h =>
      hfirst (eq_of_number hd isValid_first h)
    obtain ⟨e, he, hnumber⟩ :=
      exists_isValid_iff.mpr (show first.number ≤ d.number + -1 ∧ d.number + -1 ≤ last.number by
        omega)
    refine .inr ⟨hfirst, e, addDays?_eq_some_iff.mpr ⟨he, hnumber⟩, he, ?_⟩
    rw [next_eq_iff (isValid_iff.mp he).2 (isValid_iff.mp hd).2]
    omega

theorem weekday_next (hd : d.IsProper) : d.next.weekday = (d.weekday + 1) % 7 := by
  rw [weekday, weekday, number_next hd]
  omega

theorem year_next (d : Date) : d.next.year = d.year ∨ d.next = ⟨d.year + 1, 1, 1⟩ := by
  rw [next]
  split
  · exact .inl rfl
  · split
    · exact .inl rfl
    · exact .inr rfl

theorem dayOfYear_next (hd : d.IsProper) :
    d.next.dayOfYear = if d.next.year = d.year then d.dayOfYear + 1 else 1 := by
  split
  · next hyear =>
      have hnumber := number_next hd
      rw [number, number, hyear] at hnumber
      rw [dayOfYear, dayOfYear, hyear]
      omega
  · next hyear =>
      rw [(year_next d).resolve_left hyear]
      rfl

end Date

/-! ## The two ways -/

namespace Timestamp

theorem midnight_isAt {d : Date} (hd : d.IsValid) : (midnight d).IsAt (d.number * nanosPerDay) where
  valid := by
    refine ⟨hd, ?_, ?_, ?_, .inl ?_⟩
    all_goals exact Nat.zero_lt_succ _
  plain := Nat.zero_lt_succ _
  place := by
    simp only [instant, midnight, secondOfDay]
    omega

/-- Midnight is moved by days to the midnight of the day so many days away. -/
theorem shift_days {d : Date} (hd : d.IsValid) (sign amount : Int) :
    (midnight d).shift sign amount .days =
      (orOverflow (d.addDays? (sign * amount))).map midnight := by
  have hstart := midnight_isAt hd
  have hlands := shift_lands hstart.valid hstart.plain
    (rfl : TimeUnit.nanos? .days = some 86400000000000) sign amount
  have hplace : (midnight d).instant + sign * (amount * 86400000000000) =
      (d.number + sign * amount) * nanosPerDay := by
    have hday : nanosPerDay = 86400000000000 := rfl
    rw [hstart.place, Int.add_mul, Int.mul_assoc, hday]
    rfl
  rw [hplace] at hlands
  -- the calendar has the day if and only if it has its midnight
  cases hday : d.addDays? (sign * amount) with
  | some e =>
      obtain ⟨he, hnumber⟩ := Date.addDays?_eq_some_iff.mp hday
      have hthere := midnight_isAt he
      rw [hnumber] at hthere
      rcases hlands with ⟨-, u, hshift, hu⟩ | ⟨hout, -⟩
      · rw [hshift, hu.unique hthere]
        rfl
      · exact absurd hthere.inCalendar hout
  | none =>
      rcases hlands with ⟨hin, -⟩ | ⟨-, hshift⟩
      · have hdays : (d.number + sign * amount) * nanosPerDay / nanosPerDay =
            d.number + sign * amount :=
          Int.mul_ediv_cancel _ (by decide)
        rw [inCalendar_iff, hdays] at hin
        exact absurd hin (Date.addDays?_eq_none_iff.mp hday)
      · exact hshift

end Timestamp

/-! ## Expressions for moments -/

namespace Evaluator

/-- The words for moments. -/
def moments : List Text := ["now", "today", "yesterday", "tomorrow"].map String.toList

/-- The words for what can be read off a date. -/
def readings : List Text :=
  ["year", "month", "day", "month-day", "year-day", "week-day"].map String.toList

theorem moment_today {now : Timestamp} (hday : now.date.IsValid) :
    moment "today".toList now = .ok (.midnight now.date) := by
  show (orOverflow (now.date.addDays? 0)).map Timestamp.midnight = _
  rw [Date.addDays?_zero hday]
  rfl

theorem moment_tomorrow {now : Timestamp} (hday : now.date.IsValid) :
    moment "tomorrow".toList now =
      if now.date = Date.last then .error .overflow else .ok (.midnight now.date.next) := by
  show (orOverflow (now.date.addDays? 1)).map Timestamp.midnight = _
  rw [Date.addDays?_one hday]
  split <;> rfl

theorem moment_yesterday {now : Timestamp} (hday : now.date.IsValid) :
    (now.date = Date.first ∧ moment "yesterday".toList now = .error .overflow) ∨
      (now.date ≠ Date.first ∧ ∃ d : Date, d.IsValid ∧ d.next = now.date ∧
        moment "yesterday".toList now = .ok (.midnight d)) := by
  have hmoment : moment "yesterday".toList now =
      (orOverflow (now.date.addDays? (-1))).map Timestamp.midnight := rfl
  rw [hmoment]
  rcases Date.addDays?_neg_one hday with ⟨hfirst, hnone⟩ | ⟨hfirst, d, hsome, hd, hnext⟩
  · rw [hnone]
    exact .inl ⟨hfirst, rfl⟩
  · rw [hsome]
    exact .inr ⟨hfirst, d, hd, hnext, rfl⟩

theorem exists_reading {what : Text} (h : what ∈ readings) (d : Date) :
    ∃ n, reading what d = .ok n := by
  simp only [readings, List.map_cons, List.map_nil, List.mem_cons, List.not_mem_nil,
    or_false] at h
  rcases h with rfl | rfl | rfl | rfl | rfl | rfl
  all_goals exact ⟨_, rfl⟩

theorem reading_weekday_next {d : Date} (hd : d.IsProper) :
    reading "week-day".toList d.next = .ok (((d.weekday : Int) + 1) % 7) := by
  show Except.ok (d.next.weekday : Int) = _
  rw [Date.weekday_next hd]
  rfl

theorem reading_yearDay_next {d : Date} (hd : d.IsProper) :
    reading "year-day".toList d.next =
      .ok (if d.next.year = d.year then (d.dayOfYear : Int) + 1 else 1) := by
  show Except.ok (d.next.dayOfYear : Int) = _
  rw [Date.dayOfYear_next hd]
  split <;> rfl

end Evaluator

namespace Expression

/-- The expression for a moment, or for what is read off it. -/
def ofMoment (text : Text) (path : List Text) (operation : Option Operation) : Expression where
  text := text
  tag := "$date_time".toList
  segments := "$date_time".toList :: path
  operation := operation
  format := none

theorem parse_moment : ∀ word ∈ Evaluator.moments,
    parse ("$date_time.".toList ++ word) =
      .ok (ofMoment ("$date_time.".toList ++ word) [word] none) := by
  decide +kernel

theorem parse_reading : ∀ word ∈ Evaluator.moments, ∀ what ∈ Evaluator.readings,
    parse ("$date_time.".toList ++ word ++ ['.'] ++ what) =
      .ok (ofMoment ("$date_time.".toList ++ word ++ ['.'] ++ what) [word, what] none) := by
  decide +kernel

theorem parse_moved : ∀ operator ∈ [Operator.add, Operator.sub],
    parse ("$date_time.today ".toList ++ [operator.symbol] ++ " 1d".toList) =
      .ok (ofMoment ("$date_time.today ".toList ++ [operator.symbol] ++ " 1d".toList)
        ["today".toList] (some ⟨operator, "1d".toList⟩)) := by
  decide +kernel

end Expression

/-- What the expressions for moments say of each other on a day. -/
structure MomentsAgree (today : Date) (answer : Text → Except EvalError Value) : Prop where
  tomorrow : answer "$date_time.tomorrow".toList = answer "$date_time.today + 1d".toList
  yesterday : answer "$date_time.yesterday".toList = answer "$date_time.today - 1d".toList
  overflow_iff_last : answer "$date_time.tomorrow".toList = .error .overflow ↔ today = Date.last
  overflow_iff_first : answer "$date_time.yesterday".toList = .error .overflow ↔ today = Date.first
  dayAfter : today ≠ Date.last →
    answer "$date_time.tomorrow".toList = .ok (.timestamp (.midnight today.next))
  dayBefore : today ≠ Date.first → ∃ d : Date, d.IsValid ∧ d.next = today ∧
    answer "$date_time.yesterday".toList = .ok (.timestamp (.midnight d))
  /-- The present moment is read as today is, and today as its date. -/
  readings : ∀ what ∈ Evaluator.readings, ∃ n, Evaluator.reading what today = .ok n ∧
    answer ("$date_time.now.".toList ++ what) = .ok (.integer n) ∧
    answer ("$date_time.today.".toList ++ what) = .ok (.integer n)
  weekday : today ≠ Date.last → ∃ n,
    answer "$date_time.today.week-day".toList = .ok (.integer n) ∧
    answer "$date_time.tomorrow.week-day".toList = .ok (.integer ((n + 1) % 7))
  yearDay : today ≠ Date.last → ∃ year year' n,
    answer "$date_time.today.year".toList = .ok (.integer year) ∧
    answer "$date_time.tomorrow.year".toList = .ok (.integer year') ∧
    answer "$date_time.today.year-day".toList = .ok (.integer n) ∧
    answer "$date_time.tomorrow.year-day".toList =
      .ok (.integer (if year' = year then n + 1 else 1))

namespace Engine

variable {now : Timestamp} (vars : Variables) (draws : Draws)

theorem evaluate_moment (now : Timestamp) {word : Text} (hword : word ∈ Evaluator.moments) :
    (standard now).evaluate vars draws ("$date_time.".toList ++ word) =
      (Evaluator.moment word now).map .timestamp := by
  rw [evaluate, Expression.parse_moment word hword]
  show ((Evaluator.moment word now).map Value.timestamp).bind Except.ok = _
  cases Evaluator.moment word now <;> rfl

theorem evaluate_reading {t : Timestamp} {n : Int} (word what : Text)
    (hmoment : Evaluator.moment word now = .ok t) (hreading : Evaluator.reading what t.date = .ok n)
    (hword : word ∈ Evaluator.moments) (hwhat : what ∈ Evaluator.readings) :
    (standard now).evaluate vars draws ("$date_time.".toList ++ word ++ ['.'] ++ what) =
      .ok (.integer n) := by
  rw [evaluate, Expression.parse_reading word hword what hwhat]
  show ((Evaluator.moment word now).bind fun t =>
    (Evaluator.reading what t.date).map Value.integer).bind Except.ok = _
  rw [hmoment]
  show ((Evaluator.reading what t.date).map Value.integer).bind Except.ok = _
  rw [hreading]
  rfl

theorem evaluate_moved (hday : now.date.IsValid) {operator : Operator} {sign : Int}
    (hsign : operator.sign? = some sign) :
    (standard now).evaluate vars draws
        ("$date_time.today ".toList ++ [operator.symbol] ++ " 1d".toList) =
      ((orOverflow (now.date.addDays? sign)).map .midnight).map .timestamp := by
  have hmoves : operator ∈ [Operator.add, Operator.sub] := by
    cases operator <;> first | decide | cases hsign
  have hdays := Timestamp.shift_days hday sign 1
  rw [Int.mul_one] at hdays
  have hoperand : Operand.parse "1d".toList = .ok ⟨1, some .days⟩ := by decide +kernel
  rw [evaluate, Expression.parse_moved operator hmoves, ← hdays, ← Value.apply_timestamp hsign]
  show (((Evaluator.moment "today".toList now).map Value.timestamp).bind fun value =>
    (Operand.parse "1d".toList).bind fun operand => value.apply operator operand) = _
  rw [Evaluator.moment_today hday, hoperand]
  rfl

/-- Whatever the present moment, the day after and the day before are today moved
by a day, with an overflow at the ends of the calendar and nowhere else; a moment
reads as its day does; and from a day to the next the readings count on. -/
theorem moments_agree (now : Timestamp) (hday : now.date.IsValid) (vars : Variables)
    (draws : Draws) : MomentsAgree now.date ((standard now).evaluate vars draws) := by
  have hproper := (Date.isValid_iff.mp hday).2
  have htoday := Evaluator.moment_today hday
  have htomorrow : now.date ≠ Date.last →
      Evaluator.moment "tomorrow".toList now = .ok (.midnight now.date.next) := fun hlast => by
    rw [Evaluator.moment_tomorrow hday, if_neg hlast]
  have hafter : (standard now).evaluate vars draws "$date_time.tomorrow".toList =
      (Evaluator.moment "tomorrow".toList now).map .timestamp :=
    evaluate_moment vars draws now (by decide)
  have hbefore : (standard now).evaluate vars draws "$date_time.yesterday".toList =
      (Evaluator.moment "yesterday".toList now).map .timestamp :=
    evaluate_moment vars draws now (by decide)
  exact {
    tomorrow := hafter.trans (evaluate_moved vars draws hday (rfl : Operator.sign? .add = _)).symm
    yesterday := hbefore.trans (evaluate_moved vars draws hday (rfl : Operator.sign? .sub = _)).symm
    overflow_iff_last := by
      rw [hafter, Evaluator.moment_tomorrow hday]
      split
      · next hlast => exact iff_of_true rfl hlast
      · next hlast => exact iff_of_false nofun hlast
    overflow_iff_first := by
      rw [hbefore]
      rcases Evaluator.moment_yesterday hday with ⟨hfirst, hmoment⟩ | ⟨hfirst, d, -, -, hmoment⟩
      · rw [hmoment]
        exact iff_of_true rfl hfirst
      · rw [hmoment]
        exact iff_of_false nofun hfirst
    dayAfter := fun hlast => by
      rw [hafter, htomorrow hlast]
      rfl
    dayBefore := fun hfirst => by
      rcases Evaluator.moment_yesterday hday with ⟨hother, -⟩ | ⟨-, d, hd, hnext, hmoment⟩
      · exact absurd hother hfirst
      · exact ⟨d, hd, hnext, by rw [hbefore, hmoment]; rfl⟩
    readings := fun what hwhat => by
      obtain ⟨n, hn⟩ := Evaluator.exists_reading hwhat now.date
      exact ⟨n, hn, evaluate_reading vars draws "now".toList what rfl hn (by decide) hwhat,
        evaluate_reading vars draws "today".toList what htoday hn (by decide) hwhat⟩
    weekday := fun hlast => ⟨now.date.weekday,
      evaluate_reading vars draws "today".toList "week-day".toList htoday rfl (by decide)
        (by decide),
      evaluate_reading vars draws "tomorrow".toList "week-day".toList (htomorrow hlast)
        (Evaluator.reading_weekday_next hproper) (by decide) (by decide)⟩
    yearDay := fun hlast => ⟨now.date.year, now.date.next.year, now.date.dayOfYear,
      evaluate_reading vars draws "today".toList "year".toList htoday rfl (by decide) (by decide),
      evaluate_reading vars draws "tomorrow".toList "year".toList (htomorrow hlast) rfl
        (by decide) (by decide),
      evaluate_reading vars draws "today".toList "year-day".toList htoday rfl (by decide)
        (by decide),
      evaluate_reading vars draws "tomorrow".toList "year-day".toList (htomorrow hlast)
        (Evaluator.reading_yearDay_next hproper) (by decide) (by decide)⟩ }

/-- Within a leap second on the last day before year zero. -/
theorem moments_agree_before_year_zero :
    let now : Timestamp := ⟨⟨-1, 12, 31⟩, 23, 59, 59, 1500000000⟩
    let answer := (standard now).evaluate [] fun _ => 0
    now.date.IsValid ∧ MomentsAgree now.date answer ∧
      answer "$date_time.today + 1d".toList = .ok (.timestamp (.midnight ⟨0, 1, 1⟩)) := by
  intro now answer
  have hday : now.date.IsValid := by decide
  have hagree := moments_agree now hday [] fun _ => 0
  exact ⟨hday, hagree, hagree.tomorrow.symm.trans (hagree.dayAfter (by decide))⟩

end Engine

end RequestBook
