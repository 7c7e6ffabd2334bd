import RequestBook.Proofs.Digits
import RequestBook.Value

/-!
# A timestamp is printed as its pattern reads

To print a timestamp its pattern is brought into percent form and the percent
form is filled in. Between the two stands a text in which a percent sign means
something, and the pattern may hold percent signs of its own, before letters
that would mean something as well. What is printed is nevertheless what one
reads off the pattern from the left: where a token stands its field does, and
every other character stands for itself (`Reads`).

The two passes never meet, as one step of the first leaves one step for the
second: two characters that begin with a percent sign, or one that is none. So
the second never sees a character of the pattern behind a percent sign
(`filledIn?_of_reads`).

What a field looks like is said of its digits and not of the function that
writes them (`Shows`): they give the number back, there are at least as many as
asked for, and a zero stands in front only where it has to.
-/

namespace RequestBook

namespace Timestamp

/-! ## Reading a pattern -/

/-- What a pattern can name. -/
inductive Field where
  | year
  | month
  | day
  | hour
  | minute
  | second

/-- The letters that name a field in a pattern. -/
def Field.token : Field → Text
  | year => ['y', 'y', 'y', 'y']
  | month => ['M', 'M']
  | day => ['d', 'd']
  | hour => ['H', 'H']
  | minute => ['m', 'm']
  | second => ['s', 's']

/-- The letter that stands for a field behind a percent sign. -/
def Field.letter : Field → Char
  | year => 'Y'
  | month => 'm'
  | day => 'd'
  | hour => 'H'
  | minute => 'M'
  | second => 'S'

/-- A year in at least four digits, and with a sign outside 0 to 9999. -/
inductive ShowsYear (year : Int) : Text → Prop
  | plain {digits : Text} (hlow : 0 ≤ year) (hhigh : year ≤ 9999)
      (h : Text.ZeroPadded 4 year.natAbs digits) : ShowsYear year digits
  | negative {digits : Text} (hyear : year < 0)
      (h : Text.ZeroPadded 4 year.natAbs digits) : ShowsYear year ('-' :: digits)
  | positive {digits : Text} (hyear : 9999 < year)
      (h : Text.ZeroPadded 4 year.natAbs digits) : ShowsYear year ('+' :: digits)

/-- How a field of a timestamp looks. Within a leap second the second that shows
is the sixtieth. -/
def Shows (t : Timestamp) : Field → Text → Prop
  | .year => ShowsYear t.date.year
  | .month => Text.ZeroPadded 2 t.date.month
  | .day => Text.ZeroPadded 2 t.date.day
  | .hour => Text.ZeroPadded 2 t.hour
  | .minute => Text.ZeroPadded 2 t.minute
  | .second => Text.ZeroPadded 2 (if t.inLeapSecond then 60 else t.second)

/-- What one reads off a pattern from the left: a field in the place of each
token, and every character at which no token begins. -/
inductive Reads (t : Timestamp) : Text → Text → Prop
  | done : Reads t [] []
  | field {field : Field} {shown pattern out : Text} (h : t.Shows field shown) :
      Reads t pattern out → Reads t (field.token ++ pattern) (shown ++ out)
  | copied {c : Char} {pattern out : Text} (h : ∀ field : Field, ¬ field.token <+: c :: pattern) :
      Reads t pattern out → Reads t (c :: pattern) (c :: out)

/-! ## Fields -/

theorem showsYear_iff {year : Int} {text : Text} : ShowsYear year text ↔ text = yearText year := by
  have hdigits {digits : Text} :
      Text.ZeroPadded 4 year.natAbs digits ↔ digits = Text.ofNatPadded 4 year.natAbs :=
    Text.zeroPadded_iff (by decide)
  rw [yearText]
  constructor
  · intro h
    cases h with
    | plain hlow hhigh h => rw [if_neg (by omega), if_neg (by omega), hdigits.mp h]
    | negative hyear h => rw [if_pos hyear, hdigits.mp h]
    | positive hyear h => rw [if_neg (by omega), if_pos hyear, hdigits.mp h]
  · rintro rfl
    split
    · next hyear => exact .negative hyear (hdigits.mpr rfl)
    · split
      · next hyear => exact .positive hyear (hdigits.mpr rfl)
      · exact .plain (by omega) (by omega) (hdigits.mpr rfl)

variable {t : Timestamp}

theorem IsValid.shownSecond (h : t.IsValid) :
    t.second + t.nano / nanosPerSecond = if t.inLeapSecond then 60 else t.second := by
  obtain ⟨-, -, -, -, hnano⟩ := h
  have hsecond : nanosPerSecond = 1000000000 := rfl
  by_cases hleap : nanosPerSecond ≤ t.nano
  · rw [inLeapSecond, decide_eq_true hleap, if_pos rfl]
    rw [hsecond] at hnano hleap ⊢
    omega
  · rw [inLeapSecond, decide_eq_false hleap, if_neg Bool.false_ne_true]
    rw [hsecond] at hleap ⊢
    omega

theorem shows_iff (ht : t.IsValid) {field : Field} {text : Text} :
    t.Shows field text ↔ t.field? field.letter = some text := by
  have hpadded (n : Nat) : Text.ZeroPadded 2 n text ↔ some (Text.ofNatPadded 2 n) = some text := by
    rw [Text.zeroPadded_iff (by decide), Option.some.injEq, eq_comm]
  cases field with
  | year =>
      show ShowsYear t.date.year text ↔ some (yearText t.date.year) = some text
      rw [showsYear_iff, Option.some.injEq, eq_comm]
  | month => exact hpadded t.date.month
  | day => exact hpadded t.date.day
  | hour => exact hpadded t.hour
  | minute => exact hpadded t.minute
  | second =>
      show Text.ZeroPadded 2 (if t.inLeapSecond then 60 else t.second) text ↔ _
      rw [hpadded, ← ht.shownSecond]
      rfl

/-- Every field can be shown. -/
theorem exists_shows (ht : t.IsValid) (field : Field) : ∃ text, t.Shows field text := by
  have hsome : (t.field? field.letter).isSome := by cases field <;> rfl
  obtain ⟨text, htext⟩ := Option.isSome_iff_exists.mp hsome
  exact ⟨text, (shows_iff ht).mpr htext⟩

/-! ## The two passes -/

theorem percentPattern_token (field : Field) (pattern : Text) :
    percentPattern (field.token ++ pattern) = '%' :: field.letter :: percentPattern pattern := by
  cases field <;> rfl

theorem percentPattern_copied {c : Char} {pattern : Text}
    (h : ∀ field : Field, ¬ field.token <+: c :: pattern) :
    percentPattern (c :: pattern) =
      if c = '%' then '%' :: '%' :: percentPattern pattern else c :: percentPattern pattern := by
  rw [percentPattern.eq_def]
  split
  · next rest heq => exact absurd ⟨rest, heq.symm⟩ (h .year)
  · next rest heq => exact absurd ⟨rest, heq.symm⟩ (h .month)
  · next rest heq => exact absurd ⟨rest, heq.symm⟩ (h .day)
  · next rest heq => exact absurd ⟨rest, heq.symm⟩ (h .hour)
  · next rest heq => exact absurd ⟨rest, heq.symm⟩ (h .minute)
  · next rest heq => exact absurd ⟨rest, heq.symm⟩ (h .second)
  · next rest heq =>
      cases heq
      rfl
  · next hother heq =>
      cases heq
      rw [if_neg hother]
  · next heq => cases heq

theorem filledIn?_of_reads (ht : t.IsValid) {pattern out : Text} (h : t.Reads pattern out) :
    t.filledIn? (percentPattern pattern) = some out := by
  induction h with
  | done => rfl
  | field hshown _ ih =>
      rw [percentPattern_token, filledIn?_field ((shows_iff ht).mp hshown), ih]
      rfl
  | @copied c pattern out hplain _ ih =>
      rw [percentPattern_copied hplain]
      split
      · next hpercent =>
          rw [filledIn?_field rfl, ih, hpercent]
          rfl
      · next hpercent =>
          rw [filledIn?_copied hpercent, ih]
          rfl

/-- Every pattern can be read. -/
theorem exists_reads (ht : t.IsValid) (pattern : Text) : ∃ out, t.Reads pattern out := by
  induction hlength : pattern.length using Nat.strongRecOn generalizing pattern with
  | ind n ih =>
      cases pattern with
      | nil => exact ⟨[], .done⟩
      | cons c pattern =>
          by_cases h : ∃ field : Field, field.token <+: c :: pattern
          · obtain ⟨field, rest, hrest⟩ := h
            have htoken : 0 < field.token.length := by cases field <;> decide
            have hshorter := congrArg List.length hrest
            rw [List.length_append] at hshorter
            obtain ⟨shown, hshown⟩ := exists_shows ht field
            obtain ⟨out, hout⟩ := ih rest.length (by omega) rest rfl
            rw [← hrest]
            exact ⟨shown ++ out, .field hshown hout⟩
          · have hshorter : pattern.length < n := by
              rw [← hlength, List.length_cons]
              omega
            obtain ⟨out, hout⟩ := ih pattern.length hshorter pattern rfl
            exact ⟨c :: out, .copied (fun field hfield => h ⟨field, hfield⟩) hout⟩

end Timestamp

/-- The percent form of a pattern can be filled in, and what is printed is the one
text that reads as the pattern does. -/
theorem Value.render_timestamp_iff_reads {t : Timestamp} (ht : t.IsValid) (format : Option Text) :
    t.filledIn? (percentPattern (format.getD defaultPattern)) =
        some ((Value.timestamp t).render format) ∧
      ∀ out, (Value.timestamp t).render format = out ↔
        t.Reads (format.getD defaultPattern) out := by
  have hfilled : t.filledIn? (percentPattern (format.getD defaultPattern)) =
      some ((Value.timestamp t).render format) :=
    (Option.some_get (t.isSome_filledIn?_percentPattern (format.getD defaultPattern))).symm
  refine ⟨hfilled, fun out => ?_⟩
  rw [← Option.some.injEq, ← hfilled]
  constructor
  · intro h
    obtain ⟨read, hread⟩ := Timestamp.exists_reads ht (format.getD defaultPattern)
    rw [Timestamp.filledIn?_of_reads ht hread] at h
    rwa [← Option.some.inj h]
  · exact Timestamp.filledIn?_of_reads ht

/-- A leap second before year zero, and a pattern with percent signs before a
token, before another percent sign and before letters that name a field in
percent form, with a token that is too long and one that is too short. -/
theorem Value.render_percent_signs_and_leap_second :
    let t : Timestamp := ⟨⟨-44, 3, 15⟩, 9, 5, 59, 1500000000⟩
    let pattern := "%yyyyy%%MM%Y %-d%dd HH:mm:ss%".toList
    let out := "%-0044y%%03%Y %-d%15 09:05:60%".toList
    t.IsValid ∧ t.Reads pattern out := by
  intro t pattern out
  have ht : t.IsValid := by decide
  have hrender : (Value.timestamp t).render (some pattern) = out := by decide
  exact ⟨ht, ((render_timestamp_iff_reads ht (some pattern)).2 out).mp hrender⟩

end RequestBook
