import RequestBook.Proofs.Drawing

/-!
# An identity number tells its parts

Nothing parts the fields of an identity number from each other: they are read
by their places. That works because each of them is as wide as it has to be,
which for the region is asked when a number is made, for the month, the day and
the sequence follows from how large they can be, and for the year from the limit
of four digits, below which it is filled with zeros and has no sign.

A field of a width that is written with that width is read back, whatever stands
behind it (`digits?_ofNatPadded`), and the check character stands behind all of
them. So the parts come back, and two numbers of one text are one
(`make_legible`).
-/

namespace RequestBook

namespace Text

/-- The number that the first `width` characters spell, which must be digits, and
what stands behind them. -/
def digits? (width : Nat) (t : Text) : Option (Nat × Text) :=
  let digits := t.take width
  if digits.length = width && digits.all Char.isDigit then some (natOfDigits digits, t.drop width)
  else none

theorem digits?_ofNatPadded {width n : Nat} (hwidth : 0 < width) (h : n < Nat.pow 10 width)
    (rest : Text) : digits? width (ofNatPadded width n ++ rest) = some (n, rest) := by
  have hlength := length_ofNatPadded_of_lt hwidth h
  have hdigits : (ofNatPadded width n).all Char.isDigit = true :=
    List.all_eq_true.mpr fun _ => isDigit_of_mem_ofNatPadded
  rw [digits?, List.drop_left' hlength, List.take_left' hlength, hdigits, hlength,
    natOfDigits_ofNatPadded]
  simp

end Text

theorem yearText_eq_padded {year : Int} (hlow : 0 ≤ year) (hhigh : year ≤ 9999) :
    yearText year = Text.ofNatPadded 4 year.natAbs := by
  rw [yearText, if_neg (by omega), if_neg (by omega)]

theorem Date.of?_of_isValid {d : Date} (h : d.IsValid) : of? d.year d.month d.day = some d :=
  if_pos h

namespace IdentityNumber

/-- The parts of an identity number, read by their places: six characters of a
region, year, month and day of a birthday, and a sequence. -/
def ofText? (code : Text) : Option IdentityNumber := do
  let (year, rest) ← Text.digits? 4 (code.drop regionLength)
  let (month, rest) ← Text.digits? 2 rest
  let (day, rest) ← Text.digits? 2 rest
  let (sequence, _) ← Text.digits? 3 rest
  let birthday ← Date.of? year month day
  return { region := code.take regionLength, birthday, sequence }

variable {region : Text} {birthday : Date} {sequence : Nat} {n : IdentityNumber}

/-- What a number is made of was asked for when it was made. -/
theorem proper_of_make (hbirthday : birthday.IsValid)
    (h : make region birthday sequence = .ok n) :
    n = ⟨region, birthday, sequence⟩ ∧ n.Proper ∧
      0 ≤ n.birthday.year ∧ n.birthday.year ≤ 9999 := by
  rw [make] at h
  split at h
  · cases h
  · next hregion =>
      split at h
      · cases h
      · next hrange =>
          cases h
          simp only [Bool.or_eq_true, not_or, Bool.not_eq_true', Bool.not_eq_false,
            List.all_eq_true, decide_eq_true_eq, not_not] at hregion hrange
          obtain ⟨⟨hsequence, hlow⟩, hhigh⟩ := hrange
          exact ⟨rfl, ⟨hregion.1, hregion.2, hbirthday, Nat.not_le.mp hsequence⟩,
            Int.not_lt.mp hlow, Int.not_lt.mp hhigh⟩

theorem Proper.ofText?_body (h : n.Proper) (hlow : 0 ≤ n.birthday.year)
    (hhigh : n.birthday.year ≤ 9999) (rest : Text) : ofText? (n.body ++ rest) = some n := by
  obtain ⟨-, -, -, hmonths, -, hdays⟩ := h.birthday
  have hlength := monthLength_le n.birthday.year n.birthday.month
  have hhundred : Nat.pow 10 2 = 100 := rfl
  have hmyriad : Nat.pow 10 4 = 10000 := rfl
  have hyear (rest : Text) : Text.digits? 4 (yearText n.birthday.year ++ rest) =
      some (n.birthday.year.natAbs, rest) := by
    rw [yearText_eq_padded hlow hhigh]
    exact Text.digits?_ofNatPadded (by decide) (by omega) rest
  have hmonth := Text.digits?_ofNatPadded (by decide : 0 < 2)
    (by omega : n.birthday.month < Nat.pow 10 2)
  have hday := Text.digits?_ofNatPadded (by decide : 0 < 2)
    (by omega : n.birthday.day < Nat.pow 10 2)
  have hsequence := Text.digits?_ofNatPadded (by decide : 0 < 3) h.sequence
  have hbirthday : Date.of? n.birthday.year.natAbs n.birthday.month n.birthday.day =
      some n.birthday := by
    rw [Int.natAbs_of_nonneg hlow]
    exact Date.of?_of_isValid h.birthday
  simp only [ofText?, body, List.append_assoc, List.drop_left' h.length, List.take_left' h.length,
    hyear, hmonth, hday, hsequence, hbirthday, Option.bind_eq_bind, Option.bind_some]
  rfl

theorem ofText?_text (hbirthday : birthday.IsValid)
    (h : make region birthday sequence = .ok n) : ofText? n.text = some n := by
  obtain ⟨-, hproper, hlow, hhigh⟩ := proper_of_make hbirthday h
  obtain ⟨check, htext⟩ := n.body_prefix_text
  rw [← htext]
  exact hproper.ofText?_body hlow hhigh check

/-- A number that was made has eighteen characters and passes; its region, birthday
and sequence can be read off them; and no other number that was made has the same
characters. -/
theorem make_legible (hbirthday : birthday.IsValid)
    (h : make region birthday sequence = .ok n) :
    n = ⟨region, birthday, sequence⟩ ∧ n.text.length = 18 ∧ isValid n.text = true ∧
      ofText? n.text = some n ∧
      ∀ (region' : Text) (birthday' : Date) (sequence' : Nat) (m : IdentityNumber),
        birthday'.IsValid → make region' birthday' sequence' = .ok m →
          m.text = n.text → m = n := by
  obtain ⟨hparts, hproper, hlow, hhigh⟩ := proper_of_make hbirthday h
  have hwell := wellFormed_text (hproper.isBody hlow hhigh)
  have hread := ofText?_text hbirthday h
  refine ⟨hparts, hwell.length, endsInCheck_iff.mp (wellFormed_iff.mp hwell).1, hread, ?_⟩
  intro region' birthday' sequence' m hbirthday' hm hsame
  have hread' := ofText?_text hbirthday' hm
  rw [hsame, hread] at hread'
  exact (Option.some.inj hread').symm

/-- Zeros in every field, on a 29th of February of year zero. -/
theorem make_legible_leap_day_of_year_zero :
    let birthday : Date := ⟨0, 2, 29⟩
    let n : IdentityNumber := ⟨"000001".toList, birthday, 7⟩
    birthday.IsValid ∧ make "000001".toList birthday 7 = .ok n ∧
      n.text = "00000100000229007X".toList ∧ ofText? n.text = some n := by
  intro birthday n
  have hbirthday : birthday.IsValid := by decide
  have hmade : make "000001".toList birthday 7 = .ok n := by decide
  exact ⟨hbirthday, hmade, by decide, (make_legible hbirthday hmade).2.2.2.1⟩

end IdentityNumber

end RequestBook
