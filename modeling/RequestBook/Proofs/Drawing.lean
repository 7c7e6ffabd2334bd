import RequestBook.Proofs.Checking
import RequestBook.Proofs.Days
import RequestBook.Proofs.Digits

/-!
# Made-up identity numbers

An identity number that is made up has parts that an identity number can have
(`Proper`), whatever was drawn, and its birthday lies between the earliest one
and the present day, or is the earliest one if the present day comes before it.

What it can lack is a year of four digits. Nothing bounds the year of the
present day, and a year beyond 9999 is written with a sign and in five digits or
more, so that the number is too long and has a character among its first
seventeen that is no digit: there is no check character for it. That is the only
way to miss (`drawn_madeUp`), and while the present day itself has a year
of four digits nobody does.
-/

namespace RequestBook

theorem length_yearText {year : Int} (hlow : 0 ≤ year) (hhigh : year ≤ 9999) :
    (yearText year).length = 4 := by
  have hlt : year.natAbs < Nat.pow 10 4 := by
    have : Nat.pow 10 4 = 10000 := rfl
    omega
  rw [yearText, if_neg (by omega), if_neg (by omega)]
  exact Text.length_ofNatPadded_of_lt (by decide) hlt

theorem isDigit_of_mem_yearText {year : Int} (hlow : 0 ≤ year) (hhigh : year ≤ 9999) {c : Char}
    (h : c ∈ yearText year) : c.isDigit = true := by
  rw [yearText, if_neg (by omega), if_neg (by omega)] at h
  exact Text.isDigit_of_mem_ofNatPadded h

theorem head_yearText {year : Int} (h : 9999 < year) : ∃ digits, yearText year = '+' :: digits :=
  ⟨_, by rw [yearText, if_neg (by omega), if_pos h]⟩

theorem monthLength_le (year : Int) (month : Nat) : monthLength year month ≤ 31 := by
  rw [monthLength.eq_def]
  split
  · split <;> decide
  · decide
  · decide
  · decide
  · decide
  · decide

namespace IdentityNumber

/-- Parts that an identity number can be made from, the size of the year left
out. -/
structure Proper (n : IdentityNumber) : Prop where
  length : n.region.length = regionLength
  digits : ∀ c ∈ n.region, c.isDigit = true
  birthday : n.birthday.IsValid
  sequence : n.sequence < sequenceLimit

/-- What holds of an identity number that was made up on a day. -/
structure MadeUp (today : Date) (n : IdentityNumber) : Prop where
  proper : n.Proper
  notBefore : earliestBirthday.NotAfter n.birthday
  notAfter : n.birthday.NotAfter today ∨ n.birthday.NotAfter earliestBirthday
  made_iff : make n.region n.birthday n.sequence = .ok n ↔ n.birthday.year ≤ 9999
  passes_iff : n.text.length = 18 ∧ isValid n.text = true ↔ n.birthday.year ≤ 9999
  year_le : today.year ≤ 9999 → n.birthday.year ≤ 9999

/-! ## The text of a number -/

section Text

variable {n : IdentityNumber}

theorem Proper.make_eq_ok_iff (h : n.Proper) :
    make n.region n.birthday n.sequence = .ok n ↔
      0 ≤ n.birthday.year ∧ n.birthday.year ≤ 9999 := by
  have hregion :
      (decide (n.region.length ≠ regionLength) || !n.region.all Char.isDigit) = false := by
    rw [List.all_eq_true.mpr h.digits, h.length]
    rfl
  have hsequence : decide (n.sequence ≥ sequenceLimit) = false :=
    decide_eq_false (Nat.not_le.mpr h.sequence)
  rw [make, hregion, if_neg Bool.false_ne_true, hsequence, Bool.false_or]
  split
  · next hyear =>
      rw [Bool.or_eq_true, decide_eq_true_eq, decide_eq_true_eq] at hyear
      simp only [reduceCtorEq, false_iff]
      omega
  · next hyear =>
      rw [Bool.or_eq_true, decide_eq_true_eq, decide_eq_true_eq] at hyear
      simp only [true_iff]
      omega

/-- Six digits, four, two, two and three. -/
theorem Proper.isBody (h : n.Proper) (hlow : 0 ≤ n.birthday.year)
    (hhigh : n.birthday.year ≤ 9999) : IsBody n.body := by
  obtain ⟨-, -, -, hmonth, -, hday⟩ := h.birthday
  have hmonths := monthLength_le n.birthday.year n.birthday.month
  have hhundred : Nat.pow 10 2 = 100 := rfl
  refine ⟨?_, fun c hc => ?_⟩
  · have hyear := length_yearText hlow hhigh
    have hmonth : (Text.ofNatPadded 2 n.birthday.month).length = 2 :=
      Text.length_ofNatPadded_of_lt (by decide) (by omega)
    have hday : (Text.ofNatPadded 2 n.birthday.day).length = 2 :=
      Text.length_ofNatPadded_of_lt (by decide) (by omega)
    have hsequence : (Text.ofNatPadded 3 n.sequence).length = 3 :=
      Text.length_ofNatPadded_of_lt (by decide) h.sequence
    simp only [body, List.length_append, h.length, hyear, hmonth, hday, hsequence]
    rfl
  · simp only [body, List.mem_append] at hc
    rcases hc with (((hc | hc) | hc) | hc) | hc
    · exact h.digits c hc
    · exact isDigit_of_mem_yearText hlow hhigh hc
    · exact Text.isDigit_of_mem_ofNatPadded hc
    · exact Text.isDigit_of_mem_ofNatPadded hc
    · exact Text.isDigit_of_mem_ofNatPadded hc

theorem wellFormed_text (h : IsBody n.body) : WellFormed n.text := by
  have htake : n.body.take 17 = n.body := List.take_of_length_le (Nat.le_of_eq h.length)
  obtain ⟨c, hc⟩ := exists_checkCharacter n.body
  have hok : checksum n.body = .ok c := checksum_eq_ok_iff.mpr (by rw [htake]; exact ⟨h, hc⟩)
  have htext : n.text = n.body ++ [c] := by rw [text, hok]
  have hfront : n.text.take 17 = n.body := by rw [htext, ← h.length, List.take_left]
  refine ⟨by rw [htext, List.length_append, h.length]; rfl, hfront.symm ▸ h, ?_⟩
  rw [hfront, hc, htext, ← h.length, List.getElem?_concat_length]

theorem body_prefix_text (n : IdentityNumber) : n.body <+: n.text := by
  rw [text]
  split
  · exact List.prefix_append _ _
  · exact List.prefix_refl _

/-- The sign before a year beyond 9999 is no digit. -/
theorem Proper.not_isValid_text (h : n.Proper) (hyear : 9999 < n.birthday.year) :
    isValid n.text = false := by
  obtain ⟨digits, hdigits⟩ := head_yearText hyear
  obtain ⟨rest, hrest⟩ := body_prefix_text n
  have hsign : '+' ∈ n.text.take 17 := by
    rw [← hrest, body, hdigits]
    simp only [List.append_assoc, List.cons_append]
    rw [List.take_append, h.length]
    exact List.mem_append_right _ List.mem_cons_self
  rw [← Bool.not_eq_true, ← endsInCheck_iff]
  intro hvalid
  exact absurd (hvalid.body.digits _ hsign) (by decide)

end Text

/-! ## Draws -/

section Draws

variable (draws : Draws) (today : Date)

theorem drawn_region :
    (drawn draws today).region.length = regionLength ∧
      ∀ c ∈ (drawn draws today).region, c.isDigit = true := by
  have hpart : ∀ part, (Text.ofNatPadded 2 (draws.below part 100)).length = 2 := fun part =>
    Text.length_ofNatPadded_of_lt (by decide) (Nat.mod_lt _ (by decide))
  constructor
  · simp only [drawn, List.length_flatMap, List.map_cons, List.map_nil, hpart]
    rfl
  · intro c hc
    obtain ⟨part, -, hc⟩ := List.mem_flatMap.mp hc
    exact Text.isDigit_of_mem_ofNatPadded hc

/-- The birthday is as many days after the earliest one as were drawn. -/
theorem drawn_birthday :
    (drawn draws today).birthday.IsValid ∧
      earliestBirthday.number ≤ (drawn draws today).birthday.number ∧
      ((drawn draws today).birthday.number ≤ today.number ∨
        (drawn draws today).birthday.number ≤ earliestBirthday.number) := by
  have hvalid : earliestBirthday.IsValid := by decide
  have hspan : draws.below 3 ((today.number - earliestBirthday.number).toNat + 1) <
      (today.number - earliestBirthday.number).toNat + 1 := Nat.mod_lt _ (Nat.succ_pos _)
  simp only [drawn]
  generalize draws.below 3 ((today.number - earliestBirthday.number).toNat + 1) = days at hspan
  cases hfound : earliestBirthday.addDays? days with
  | none => exact ⟨hvalid, Int.le_refl _, .inr (Int.le_refl _)⟩
  | some d =>
      obtain ⟨hd, hnumber⟩ := Date.ofNumber?_eq_some_iff.mp hfound
      refine ⟨hd, ?_, ?_⟩
      · rw [Option.getD_some]
        omega
      · rw [Option.getD_some]
        omega

theorem drawn_proper : (drawn draws today).Proper where
  length := (drawn_region draws today).1
  digits := (drawn_region draws today).2
  birthday := (drawn_birthday draws today).1
  sequence := Nat.mod_lt _ (by decide)

end Draws

/-- A number made up on a day has its parts in their ranges. It is one that
could be made from its parts, and has eighteen characters that pass, exactly
when its birthday has a year of four digits, which it has whenever the day does. -/
theorem drawn_madeUp (draws : Draws) {today : Date} (htoday : today.IsValid) :
    MadeUp today (drawn draws today) := by
  have hproper := drawn_proper draws today
  obtain ⟨hvalid, hearliest, hlatest⟩ := drawn_birthday draws today
  have hfirst : earliestBirthday.IsProper := (Date.isValid_iff.mp (by decide)).2
  have hbirthday := (Date.isValid_iff.mp hvalid).2
  have hday := (Date.isValid_iff.mp htoday).2
  rw [← Date.notAfter_iff hfirst hbirthday] at hearliest
  rw [← Date.notAfter_iff hbirthday hday, ← Date.notAfter_iff hbirthday hfirst] at hlatest
  have hearly : earliestBirthday.year ≤ (drawn draws today).birthday.year := hearliest.year_le
  have hcentury : earliestBirthday.year = 1900 := rfl
  refine ⟨hproper, hearliest, hlatest, ?_, ?_, fun hyear => ?_⟩
  · rw [hproper.make_eq_ok_iff, and_iff_right (by omega)]
  · constructor
    · rintro ⟨-, hpasses⟩
      by_contra hyear
      rw [hproper.not_isValid_text (by omega)] at hpasses
      cases hpasses
    · intro hyear
      have hwell := wellFormed_text (hproper.isBody (by omega) hyear)
      exact ⟨hwell.length, endsInCheck_iff.mp (wellFormed_iff.mp hwell).1⟩
  · rcases hlatest with hlatest | hlatest
    · exact Int.le_trans hlatest.year_le hyear
    · have := hlatest.year_le
      omega

/-- On the last day of the calendar, a birthday early enough. -/
theorem drawn_madeUp_on_last_day :
    let n := drawn (fun _ => 1000) Date.last
    Date.last.IsValid ∧ MadeUp Date.last n ∧ n.birthday = ⟨1902, 9, 28⟩ := by
  intro n
  have hlast : Date.last.IsValid := by decide
  exact ⟨hlast, drawn_madeUp _ hlast, by decide +kernel⟩

/-- A birthday in a year of five digits. -/
theorem drawn_beyond_four_digits :
    let today : Date := ⟨99999, 12, 31⟩
    let n := drawn (fun _ => 35000000) today
    today.IsValid ∧ n.text = "000000+977260930000".toList ∧
      make n.region n.birthday n.sequence ≠ .ok n ∧
      ¬ (n.text.length = 18 ∧ isValid n.text = true) := by
  decide +kernel

end IdentityNumber

end RequestBook
