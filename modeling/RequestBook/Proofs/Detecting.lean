import Mathlib.Data.List.GetD
import Mathlib.RingTheory.Int.Basic
import RequestBook.Proofs.Checking
import RequestBook.Proofs.Digits

/-!
# One slip in an identity number is noticed

Two slips are made when a number is copied out: a character is wrong, or two
neighbours have changed places. Neither makes one good number into another
(`isValid_notices`).

The check character may be taken for an eighteenth digit of weight one, with
`X` for ten. Then the characters times their weights add up to one modulo
eleven, and that, with the right kind of character at every place, is all there
is to a good number (`isValid_iff_codeSum`). A wrong character changes the sum
by a weight times the difference of two digits; a change of places, by the
difference of two neighbouring weights times such a difference. Eleven is prime
and divides none of these weights and none of their differences, the check
character's among them, and the difference of two digits only when it is zero.
-/

namespace RequestBook.IdentityNumber

open Finset

/-- What a character counts, `X` being ten. -/
def checkValue (c : Char) : Nat := if c = 'X' then 10 else Text.digitValue c

/-- The weight of each place, that of the check character being one. -/
def placeWeight (i : Nat) : Nat := (weights ++ [1]).getD i 0

/-- A character that can stand at a place: a digit, and `X` at the last. -/
def Fits (i : Nat) (c : Char) : Prop := c.isDigit = true ∨ (i = 17 ∧ c = 'X')

/-- The sum of all eighteen characters times their weights. -/
def codeSum (code : Text) : Nat :=
  ∑ i ∈ range 18, placeWeight i * checkValue (code.getD i '0')

/-- Codes that differ in one character. -/
def OneWrong (code other : Text) : Prop :=
  ∃ before c d after, c ≠ d ∧ code = before ++ c :: after ∧ other = before ++ d :: after

/-- Codes of which one has two different neighbours of the other in each
other's place. -/
def TwoSwapped (code other : Text) : Prop :=
  ∃ before c d after, c ≠ d ∧
    code = before ++ c :: d :: after ∧ other = before ++ d :: c :: after

/-! ## Characters and what they count -/

theorem checkValue_digit {c : Char} (h : c.isDigit = true) :
    checkValue c = Text.digitValue c := by
  rw [checkValue, if_neg]
  rintro rfl
  exact absurd h (by decide)

/-- The value of a character tells which it is. -/
theorem Fits.cases_value {i : Nat} {c : Char} (h : Fits i c) :
    (checkValue c < 10 ∧ c.toNat = checkValue c + 48) ∨ (checkValue c = 10 ∧ c = 'X') := by
  rcases h with hdigit | ⟨-, rfl⟩
  · have hbounds := Text.isDigit_iff.mp hdigit
    have hzero : '0'.toNat = 48 := rfl
    rw [checkValue_digit hdigit, Text.digitValue]
    omega
  · exact .inr ⟨rfl, rfl⟩

theorem Fits.value_lt {i : Nat} {c : Char} (h : Fits i c) : checkValue c < 11 := by
  rcases h.cases_value with ⟨hlt, -⟩ | ⟨hten, -⟩
  · omega
  · omega

theorem Fits.eq_of_value {i j : Nat} {c d : Char} (hc : Fits i c) (hd : Fits j d)
    (h : checkValue c = checkValue d) : c = d := by
  rcases hc.cases_value with ⟨hlt, hcode⟩ | ⟨hten, rfl⟩
  · rcases hd.cases_value with ⟨-, hcode'⟩ | ⟨hten', -⟩
    · exact Char.toNat_inj.mp (by omega)
    · omega
  · rcases hd.cases_value with ⟨hlt', -⟩ | ⟨-, rfl⟩
    · omega
    · rfl

/-- The check character is the one that brings the sum to one. -/
theorem checkCharacter?_eq_some_iff {digits : Text} {c : Char} :
    checkCharacter? digits = some c ↔
      Fits 17 c ∧ (placeSum digits + checkValue c) % 11 = 1 := by
  have htable : ∀ r : Fin 11, checkCharacters[r.val]? = some (checkCharacters.getD r.val '0') ∧
      Fits 17 (checkCharacters.getD r.val '0') ∧
      (r.val + checkValue (checkCharacters.getD r.val '0')) % 11 = 1 := by
    simp only [Fits]
    decide
  have hr : placeSum digits % 11 < 11 := Nat.mod_lt _ (by decide)
  obtain ⟨hcheck, hfits, hsum⟩ := htable ⟨placeSum digits % 11, hr⟩
  generalize checkCharacters.getD _ '0' = check at hcheck hfits hsum
  rw [checkCharacter?, hcheck, Option.some.injEq]
  constructor
  · rintro rfl
    exact ⟨hfits, by simpa using hsum⟩
  · rintro ⟨hc, hsum'⟩
    have hlt := hfits.value_lt
    have hlt' := hc.value_lt
    simp only [Nat.mod_add_mod] at hsum
    exact hfits.eq_of_value hc (by omega)

/-! ## The whole code as one sum -/

theorem isBody_take_iff {code : Text} (hlen : code.length = 18) :
    IsBody (code.take 17) ↔ ∀ i < 17, Char.isDigit (code.getD i '0') = true := by
  have htake : (code.take 17).length = 17 := by rw [List.length_take, hlen]; rfl
  have hplace : ∀ i (hi : i < (code.take 17).length), (code.take 17)[i] = code.getD i '0' := by
    intro i hi
    rw [List.getElem_take, List.getD_eq_getElem]
  constructor
  · intro h i hi
    have hi : i < (code.take 17).length := htake.symm ▸ hi
    exact hplace i hi ▸ h.digits _ (List.getElem_mem hi)
  · intro h
    refine ⟨htake, List.forall_mem_iff_forall_getElem.mpr fun i hi => ?_⟩
    rw [hplace i hi]
    exact h i (htake ▸ hi)

theorem codeSum_eq {code : Text} (hdigits : ∀ i < 17, Char.isDigit (code.getD i '0') = true) :
    codeSum code = placeSum (code.take 17) + checkValue (code.getD 17 '0') := by
  have hplace : ∀ i ∈ range 17, placeWeight i * checkValue (code.getD i '0') =
      weights.getD i 0 * Text.digitValue ((code.take 17).getD i '0') := by
    intro i hi
    rw [mem_range] at hi
    rw [placeWeight, List.getD_append _ _ _ _ (show i < weights.length from hi),
      checkValue_digit (hdigits i hi)]
    simp only [List.getD_eq_getElem?_getD, List.getElem?_take_of_lt hi]
  have hlast : placeWeight 17 = 1 := rfl
  rw [codeSum, sum_range_succ, sum_congr rfl hplace, hlast, Nat.one_mul, placeSum]

theorem fits_iff {code : Text} :
    (∀ i < 18, Fits i (code.getD i '0')) ↔
      (∀ i < 17, Char.isDigit (code.getD i '0') = true) ∧ Fits 17 (code.getD 17 '0') := by
  constructor
  · intro h
    refine ⟨fun i hi => (h i (by omega)).resolve_right ?_, h 17 (by decide)⟩
    rintro ⟨rfl, -⟩
    omega
  · rintro ⟨hdigits, hlast⟩ i hi
    rcases Nat.lt_succ_iff_lt_or_eq.mp hi with hi | rfl
    · exact .inl (hdigits i hi)
    · exact hlast

/-- A code of eighteen characters passes exactly when each is of the right kind
and they add up to one modulo eleven. -/
theorem isValid_iff_codeSum {code : Text} (hlen : code.length = 18) :
    isValid code = true ↔
      (∀ i < 18, Fits i (code.getD i '0')) ∧ codeSum code % 11 = 1 := by
  have hwell : isValid code = true ↔ WellFormed code := by
    rw [wellFormed_iff, endsInCheck_iff, and_iff_left hlen]
  have hlast : code[17]? = some (code.getD 17 '0') := by
    rw [List.getD_eq_getElem _ _ (by omega), List.getElem?_eq_getElem]
  rw [hwell, fits_iff]
  constructor
  · rintro ⟨-, hbody, hcheck⟩
    rw [hlast, eq_comm, checkCharacter?_eq_some_iff] at hcheck
    have hdigits := (isBody_take_iff hlen).mp hbody
    exact ⟨⟨hdigits, hcheck.1⟩, codeSum_eq hdigits ▸ hcheck.2⟩
  · rintro ⟨⟨hdigits, hfits⟩, hsum⟩
    rw [codeSum_eq hdigits] at hsum
    exact ⟨hlen, (isBody_take_iff hlen).mpr hdigits,
      hlast.trans (checkCharacter?_eq_some_iff.mpr ⟨hfits, hsum⟩).symm⟩

/-- A character more or less at one place shows in the sum with its weight. -/
theorem codeSum_set (code : Text) {i : Nat} (hi : i < 18) (hcode : i < code.length) (c : Char) :
    (codeSum (code.set i c) : Int) =
      codeSum code + placeWeight i * (checkValue c - checkValue (code.getD i '0')) := by
  have hmem : i ∈ range 18 := mem_range.mpr hi
  have hothers : ∀ j ∈ (range 18).erase i, placeWeight j * checkValue ((code.set i c).getD j '0') =
      placeWeight j * checkValue (code.getD j '0') := by
    intro j hj
    rw [List.getD_eq_getElem?_getD, List.getElem?_set_ne (ne_of_mem_erase hj).symm,
      ← List.getD_eq_getElem?_getD]
  have hself : (code.set i c).getD i '0' = c := by
    rw [List.getD_eq_getElem?_getD, List.getElem?_set_self hcode]
    rfl
  rw [codeSum, codeSum, ← add_sum_erase _ _ hmem, ← add_sum_erase (range 18) _ hmem,
    sum_congr rfl hothers, hself]
  push_cast
  ring

/-! ## Slips -/

theorem eq_of_dvd_mul_sub {w : Int} {a b : Nat} (hw : ¬ (11 : Int) ∣ w) (ha : a < 11)
    (hb : b < 11) (h : (11 : Int) ∣ w * (a - b)) : a = b := by
  have hprime : Prime (11 : Int) := Int.prime_iff_natAbs_prime.mpr Nat.prime_eleven
  have hdvd : (11 : Int) ∣ a - b := (hprime.dvd_or_dvd h).resolve_left hw
  omega

theorem placeWeight_not_dvd {i : Nat} (hi : i < 18) : ¬ (11 : Int) ∣ placeWeight i := by
  have hall : ∀ k : Fin 18, ¬ (11 : Int) ∣ placeWeight k := by decide
  exact hall ⟨i, hi⟩

theorem placeWeight_sub_not_dvd {i : Nat} (hi : i < 17) :
    ¬ (11 : Int) ∣ placeWeight i - placeWeight (i + 1) := by
  have hall : ∀ k : Fin 17, ¬ (11 : Int) ∣ placeWeight k - placeWeight (k + 1) := by decide
  exact hall ⟨i, hi⟩

/-- In codes that both pass, what makes the one sum out of the other is
nothing: two characters that account for it are the same. -/
theorem eq_of_codeSum {code other : Text} {w : Int} {i j : Nat} {c d : Char}
    (hw : ¬ (11 : Int) ∣ w) (hc : Fits i c) (hd : Fits j d) (hcode : codeSum code % 11 = 1)
    (hother : codeSum other % 11 = 1)
    (hdiff : (codeSum other : Int) = codeSum code + w * (checkValue d - checkValue c)) :
    c = d := by
  refine hc.eq_of_value hd (eq_of_dvd_mul_sub hw hd.value_lt hc.value_lt ?_).symm
  omega

section Slips

variable {before after : Text} {c d : Char}

theorem getD_split : (before ++ c :: after).getD before.length '0' = c := by simp

theorem isValid_oneWrong (hne : c ≠ d) (hlen : (before ++ c :: after).length = 18)
    (hvalid : isValid (before ++ c :: after) = true) :
    isValid (before ++ d :: after) = false := by
  rw [← Bool.not_eq_true]
  intro hother
  have hi : before.length < 18 := by
    rw [List.length_append, List.length_cons] at hlen
    omega
  have hset : (before ++ c :: after).set before.length d = before ++ d :: after := by simp
  have hlen' : (before ++ d :: after).length = 18 := by rw [← hset, List.length_set, hlen]
  obtain ⟨hfits, hsum⟩ := (isValid_iff_codeSum hlen).mp hvalid
  obtain ⟨hfits', hsum'⟩ := (isValid_iff_codeSum hlen').mp hother
  have hdiff := codeSum_set (before ++ c :: after) hi (hlen.symm ▸ hi) d
  rw [hset, getD_split] at hdiff
  exact hne (eq_of_codeSum (placeWeight_not_dvd hi) (getD_split ▸ hfits _ hi)
    (getD_split ▸ hfits' _ hi) hsum hsum' hdiff)

theorem isValid_twoSwapped (hne : c ≠ d) (hlen : (before ++ c :: d :: after).length = 18)
    (hvalid : isValid (before ++ c :: d :: after) = true) :
    isValid (before ++ d :: c :: after) = false := by
  rw [← Bool.not_eq_true]
  intro hother
  have hi : before.length < 17 := by
    rw [List.length_append, List.length_cons, List.length_cons] at hlen
    omega
  have hset : (before ++ c :: d :: after).set before.length d = before ++ d :: d :: after := by
    simp
  have hset' : (before ++ d :: d :: after).set (before.length + 1) c =
      before ++ d :: c :: after := by simp
  have hnext : (before ++ d :: d :: after).getD (before.length + 1) '0' = d := by simp
  have hmid : (before ++ d :: d :: after).length = 18 := by rw [← hset, List.length_set, hlen]
  have hlen' : (before ++ d :: c :: after).length = 18 := by rw [← hset', List.length_set, hmid]
  obtain ⟨hfits, hsum⟩ := (isValid_iff_codeSum hlen).mp hvalid
  obtain ⟨hfits', hsum'⟩ := (isValid_iff_codeSum hlen').mp hother
  -- the two places change one after the other
  have hfirst := codeSum_set (before ++ c :: d :: after) (by omega : before.length < 18)
    (by omega) d
  have hsecond := codeSum_set (before ++ d :: d :: after)
    (by omega : before.length + 1 < 18) (by omega) c
  rw [hset, getD_split] at hfirst
  rw [hset', hnext, hfirst] at hsecond
  refine hne (eq_of_codeSum (placeWeight_sub_not_dvd hi)
    (getD_split ▸ hfits _ (by omega : before.length < 18))
    (getD_split ▸ hfits' _ (by omega : before.length < 18)) hsum hsum' ?_)
  rw [hsecond]
  ring

end Slips

/-- Of two codes with eighteen characters that differ by one wrong character, or
by two different neighbours that have changed places, at most one passes. -/
theorem isValid_notices {code other : Text} (hlen : code.length = 18)
    (hvalid : isValid code = true) (h : OneWrong code other ∨ TwoSwapped code other) :
    isValid other = false := by
  rcases h with ⟨before, c, d, after, hne, rfl, rfl⟩ | ⟨before, c, d, after, hne, rfl, rfl⟩
  · exact isValid_oneWrong hne hlen hvalid
  · exact isValid_twoSwapped hne hlen hvalid

/-- The check character is wrong, or has changed places with the digit before
it. -/
theorem isValid_notices_check_character :
    let code : Text := "11010519491231002X".toList
    let wrong : Text := "110105194912310021".toList
    let swapped : Text := "1101051949123100X2".toList
    code.length = 18 ∧ isValid code = true ∧
      (OneWrong code wrong ∧ isValid wrong = false) ∧
      (TwoSwapped code swapped ∧ isValid swapped = false) := by
  intro code wrong swapped
  have hlen : code.length = 18 := rfl
  have hvalid : isValid code = true := by decide
  have hwrong : OneWrong code wrong :=
    ⟨"11010519491231002".toList, 'X', '1', [], by decide, rfl, rfl⟩
  have hswapped : TwoSwapped code swapped :=
    ⟨"1101051949123100".toList, '2', 'X', [], by decide, rfl, rfl⟩
  exact ⟨hlen, hvalid, ⟨hwrong, isValid_notices hlen hvalid (.inl hwrong)⟩,
    hswapped, isValid_notices hlen hvalid (.inr hswapped)⟩

end RequestBook.IdentityNumber
