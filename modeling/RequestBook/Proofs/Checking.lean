import Mathlib.Algebra.BigOperators.Group.Finset.Basic
import RequestBook.IdentityNumber

/-!
# What passes for an identity number

A well-formed identity number is seventeen digits and their check character
(`WellFormed`). Of the codes with eighteen characters the check accepts those
and no others, but it never counts the characters: it reads the seventeen at
the front and the one at the end (`isValid_iff_endsInCheck`). So a code may
have anything between the two, and in a code of seventeen digits the last
one, if it happens to be right, is taken for the check character.

The check character is described by the sum of the digits times their
weights over the places `0` to `16`; that the recursion through the two lists
makes that sum is `weightedSum_eq_sum`.
-/

namespace RequestBook.IdentityNumber

open Finset

/-- The sum, over the places of an identity number, of the digit there times
the weight of the place. -/
def placeSum (digits : Text) : Nat :=
  ∑ i ∈ range 17, weights.getD i 0 * Text.digitValue (digits.getD i '0')

/-- The check character of seventeen digits. -/
def checkCharacter? (digits : Text) : Option Char := checkCharacters[placeSum digits % 11]?

/-- Seventeen digits. -/
structure IsBody (digits : Text) : Prop where
  length : digits.length = 17
  digits : ∀ c ∈ digits, c.isDigit = true

/-- An identity number as it should be: eighteen characters, of which the
first seventeen are digits and the last is their check character. -/
structure WellFormed (code : Text) : Prop where
  length : code.length = 18
  body : IsBody (code.take 17)
  check : code[17]? = checkCharacter? (code.take 17)

/-- A code that begins with seventeen digits and ends with their check
character, however long it is. -/
structure EndsInCheck (code : Text) : Prop where
  body : IsBody (code.take 17)
  check : code.getLast? = checkCharacter? (code.take 17)

/-! ## The check character -/

theorem weightedSum_eq_sum : ∀ (ws : List Nat) (code : Text),
    weightedSum ws code
      = ∑ i ∈ range (min ws.length code.length),
          ws.getD i 0 * Text.digitValue (code.getD i '0')
  | [], code => by simp [weightedSum]
  | w :: ws, [] => by simp [weightedSum]
  | w :: ws, c :: code => by
      rw [weightedSum, weightedSum_eq_sum ws code, List.length_cons, List.length_cons,
        Nat.succ_min_succ, sum_range_succ']
      simp only [List.getD_cons_succ, List.getD_cons_zero]
      rw [Nat.mul_comm w, Nat.add_comm]

theorem weightedSum_weights {digits : Text} (h : IsBody digits) :
    weightedSum weights digits = placeSum digits := by
  rw [weightedSum_eq_sum, h.length]
  rfl

/-- There is a check character for every remainder. -/
theorem exists_checkCharacter (digits : Text) :
    ∃ c, checkCharacter? digits = some c := by
  have h : placeSum digits % 11 < checkCharacters.length := Nat.mod_lt _ (by decide)
  exact ⟨checkCharacters[placeSum digits % 11], List.getElem?_eq_getElem h⟩

theorem isBody_iff {digits : Text} :
    IsBody digits ↔ (digits.length = weights.length && digits.all Char.isDigit) = true := by
  rw [Bool.and_eq_true, decide_eq_true_iff, List.all_eq_true]
  exact ⟨fun h => ⟨h.length, h.digits⟩, fun h => ⟨h.1, h.2⟩⟩

/-- The checksum of a code is the check character of its first seventeen
characters if these are digits, and else there is none. -/
theorem checksum_eq_ok_iff {code : Text} {c : Char} :
    checksum code = .ok c ↔
      IsBody (code.take 17) ∧ checkCharacter? (code.take 17) = some c := by
  have hw : weights.length = 17 := rfl
  rw [checksum]
  split
  · next h =>
      have hbody : IsBody (code.take 17) := isBody_iff.mpr h
      obtain ⟨check, hcheck⟩ := exists_checkCharacter (code.take 17)
      rw [hw, weightedSum_weights hbody, ← checkCharacter?, hcheck]
      simp [hbody]
  · next h =>
      have hbody : ¬IsBody (code.take 17) := fun hb => h (isBody_iff.mp hb)
      simp [hbody]

/-! ## The whole code -/

theorem isValid_iff_exists {code : Text} :
    isValid code = true ↔ ∃ c, checksum code = .ok c ∧ code.getLast? = some c := by
  rw [isValid]
  cases checksum code with
  | ok check => simp
  | error e => simp

theorem endsInCheck_iff {code : Text} : EndsInCheck code ↔ isValid code = true := by
  rw [isValid_iff_exists]
  constructor
  · rintro ⟨hbody, hcheck⟩
    obtain ⟨c, hc⟩ := exists_checkCharacter (code.take 17)
    exact ⟨c, checksum_eq_ok_iff.mpr ⟨hbody, hc⟩, hcheck.trans hc⟩
  · rintro ⟨c, hok, hlast⟩
    obtain ⟨hbody, hc⟩ := checksum_eq_ok_iff.mp hok
    exact ⟨hbody, hlast.trans hc.symm⟩

/-- At eighteen characters the last one is the eighteenth. -/
theorem wellFormed_iff {code : Text} :
    WellFormed code ↔ EndsInCheck code ∧ code.length = 18 := by
  constructor
  · rintro ⟨hlen, hbody, hcheck⟩
    exact ⟨⟨hbody, by rw [List.getLast?_eq_getElem?, hlen]; exact hcheck⟩, hlen⟩
  · rintro ⟨⟨hbody, hcheck⟩, hlen⟩
    rw [List.getLast?_eq_getElem?, hlen] at hcheck
    exact ⟨hlen, hbody, hcheck⟩

/-- A code passes if and only if it begins with seventeen digits and ends with
their check character. So the well-formed identity numbers are the codes of
eighteen characters that pass. -/
theorem isValid_iff_endsInCheck (code : Text) :
    (isValid code = true ↔ EndsInCheck code) ∧
      (WellFormed code ↔ isValid code = true ∧ code.length = 18) :=
  ⟨endsInCheck_iff.symm, by rw [wellFormed_iff, endsInCheck_iff]⟩

/-- A code without a check character passes if its last digit happens to be
what the check character would be. -/
theorem bare_digits_pass :
    isValid "11010520000229009".toList = true ∧ ¬WellFormed "11010520000229009".toList :=
  ⟨by decide, fun h => absurd h.length (by decide)⟩

example : isValid "11010519491231002 of 1949 X".toList = true := by decide

end RequestBook.IdentityNumber
