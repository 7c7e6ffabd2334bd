import RequestBook.Expression.Operand
import RequestBook.Proofs.Digits
import RequestBook.Proofs.Tidying

/-!
# An operand is read as what it counts

There are three ways for a text to be no operand and two complaints about it. A
text that is no number with letters behind it, and one whose number is too large,
are refused as a whole; letters that name no unit are complained of alone, and only
where the number before them fits. `Means` says what a text is answered by what it
counts, a number and the letters behind it, and `parse_counted` that it gets this
answer and has no other.

A text counts one thing at most. The digits of the number are all digits at its
head, as neither a blank nor a letter is a digit, and the letters are all that is
left behind the blanks, as no letter is a blank (`counts_iff`). Zeros in front of a
number change nothing, and digits of other scripts are no digits, not even behind
some that are.
-/

namespace RequestBook

theorem dropWhile_append_stop {α : Type} {p : α → Bool} {inside rest : List α}
    (hinside : ∀ x ∈ inside, p x = true) (hstop : ∀ x, rest.head? = some x → p x = false) :
    (inside ++ rest).dropWhile p = rest := by
  rw [List.dropWhile_append_of_pos hinside]
  cases rest with
  | nil => rfl
  | cons x rest => rw [List.dropWhile_cons_of_neg (by simp [hstop x rfl])]

namespace Text

theorem isAlpha_iff {c : Char} :
    c.isAlpha = true ↔ (65 ≤ c.toNat ∧ c.toNat ≤ 90) ∨ (97 ≤ c.toNat ∧ c.toNat ≤ 122) := by
  have hranges : c.isAlpha = (decide (c.val ≥ 'A'.val ∧ c.val ≤ 'Z'.val) ||
      decide (c.val ≥ 'a'.val) && decide (c.val ≤ 'z'.val)) := rfl
  rw [hranges, Bool.or_eq_true, Bool.and_eq_true, decide_eq_true_eq, decide_eq_true_eq,
    decide_eq_true_eq]
  simp only [ge_iff_le, UInt32.le_iff_toNat_le]
  rfl

theorem not_isBlank_of_visible {c : Char} (hlow : 32 < c.toNat) (hhigh : c.toNat < 127) :
    isBlank c = false := by
  rw [← Bool.not_eq_true, isBlank]
  simp only [Bool.or_eq_true, Bool.and_eq_true, decide_eq_true_eq, beq_iff_eq]
  omega

theorem not_isBlank_of_isDigit {c : Char} (h : c.isDigit = true) : isBlank c = false := by
  rw [isDigit_iff] at h
  exact not_isBlank_of_visible (by omega) (by omega)

theorem not_isBlank_of_isAlpha {c : Char} (h : c.isAlpha = true) : isBlank c = false := by
  rw [isAlpha_iff] at h
  exact not_isBlank_of_visible (by omega) (by omega)

theorem not_isDigit_of_isAlpha {c : Char} (h : c.isAlpha = true) : c.isDigit = false := by
  rw [isAlpha_iff] at h
  rw [← Bool.not_eq_true, isDigit_iff]
  omega

theorem not_isDigit_of_isBlank {c : Char} (h : isBlank c = true) : c.isDigit = false := by
  rw [← Bool.not_eq_true]
  intro hdigit
  rw [not_isBlank_of_isDigit hdigit] at h
  cases h

theorem ofNatPadded_ne_nil (width n : Nat) : ofNatPadded width n ≠ [] :=
  List.append_ne_nil_of_right_ne_nil _ (ofNat_ne_nil n)

/-- Every run of digits is a number with some zeros in front. -/
theorem eq_ofNatPadded {digits : Text} (hne : digits ≠ [])
    (hdigits : ∀ c ∈ digits, c.isDigit = true) :
    digits = ofNatPadded digits.length (natOfDigits digits) :=
  (zeroPadded_iff (List.length_pos_of_ne_nil hne)).mp
    ⟨hdigits, rfl, Nat.le_refl _, fun h => absurd h (Nat.lt_irrefl _)⟩

theorem natOfDigits_append (s t : Text) :
    natOfDigits (s ++ t) = Nat.pow 10 t.length * natOfDigits s + natOfDigits t := by
  rw [natOfDigits_eq, Nat.ofDigitChars_append]
  exact Nat.ofDigitChars_eq_ofDigitChars_zero

end Text

theorem fitsWord_ofNat_iff {n : Nat} : FitsWord n ↔ n < 0x8000000000000000 := by
  rw [FitsWord]
  omega

namespace TimeUnit

theorem mem_all (unit : TimeUnit) : unit ∈ all := by
  cases unit <;> decide

theorem ofSymbol?_symbol (unit : TimeUnit) : ofSymbol? unit.symbol = some unit := by
  cases unit <;> rfl

theorem symbol_of_ofSymbol? {t : Text} {unit : TimeUnit} (h : ofSymbol? t = some unit) :
    unit.symbol = t := by
  simpa using List.find?_some h

theorem ofSymbol?_eq_none_iff {t : Text} :
    ofSymbol? t = none ↔ ∀ unit : TimeUnit, unit.symbol ≠ t := by
  rw [ofSymbol?, List.find?_eq_none]
  exact ⟨fun h unit => by simpa using h unit (mem_all unit), fun h unit _ => by simpa using h unit⟩

theorem symbol_ne_nil (unit : TimeUnit) : unit.symbol ≠ [] := by
  cases unit <;> decide

theorem isAlpha_symbol (unit : TimeUnit) : ∀ c ∈ unit.symbol, c.isAlpha = true := by
  rw [← List.all_eq_true]
  cases unit <;> rfl

end TimeUnit

namespace Operand

/-- A text that counts something: the digits of a number that fits 64 bits, with
zeros in front up to any width, then blanks, then the letters of what is counted. -/
inductive Counts (amount : Nat) (letters : Text) : Text → Prop
  | intro (width : Nat) {blanks : Text} (hfits : amount < 0x8000000000000000)
      (hblanks : Text.allBlank blanks = true) (hletters : ∀ c ∈ letters, c.isAlpha = true) :
      Counts amount letters (Text.ofNatPadded width amount ++ (blanks ++ letters))

/-- What a text without blanks at its ends is answered, by what it counts. -/
inductive Means (t : Text) : Except EvalError Operand → Prop
  | bare {amount : Nat} (h : Counts amount [] t) : Means t (.ok ⟨amount, none⟩)
  | measured {amount : Nat} {unit : TimeUnit} (h : Counts amount unit.symbol t) :
      Means t (.ok ⟨amount, some unit⟩)
  | unknown {amount : Nat} {letters : Text} (h : Counts amount letters t) (hsome : letters ≠ [])
      (hunit : ∀ unit : TimeUnit, unit.symbol ≠ letters) :
      Means t (.error (.unknownUnit letters))
  | refused (h : ∀ amount letters, ¬ Counts amount letters t) : Means t (.error (.badOperand t))

variable {amount : Nat} {letters t input : Text}

/-! ## One thing at most -/

theorem counts_iff : Counts amount letters t ↔
    t.takeWhile Char.isDigit ≠ [] ∧ Text.natOfDigits (t.takeWhile Char.isDigit) = amount ∧
      FitsWord amount ∧ Text.trimStart (t.dropWhile Char.isDigit) = letters ∧
      ∀ c ∈ letters, c.isAlpha = true := by
  simp only [fitsWord_ofNat_iff]
  constructor
  · rintro @⟨width, blanks, hfits, hblanks, hletters⟩
    have hdigits : ∀ c ∈ Text.ofNatPadded width amount, c.isDigit = true :=
      fun _ => Text.isDigit_of_mem_ofNatPadded
    -- the run of digits ends where the number does
    have hstop : ∀ c, (blanks ++ letters).head? = some c → c.isDigit = false := by
      intro c hc
      rcases List.mem_append.mp (List.mem_of_head? hc) with hc | hc
      · exact Text.not_isDigit_of_isBlank (List.all_eq_true.mp hblanks c hc)
      · exact Text.not_isDigit_of_isAlpha (hletters c hc)
    have hstart : Text.trimStart letters = letters :=
      Text.trimStart_eq_self_iff.mpr fun c hc =>
        Text.not_isBlank_of_isAlpha (hletters c (List.mem_of_head? hc))
    rw [takeWhile_append_stop hdigits hstop, dropWhile_append_stop hdigits hstop,
      Text.natOfDigits_ofNatPadded, Text.trimStart_blanks_append hblanks, hstart]
    exact ⟨Text.ofNatPadded_ne_nil width amount, rfl, hfits, rfl, hletters⟩
  · rintro ⟨hne, rfl, hfits, rfl, hletters⟩
    have hdigits : ∀ c ∈ t.takeWhile Char.isDigit, c.isDigit = true :=
      fun _ => List.mem_takeWhile_imp
    have hblanks : Text.allBlank ((t.dropWhile Char.isDigit).takeWhile Text.isBlank) = true :=
      List.all_takeWhile
    have h : Counts _ _ (Text.ofNatPadded (t.takeWhile Char.isDigit).length
        (Text.natOfDigits (t.takeWhile Char.isDigit)) ++ _) := .intro _ hfits hblanks hletters
    rw [← Text.eq_ofNatPadded hne hdigits] at h
    rw [Text.trimStart, List.takeWhile_append_dropWhile, List.takeWhile_append_dropWhile] at h
    exact h

/-- A text that counts something has no other characters than these. -/
theorem Counts.mem (h : Counts amount letters t) {c : Char} (hc : c ∈ t) :
    c.isDigit = true ∨ Text.isBlank c = true ∨ c.isAlpha = true := by
  obtain ⟨width, -, hblanks, hletters⟩ := h
  rcases List.mem_append.mp hc with hc | hc
  · exact .inl (Text.isDigit_of_mem_ofNatPadded hc)
  · rcases List.mem_append.mp hc with hc | hc
    · exact .inr (.inl (List.all_eq_true.mp hblanks c hc))
    · exact .inr (.inr (hletters c hc))

/-- What stands behind a number makes it no smaller. -/
theorem Counts.lt_of_append {width first : Nat} {rest : Text}
    (h : Counts amount letters (Text.ofNatPadded width first ++ rest)) :
    first < 0x8000000000000000 := by
  obtain ⟨-, hvalue, hfits, -, -⟩ := counts_iff.mp h
  rw [List.takeWhile_append_of_pos fun _ => Text.isDigit_of_mem_ofNatPadded,
    Text.natOfDigits_append, Text.natOfDigits_ofNatPadded] at hvalue
  rw [fitsWord_ofNat_iff] at hfits
  have hplace := Nat.le_mul_of_pos_left first
    (Nat.pow_pos (n := (rest.takeWhile Char.isDigit).length) (by decide : 0 < 10))
  calc
    first ≤ Nat.pow 10 (rest.takeWhile Char.isDigit).length * first := hplace
    _ ≤ amount := by omega
    _ < 0x8000000000000000 := hfits

/-! ## Answers -/

theorem Counts.parse_eq (h : Counts amount letters (Text.trim input)) :
    parse input =
      if letters.isEmpty then .ok ⟨amount, none⟩
      else
        match TimeUnit.ofSymbol? letters with
        | some unit => .ok ⟨amount, some unit⟩
        | none => .error (.unknownUnit letters) := by
  obtain ⟨hne, hvalue, hfits, hrest, hletters⟩ := counts_iff.mp h
  have hall : letters.all Char.isAlpha = true := List.all_eq_true.mpr hletters
  have hrun : ((Text.trim input).takeWhile Char.isDigit).isEmpty = false := by
    simpa using hne
  simp only [parse, hvalue, hrest, hall, hrun, hfits]
  rfl

theorem parse_of_not_counts (h : ∀ amount letters, ¬ Counts amount letters (Text.trim input)) :
    parse input = .error (.badOperand (Text.trim input)) := by
  rw [parse]
  refine if_pos ?_
  by_contra hcond
  simp only [Bool.or_eq_true, not_or, Bool.not_eq_true', decide_eq_false_iff_not, not_not,
    List.isEmpty_iff, Bool.not_eq_false, List.all_eq_true] at hcond
  obtain ⟨⟨hne, hletters⟩, hfits⟩ := hcond
  exact h _ _ (counts_iff.mpr ⟨hne, rfl, hfits, rfl, hletters⟩)

theorem Means.parse_eq {answer : Except EvalError Operand} (h : Means (Text.trim input) answer) :
    parse input = answer := by
  cases h with
  | bare h => rw [h.parse_eq, if_pos List.isEmpty_nil]
  | @measured _ unit h =>
      rw [h.parse_eq, if_neg (by simpa using unit.symbol_ne_nil), unit.ofSymbol?_symbol]
  | unknown h hsome hunit =>
      rw [h.parse_eq, if_neg (by simpa using hsome), TimeUnit.ofSymbol?_eq_none_iff.mpr hunit]
  | refused h => exact parse_of_not_counts h

theorem means_parse (input : Text) : Means (Text.trim input) (parse input) := by
  by_cases hcounts : ∃ amount letters, Counts amount letters (Text.trim input)
  · obtain ⟨amount, letters, h⟩ := hcounts
    rw [h.parse_eq]
    split
    · next hempty =>
        rw [List.isEmpty_iff] at hempty
        subst hempty
        exact .bare h
    · next hsome =>
        split
        · next unit hunit =>
            rw [← TimeUnit.symbol_of_ofSymbol? hunit] at h
            exact .measured h
        · next hunit =>
            exact .unknown h (by simpa using hsome) (TimeUnit.ofSymbol?_eq_none_iff.mp hunit)
  · have hnone : ∀ amount letters, ¬ Counts amount letters (Text.trim input) :=
      fun amount letters h => hcounts ⟨amount, letters, h⟩
    rw [parse_of_not_counts hnone]
    exact .refused hnone

theorem parse_eq_iff {answer : Except EvalError Operand} :
    parse input = answer ↔ Means (Text.trim input) answer :=
  ⟨fun h => h ▸ means_parse input, Means.parse_eq⟩

/-! ## Operands as they are written -/

theorem isAlpha_of_mem_unit {unit : Option TimeUnit} {c : Char}
    (hc : c ∈ unit.elim [] TimeUnit.symbol) : c.isAlpha = true := by
  cases unit with
  | none => cases hc
  | some unit => exact unit.isAlpha_symbol c hc

theorem text_ofNat (amount : Nat) (unit : Option TimeUnit) :
    text ⟨amount, unit⟩ = Text.ofNat amount ++ unit.elim [] TimeUnit.symbol := rfl

theorem counts_text (hfits : amount < 0x8000000000000000) (unit : Option TimeUnit) :
    Counts amount (unit.elim [] TimeUnit.symbol) (text ⟨amount, unit⟩) := by
  have h : Counts amount _ (Text.ofNatPadded 0 amount ++ ([] ++ unit.elim [] TimeUnit.symbol)) :=
    .intro 0 hfits rfl fun _ => isAlpha_of_mem_unit
  rwa [Text.ofNatPadded, Nat.zero_sub] at h

theorem trim_text (amount : Nat) (unit : Option TimeUnit) :
    Text.trim (text ⟨amount, unit⟩) = text ⟨amount, unit⟩ := by
  have hfull : ∀ c ∈ text ⟨amount, unit⟩, Text.isBlank c = false := by
    intro c hc
    rw [text_ofNat, List.mem_append] at hc
    rcases hc with hc | hc
    · exact Text.not_isBlank_of_isDigit (Text.isDigit_of_mem_ofNat hc)
    · exact Text.not_isBlank_of_isAlpha (isAlpha_of_mem_unit hc)
  exact Text.trim_eq_self_of (fun c hc => hfull c (List.mem_of_head? hc))
    fun c hc => hfull c (List.mem_of_getLast? hc)

theorem parse_text {o : Operand} (hlow : 0 ≤ o.amount) (hhigh : o.amount < 0x8000000000000000) :
    parse o.text = .ok o := by
  obtain ⟨amount, unit⟩ := o
  obtain ⟨amount, rfl⟩ := Int.eq_ofNat_of_zero_le hlow
  have hcounts := counts_text (Int.ofNat_lt.mp hhigh) unit
  rw [parse_eq_iff, trim_text]
  cases unit with
  | none => exact .bare hcounts
  | some unit => exact .measured hcounts

/-- A text is answered by what it counts once the blanks at its ends are gone, and
by nothing else. So it is refused when it begins with a number that is too large,
whatever stands behind that, and when it has a character in it that is neither a
digit nor a blank nor a letter, such as a digit of another script. An operand that
was written is read back. The units are eight, and have these letters in this case. -/
theorem parse_counted :
    (∀ (input : Text) (answer : Except EvalError Operand),
      parse input = answer ↔ Means (Text.trim input) answer) ∧
    (∀ (input : Text) (width amount : Nat) (rest : Text),
      Text.trim input = Text.ofNatPadded width amount ++ rest → 0x8000000000000000 ≤ amount →
        parse input = .error (.badOperand (Text.trim input))) ∧
    (∀ (input : Text), ∀ c ∈ Text.trim input, c.isDigit = false → Text.isBlank c = false →
      c.isAlpha = false → parse input = .error (.badOperand (Text.trim input))) ∧
    (∀ o : Operand, 0 ≤ o.amount → o.amount < 0x8000000000000000 → parse o.text = .ok o) ∧
    [TimeUnit.millis, .seconds, .minutes, .hours, .days, .weeks, .months, .years].map
      TimeUnit.symbol = ["ms".toList, ['s'], ['m'], ['h'], ['d'], ['w'], ['M'], ['y']] := by
  refine ⟨fun input answer => parse_eq_iff, ?_, ?_, fun o => parse_text, rfl⟩
  · intro input width amount rest htrim hlarge
    refine parse_of_not_counts fun counted letters h => ?_
    rw [htrim] at h
    exact absurd h.lt_of_append (Nat.not_lt.mpr hlarge)
  · intro input c hc hdigit hblank hletter
    refine parse_of_not_counts fun amount letters h => ?_
    rcases h.mem hc with hc | hc | hc
    · exact absurd hc (by simp [hdigit])
    · exact absurd hc (by simp [hblank])
    · exact absurd hc (by simp [hletter])

/-- The largest number with zeros in front, and blanks of several kinds around and
before its unit; letters that are a unit only when they are small; the number after
the largest, before letters that name no unit; a digit of another script behind one;
and the largest operand as it is written. -/
theorem parse_counted_up_to_the_limit :
    parse " \t009223372036854775807\u3000 M\u00a0".toList =
        .ok ⟨9223372036854775807, some .months⟩ ∧
      parse "2 D".toList = .error (.unknownUnit ['D']) ∧
      parse "9223372036854775808x".toList = .error (.badOperand "9223372036854775808x".toList) ∧
      parse "1\u0663d".toList = .error (.badOperand "1\u0663d".toList) ∧
      parse (text ⟨9223372036854775807, some .millis⟩) =
        .ok ⟨9223372036854775807, some .millis⟩ := by
  have hmonths : Counts 9223372036854775807 TimeUnit.months.symbol
      (Text.trim " \t009223372036854775807\u3000 M\u00a0".toList) :=
    .intro 21 (by decide) (by decide : Text.allBlank "\u3000 ".toList = true)
      TimeUnit.months.isAlpha_symbol
  have hcapital : Counts 2 ['D'] (Text.trim "2 D".toList) :=
    .intro 1 (by decide) (by decide : Text.allBlank [' '] = true)
      (List.forall_mem_singleton.mpr rfl)
  have hunit : ∀ unit : TimeUnit, unit.symbol ≠ ['D'] := by
    intro unit
    cases unit <;> decide
  obtain ⟨hread, hlarge, hother, hback, -⟩ := parse_counted
  exact ⟨(hread _ _).mpr (.measured hmonths),
    (hread _ _).mpr (.unknown hcapital (by decide) hunit),
    hlarge _ 0 9223372036854775808 ['x'] (by decide) (by decide),
    hother _ '\u0663' (by decide) (by decide) (by decide) (by decide),
    hback _ (by decide) (by decide)⟩

end Operand

end RequestBook
