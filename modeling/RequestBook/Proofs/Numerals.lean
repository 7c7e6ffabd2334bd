import RequestBook.Proofs.Decoding
import RequestBook.Proofs.Digits
import RequestBook.Proofs.Reading

/-!
# Whatever was written can be passed over

A number is written in one of three ways: a whole number as its digits, and one
in binary with a point among digits or with a power of ten behind them. Each is
a numeral of JSON (`IsNumeral`), so the scanner of numbers gets through it
(`numeral_isNumeral`), and with that every value can be passed over
(`scans_pass`), however deep it is.

The one thing that has to be seen in the digits is that none of them is a zero
in front of others. A decimal is not zero when it reads back as a number that is
not (`digits_ne_zero_of_decimalOfLength?`), for the lower end of what reads back
is above zero.
-/

namespace RequestBook

namespace Json

/-! ## Numerals -/

/-- Digits, at least one. -/
def IsRun (t : Text) : Prop := t ≠ [] ∧ ∀ c ∈ t, c.isDigit = true

/-- Digits without a zero in front of others. -/
def IsWhole (t : Text) : Prop := IsRun t ∧ (t.head? = some '0' → t = ['0'])

/-- What is behind the point of a number, with the point. -/
def IsFraction (t : Text) : Prop := t = [] ∨ ∃ run, IsRun run ∧ t = '.' :: run

/-- A power of ten behind a number. -/
def IsPower (t : Text) : Prop :=
  t = [] ∨ ∃ sign run, (sign = '+' ∨ sign = '-') ∧ IsRun run ∧ t = 'e' :: sign :: run

/-- A number without a sign, in the form in which JSON has numbers. -/
def IsUnsigned (t : Text) : Prop :=
  ∃ whole fraction power, IsWhole whole ∧ IsFraction fraction ∧ IsPower power ∧
    t = whole ++ (fraction ++ power)

/-- A number in the form in which JSON has numbers. -/
def IsNumeral (t : Text) : Prop :=
  ∃ sign body, (sign = [] ∨ sign = ['-']) ∧ IsUnsigned body ∧ t = sign ++ body

/-- A text that does not go on with digits that stand before it. -/
def NoDigit (t : Text) : Prop := ∀ c ∈ t.head?, c.isDigit = false

theorem noDigit_cons {c : Char} {t : Text} (h : c.isDigit = false) : NoDigit (c :: t) := by
  intro d hd
  rw [← Option.some.inj hd]
  exact h

theorem Stops.noDigit {t : Text} (h : Stops t) : NoDigit t := fun c hc => (h c hc).1

theorem digits_run {run rest : Text} (h : IsRun run) (hrest : NoDigit rest) :
    digits (run ++ rest) = .ok (run, rest) := by
  have htake : (run ++ rest).takeWhile Char.isDigit = run :=
    takeWhile_append_stop h.2 hrest
  have hdrop : (run ++ rest).dropWhile Char.isDigit = rest := by
    have hall := List.takeWhile_append_dropWhile (p := Char.isDigit) (l := run ++ rest)
    rw [htake] at hall
    exact List.append_cancel_left hall
  rw [digits, htake, hdrop]
  split
  · exact absurd rfl h.1
  · rfl

theorem wholeDigits_whole {whole rest : Text} (h : IsWhole whole) (hrest : NoDigit rest) :
    wholeDigits (whole ++ rest) = .ok (whole, rest) := by
  rw [wholeDigits, digits_run h.1 hrest]
  simp only [bind, Except.bind]
  split
  · next c more =>
      have := h.2 rfl
      cases this
  · rfl

theorem fractionDigits_fraction {fraction rest : Text} (h : IsFraction fraction)
    (hrest : ∀ c ∈ rest.head?, c.isDigit = false ∧ c ≠ '.') :
    ∃ found, fractionDigits (fraction ++ rest) = .ok (found, rest) := by
  rcases h with rfl | ⟨run, hrun, rfl⟩
  · refine ⟨none, ?_⟩
    rw [List.nil_append, fractionDigits.eq_def]
    split
    · exact absurd rfl (hrest _ rfl).2
    · rfl
  · refine ⟨some run, ?_⟩
    rw [List.cons_append, fractionDigits, digits_run hrun fun c hc => (hrest c hc).1]
    rfl

theorem powerDigits_power {power rest : Text} (h : IsPower power) (hrest : Stops rest) :
    ∃ found, powerDigits (power ++ rest) = .ok (found, rest) := by
  rcases h with rfl | ⟨sign, run, hsign, hrun, rfl⟩
  · refine ⟨none, ?_⟩
    cases rest with
    | nil => rfl
    | cons c rest =>
        obtain ⟨-, -, hsmall, hbig⟩ := hrest c rfl
        have hpower : ¬ (decide (c = 'e') || decide (c = 'E')) = true := by simp [hsmall, hbig]
        rw [List.nil_append, powerDigits.eq_def]
        exact if_neg hpower
  · have hdigits := digits_run hrun hrest.noDigit
    rcases hsign with rfl | rfl
    · exact ⟨_, by simp only [List.cons_append, powerDigits, hdigits]; rfl⟩
    · exact ⟨_, by simp only [List.cons_append, powerDigits, hdigits]; rfl⟩

theorem IsRun.exists_head {t : Text} (h : IsRun t) :
    ∃ c more, t = c :: more ∧ c.isDigit = true := by
  obtain ⟨hne, hdigits⟩ := h
  cases t with
  | nil => exact absurd rfl hne
  | cons c more => exact ⟨c, more, rfl, hdigits c List.mem_cons_self⟩

/-- The scanner of numbers gets through a numeral and stops behind it. -/
theorem numeral_isNumeral {t rest : Text} (h : IsNumeral t) (hrest : Stops rest) :
    ∃ n, numeral (t ++ rest) = .ok (n, rest) := by
  obtain ⟨sign, _, hsign, ⟨whole, fraction, power, hwhole, hfraction, hpower, rfl⟩, rfl⟩ := h
  have hbehind : ∀ c ∈ (power ++ rest).head?, c.isDigit = false ∧ c ≠ '.' := by
    rcases hpower with rfl | ⟨s, run, -, -, rfl⟩
    · exact fun c hc => ⟨(hrest c hc).1, (hrest c hc).2.1⟩
    · intro c hc
      rw [← Option.some.inj hc]
      decide
  have hafter : NoDigit (fraction ++ (power ++ rest)) := by
    rcases hfraction with rfl | ⟨run, -, rfl⟩
    · exact fun c hc => (hbehind c hc).1
    · exact noDigit_cons rfl
  obtain ⟨f, hf⟩ := fractionDigits_fraction hfraction hbehind
  obtain ⟨p, hp⟩ := powerDigits_power hpower hrest
  have hw := wholeDigits_whole hwhole hafter
  have hminus : ∀ more, whole ++ (fraction ++ (power ++ rest)) ≠ '-' :: more := by
    obtain ⟨c, more, rfl, hc⟩ := hwhole.1.exists_head
    intro more' heq
    rw [List.cons_append, List.cons.injEq] at heq
    rw [heq.1] at hc
    exact absurd hc (by decide)
  rcases hsign with rfl | rfl
  · refine ⟨⟨false, whole, f, p⟩, ?_⟩
    simp only [List.nil_append, List.append_assoc, numeral, bind, Except.bind, hw, hf, hp]
  · refine ⟨⟨true, whole, f, p⟩, ?_⟩
    simp only [List.cons_append, List.nil_append, List.append_assoc, numeral, bind, Except.bind,
      hw, hf, hp]

theorem IsNumeral.exists_head {t : Text} (h : IsNumeral t) :
    ∃ c more, t = c :: more ∧ (c = '-' ∨ c.isDigit = true) := by
  obtain ⟨sign, _, hsign, ⟨whole, fraction, power, hwhole, -, -, rfl⟩, rfl⟩ := h
  rcases hsign with rfl | rfl
  · obtain ⟨c, more, rfl, hc⟩ := hwhole.1.exists_head
    exact ⟨c, _, rfl, .inr hc⟩
  · exact ⟨'-', _, rfl, .inl rfl⟩

/-- A value that is written as a numeral can be passed over. -/
theorem scans_numeral {j : Json} (h : IsNumeral (written j)) : Scans .pass j := by
  obtain ⟨c, t, hhead, hc⟩ := h.exists_head
  have hother : ∀ d, d ≠ '-' → d.isDigit = false → c ≠ d := by
    rintro d hminus hdigit rfl
    exact hc.elim hminus (by rw [hdigit]; exact Bool.false_ne_true)
  have hgap : isGap c = false := by
    simp [isGap, hother ' ' (by decide) rfl, hother '\t' (by decide) rfl,
      hother '\n' (by decide) rfl, hother '\r' (by decide) rfl]
  refine ⟨⟨c, t, hhead, hgap, hother ']' (by decide) rfl⟩, .null,
    fun hkeeps => absurd hkeeps Bool.false_ne_true, fun {fuel rest} hrest hfuel => ?_⟩
  obtain ⟨n, hn⟩ := numeral_isNumeral h hrest
  have hstart : (decide (c = '-') || c.isDigit) = true := by simpa using hc
  rw [hhead, List.length_cons] at hfuel
  obtain ⟨fuel, rfl⟩ : ∃ n, fuel = n + 1 := ⟨fuel - 1, by omega⟩
  rw [hhead, List.cons_append] at hn ⊢
  rw [value, skipGap_of_not_gap hgap]
  simp only [hother '"' (by decide) rfl, hother '[' (by decide) rfl,
    hother '\x7b' (by decide) rfl, hstart, if_false, if_true, number?, hn, bind, Except.bind]
  rfl

/-! ## Numbers as they are written -/

theorem isWhole_ofNat (n : Nat) : IsWhole (Text.ofNat n) := by
  refine ⟨⟨Text.ofNat_ne_nil n, fun c hc => Text.isDigit_of_mem_ofNat hc⟩, fun hzero => ?_⟩
  by_cases hn : n = 0
  · subst hn
    rfl
  · exact absurd hzero (Text.head?_ofNat hn)

theorem IsWhole.isUnsigned {t : Text} (h : IsWhole t) : IsUnsigned t :=
  ⟨t, [], [], h, .inl rfl, .inl rfl, by simp⟩

theorem isNumeral_ofInt (n : Int) : IsNumeral (Text.ofInt n) := by
  cases n with
  | ofNat n => exact ⟨[], _, .inl rfl, (isWhole_ofNat n).isUnsigned, rfl⟩
  | negSucc n => exact ⟨['-'], _, .inr rfl, (isWhole_ofNat (n + 1)).isUnsigned, rfl⟩

section Decimals

variable {d : Decimal}

/-- The zeros behind the digits do not begin a number, nor do the digits. -/
theorem isWhole_positional (h : d.digits ≠ 0 ∨ d.power = 0) (hpower : 0 ≤ d.power) :
    IsWhole d.positional := by
  have hdigits := isWhole_ofNat d.digits
  rw [Decimal.positional, if_pos hpower]
  rcases h with h | h
  · obtain ⟨c, more, hhead, -⟩ := hdigits.1.exists_head
    have hzero := Text.head?_ofNat h
    rw [hhead] at hdigits hzero ⊢
    refine ⟨⟨List.cons_ne_nil _ _, fun x hx => ?_⟩, fun heq => absurd heq hzero⟩
    rcases List.mem_append.mp hx with hx | hx
    · exact hdigits.1.2 x hx
    · rw [(List.mem_replicate.mp hx).2]
      rfl
  · rw [h, Int.toNat_zero, List.replicate_zero, List.append_nil]
    exact hdigits

theorem isUnsigned_positional (hpower : d.power < 0) : IsUnsigned d.positional := by
  obtain ⟨⟨hne, hdigits⟩, hzero⟩ := isWhole_ofNat d.digits
  have hplaces : 0 < (-d.power).toNat := by omega
  simp only [Decimal.positional, if_neg (Int.not_le.mpr hpower)]
  generalize (-d.power).toNat = places at hplaces
  generalize Text.ofNat d.digits = digits at hne hdigits hzero
  split
  · next hinside =>
      -- the point stands among the digits
      refine ⟨digits.take (digits.length - places), '.' :: digits.drop (digits.length - places), [],
        ⟨⟨?_, fun c hc => hdigits c (List.mem_of_mem_take hc)⟩, fun hhead => ?_⟩,
        .inr ⟨_, ⟨?_, fun c hc => hdigits c (List.mem_of_mem_drop hc)⟩, rfl⟩, .inl rfl, by simp⟩
      · rw [Ne, List.take_eq_nil_iff]
        exact fun hnil => hnil.elim (by omega) hne
      · rw [List.head?_take, if_neg (by omega)] at hhead
        rw [hzero hhead] at hinside
        exact absurd hinside (by rw [List.length_singleton]; omega)
      · rw [Ne, List.drop_eq_nil_iff]
        omega
  · next houtside =>
      refine ⟨['0'], '.' :: (List.replicate (places - digits.length) '0' ++ digits), [],
        isWhole_ofNat 0, .inr ⟨_, ⟨by simp [hne], fun c hc => ?_⟩, rfl⟩, .inl rfl, by simp⟩
      rcases List.mem_append.mp hc with hc | hc
      · rw [(List.mem_replicate.mp hc).2]
        rfl
      · exact hdigits c hc

theorem isUnsigned_scientific (d : Decimal) : IsUnsigned d.scientific := by
  have hdigits := (isWhole_ofNat d.digits).1
  have hpower : IsPower (['e', if d.leading < 0 then '-' else '+'] ++
      Text.ofNat d.leading.natAbs) := by
    refine .inr ⟨_, _, ?_, (isWhole_ofNat d.leading.natAbs).1, rfl⟩
    split
    · exact .inr rfl
    · exact .inl rfl
  have hone : ∀ c, c.isDigit = true → IsWhole [c] := fun c hc =>
    ⟨⟨List.cons_ne_nil _ _, by simpa using hc⟩, fun hhead => by rw [Option.some.inj hhead]⟩
  simp only [Decimal.scientific]
  split
  · next heq => exact absurd heq hdigits.1
  · next c heq => exact ⟨[c], [], _, hone c (hdigits.2 c (by simp [heq])), .inl rfl, hpower, rfl⟩
  · next c rest hrest heq =>
      refine ⟨[c], '.' :: rest, _, hone c (hdigits.2 c (by simp [heq])),
        .inr ⟨rest, ⟨hrest, fun x hx => ?_⟩, rfl⟩, hpower, by simp⟩
      exact hdigits.2 x (by simp [heq, hx])

end Decimals

section Shortest

variable {rule : HalfRule} {mantissa : Nat} {exponent : Int}

theorem scaled_one_pos (power : Int) : 0 < (Binary64.scaled 1 1 power).1 := by
  rw [Binary64.scaled]
  split
  · rw [Nat.shiftLeft_eq, Nat.one_mul]
    exact Nat.two_pow_pos _
  · exact Nat.one_pos

/-- What reads back as a number is not below its lower end, which is not zero
when the number is not. -/
theorem digits_ne_zero_of_decimalOfLength? (hmantissa : mantissa ≠ 0) {leading : Int} {count : Nat}
    {d : Decimal}
    (h : Binary64.decimalOfLength? rule mantissa exponent leading count = some d) :
    d.digits ≠ 0 := by
  have hscaled := scaled_one_pos (exponent - 2)
  simp only [Binary64.decimalOfLength?] at h
  -- only the lower end counts, so all else is taken as given
  generalize leading - Int.ofNat count + 1 = power at h
  generalize hlow : (4 * mantissa - if (decide (mantissa = Binary64.leastNormal) &&
    decide (exponent > Binary64.minExponent)) = true then 1 else 2) = low at h
  generalize hscale : (if power ≥ 0 then (Binary64.scaled 1 1 (exponent - 2)).1 else
    (Binary64.scaled 1 1 (exponent - 2)).1 * Nat.pow 10 (-power).toNat) = scale at h
  generalize (if power ≥ 0 then (Binary64.scaled 1 1 (exponent - 2)).2 * Nat.pow 10 power.toNat
    else (Binary64.scaled 1 1 (exponent - 2)).2) = unit at h
  have hend : 0 < low * scale := by
    refine Nat.mul_pos ?_ ?_
    · rw [← hlow]
      split <;> omega
    · rw [← hscale]
      split
      · exact hscaled
      · exact Nat.mul_pos hscaled (Nat.pow_pos (by decide))
  have hback : ∀ {n most : Nat}, (if mantissa % 2 = 0 then
      decide (low * scale ≤ n * unit) && decide (n * unit ≤ most)
      else decide (low * scale < n * unit) && decide (n * unit < most)) = true → n ≠ 0 := by
    rintro n most hread rfl
    rw [Nat.zero_mul] at hread
    split at hread
    · rw [Bool.and_eq_true, decide_eq_true_eq] at hread
      omega
    · rw [Bool.and_eq_true, decide_eq_true_eq] at hread
      omega
  split at h
  · next hbelow _ =>
      rw [← Option.some.inj h, ne_eq, ite_eq_iff]
      intro hzero
      rcases hzero with ⟨_, hzero⟩ | ⟨_, hzero⟩
      · exact hback hbelow hzero
      · cases hzero
  · next hbelow _ =>
      rw [← Option.some.inj h]
      exact hback hbelow
  · rw [← Option.some.inj h]
    exact Nat.succ_ne_zero _
  · cases h

theorem digits_ne_zero_withoutZeros {fuel : Nat} {d : Decimal} (h : d.digits ≠ 0) :
    (Binary64.withoutZeros fuel d).digits ≠ 0 := by
  induction fuel generalizing d with
  | zero => exact h
  | succ fuel ih =>
      rw [Binary64.withoutZeros]
      split
      · next hzeros =>
          refine ih ?_
          simp only [Bool.and_eq_true, decide_eq_true_eq] at hzeros
          simp only []
          omega
      · exact h

theorem shortest_shown :
    (Binary64.shortest rule mantissa exponent).digits ≠ 0 ∨
      (Binary64.shortest rule mantissa exponent).power = 0 := by
  rw [Binary64.shortest]
  split
  · exact .inr rfl
  · next hmantissa =>
      simp only []
      split
      · next d hd =>
          obtain ⟨count, -, hcount⟩ := List.exists_of_findSome?_eq_some hd
          have hd := digits_ne_zero_of_decimalOfLength? hmantissa hcount
          exact .inl (digits_ne_zero_withoutZeros hd)
      · exact .inr rfl

end Shortest

theorem isNumeral_jsonText (negative : Bool) (mantissa : Nat) (exponent : Int) :
    IsNumeral (Binary64.finite negative mantissa exponent).jsonText := by
  have hsign : Binary64.signText negative = [] ∨ Binary64.signText negative = ['-'] := by
    cases negative with
    | true => exact .inr rfl
    | false => exact .inl rfl
  refine ⟨_, _, hsign, ?_, rfl⟩
  split
  · split
    · next hpower =>
        exact ⟨_, ['.', '0'], [], isWhole_positional shortest_shown hpower,
          .inr ⟨['0'], (isWhole_ofNat 0).1, rfl⟩, .inl rfl, rfl⟩
    · next hpower => exact isUnsigned_positional (Int.not_le.mp hpower)
  · exact isUnsigned_scientific _

/-! ## Passing over a value -/

/-- A number that is not finite is written as nothing. -/
theorem scans_number (x : Binary64) : Scans .pass (.number x) := by
  have hnull {j : Json} (h : written j = written .null) : Scans .pass j := by
    obtain ⟨hhead, _, -, hvalue⟩ := scans_null .pass
    rw [← h] at hhead hvalue
    exact ⟨hhead, _, fun hkeeps => absurd hkeeps Bool.false_ne_true, hvalue⟩
  cases x with
  | finite negative mantissa exponent =>
      exact scans_numeral (isNumeral_jsonText negative mantissa exponent)
  | infinite negative => exact hnull rfl
  | nan => exact hnull rfl

mutual

/-- Whatever was written can be passed over. -/
theorem scans_pass (j : Json) : Scans .pass j :=
  match j with
  | .null => scans_null _
  | .bool b => scans_bool _ b
  | .integer n => scans_numeral (isNumeral_ofInt n)
  | .number x => scans_number x
  | .string t => scans_string _ t
  | .array items => scans_array rfl (scans_pass_items items)
  | .object members => scans_object rfl (scans_pass_members members)

theorem scans_pass_items (items : List Json) : ∀ item ∈ items, Scans .pass item :=
  match items with
  | [] => fun _ h => nomatch h
  | item :: items => List.forall_mem_cons.mpr ⟨scans_pass item, scans_pass_items items⟩

theorem scans_pass_members (members : List (Text × Json)) : ∀ m ∈ members, Scans .pass m.2 :=
  match members with
  | [] => fun _ h => nomatch h
  | (_, j) :: members => List.forall_mem_cons.mpr ⟨scans_pass j, scans_pass_members members⟩

end

end Json

end RequestBook
