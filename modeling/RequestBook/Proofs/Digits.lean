import RequestBook.Text

/-!
# Decimal digits

What `Text.ofNat` and `Text.ofNatPadded` write: digits and nothing else, as
many as were asked for while the number has no more, and no zero in front.

Reading the digits gives the number back, and these three things leave no choice:
digits of a number in a width, with zeros in front up to it and not beyond
(`ZeroPadded`), are the ones that are written (`zeroPadded_iff`).
-/

namespace RequestBook.Text

theorem isDigit_iff {c : Char} : c.isDigit = true ↔ 48 ≤ c.toNat ∧ c.toNat ≤ 57 := by
  have hrange : c.isDigit = (decide (c.val ≥ '0'.val) && decide (c.val ≤ '9'.val)) := rfl
  rw [hrange, Bool.and_eq_true, decide_eq_true_eq, decide_eq_true_eq, ge_iff_le,
    UInt32.le_iff_toNat_le, UInt32.le_iff_toNat_le]
  rfl

theorem isDigit_of_mem_ofNat {n : Nat} {c : Char} (h : c ∈ ofNat n) : c.isDigit = true :=
  Nat.isDigit_of_mem_toDigits (by decide) (by decide) h

theorem ofNat_ne_nil (n : Nat) : ofNat n ≠ [] := Nat.toDigits_ne_nil

/-- Only zero begins with a zero. -/
theorem head?_ofNat {n : Nat} (h : n ≠ 0) : (ofNat n).head? ≠ some '0' := by
  induction n using Nat.strongRecOn with
  | ind n ih =>
    rw [ofNat, Nat.toDigits_eq_if (by decide)]
    split
    · next hlt =>
        have hall : ∀ k : Fin 10, k.val ≠ 0 → Nat.digitChar k ≠ '0' := by decide
        simpa using hall ⟨n, hlt⟩ h
    · next hge =>
        rw [List.head?_append, List.head?_eq_some_head Nat.toDigits_ne_nil, Option.some_or,
          ← List.head?_eq_some_head Nat.toDigits_ne_nil]
        exact ih (n / 10) (by omega) (by omega)

theorem length_ofNat_le_iff {n k : Nat} (hk : 0 < k) :
    (ofNat n).length ≤ k ↔ n < Nat.pow 10 k :=
  Nat.length_toDigits_le_iff (by decide) hk

theorem isDigit_of_mem_ofNatPadded {width n : Nat} {c : Char} (h : c ∈ ofNatPadded width n) :
    c.isDigit = true := by
  rw [ofNatPadded, List.mem_append] at h
  rcases h with h | h
  · rw [(List.mem_replicate.mp h).2]
    rfl
  · exact isDigit_of_mem_ofNat h

theorem length_ofNatPadded (width n : Nat) :
    (ofNatPadded width n).length = max width (ofNat n).length := by
  rw [ofNatPadded, List.length_append, List.length_replicate]
  omega

/-- A number with no more digits than that takes the width it is given. -/
theorem length_ofNatPadded_of_lt {width n : Nat} (hwidth : 0 < width) (h : n < Nat.pow 10 width) :
    (ofNatPadded width n).length = width := by
  have := (length_ofNat_le_iff hwidth).mpr h
  rw [length_ofNatPadded]
  omega

/-! ## Reading digits -/

theorem natOfDigits_eq (digits : Text) : natOfDigits digits = Nat.ofDigitChars 10 digits 0 := rfl

theorem natOfDigits_cons (c : Char) (t : Text) :
    natOfDigits (c :: t) = Nat.pow 10 t.length * digitValue c + natOfDigits t := by
  rw [natOfDigits_eq, Nat.ofDigitChars_cons, Nat.ofDigitChars_eq_ofDigitChars_zero, Nat.mul_zero,
    Nat.zero_add]
  rfl

theorem digitValue_lt {c : Char} (h : c.isDigit = true) : digitValue c < 10 := by
  rw [isDigit_iff] at h
  show c.toNat - 48 < 10
  omega

theorem eq_of_digitValue {c d : Char} (hc : c.isDigit = true) (hd : d.isDigit = true)
    (h : digitValue c = digitValue d) : c = d := by
  rw [isDigit_iff] at hc hd
  have h : c.toNat - 48 = d.toNat - 48 := h
  exact Char.toNat_inj.mp (by omega)

theorem natOfDigits_lt {t : Text} (h : ∀ c ∈ t, c.isDigit = true) :
    natOfDigits t < Nat.pow 10 t.length := by
  induction t with
  | nil => decide
  | cons c t ih =>
      obtain ⟨hc, ht⟩ := List.forall_mem_cons.mp h
      have hvalue := digitValue_lt hc
      have hrest := ih ht
      rw [natOfDigits_cons]
      show _ < Nat.pow 10 t.length * 10
      calc
        Nat.pow 10 t.length * digitValue c + natOfDigits t
          < Nat.pow 10 t.length * digitValue c + Nat.pow 10 t.length := by omega
        _ = Nat.pow 10 t.length * (digitValue c + 1) := by rw [Nat.mul_add, Nat.mul_one]
        _ ≤ Nat.pow 10 t.length * 10 := Nat.mul_le_mul_left _ (by omega)

/-- As many digits that count the same are the same. -/
theorem eq_of_natOfDigits {s t : Text} (hs : ∀ c ∈ s, c.isDigit = true)
    (ht : ∀ c ∈ t, c.isDigit = true) (hlength : s.length = t.length)
    (h : natOfDigits s = natOfDigits t) : s = t := by
  induction s generalizing t with
  | nil => exact (List.eq_nil_of_length_eq_zero hlength.symm).symm
  | cons c s ih =>
      cases t with
      | nil => cases hlength
      | cons d t =>
          obtain ⟨hc, hs⟩ := List.forall_mem_cons.mp hs
          obtain ⟨hd, ht⟩ := List.forall_mem_cons.mp ht
          have hlength : s.length = t.length := Nat.succ.inj hlength
          have hlows := natOfDigits_lt hs
          have hlowt := natOfDigits_lt ht
          rw [natOfDigits_cons, natOfDigits_cons, hlength] at h
          rw [hlength] at hlows
          -- the first digit is the quotient, the others are the remainder
          have hpos : 0 < Nat.pow 10 t.length := by omega
          have hfirst := congrArg (· / Nat.pow 10 t.length) h
          have hrest := congrArg (· % Nat.pow 10 t.length) h
          simp only [Nat.mul_add_div hpos, Nat.div_eq_of_lt hlows, Nat.div_eq_of_lt hlowt,
            Nat.add_zero] at hfirst
          simp only [Nat.mul_add_mod, Nat.mod_eq_of_lt hlows, Nat.mod_eq_of_lt hlowt] at hrest
          rw [eq_of_digitValue hc hd hfirst, ih hs ht hlength hrest]

theorem natOfDigits_ofNatPadded (width n : Nat) : natOfDigits (ofNatPadded width n) = n := by
  rw [natOfDigits_eq, ofNatPadded, Nat.ofDigitChars_append, Nat.ofDigitChars_replicate_zero,
    Nat.mul_zero]
  exact Nat.ofDigitChars_ten_toDigits

/-- Digits of a number, with zeros in front of them up to a width. -/
structure ZeroPadded (width n : Nat) (digits : Text) : Prop where
  isDigit : ∀ c ∈ digits, c.isDigit = true
  value : natOfDigits digits = n
  wide : width ≤ digits.length
  /-- No zero stands in front of more digits than that. -/
  tight : width < digits.length → digits.head? ≠ some '0'

theorem zeroPadded_ofNatPadded {width : Nat} (hwidth : 0 < width) (n : Nat) :
    ZeroPadded width n (ofNatPadded width n) where
  isDigit _ := isDigit_of_mem_ofNatPadded
  value := natOfDigits_ofNatPadded width n
  wide := by
    rw [length_ofNatPadded]
    omega
  tight h := by
    rw [length_ofNatPadded] at h
    have hfew : width - (ofNat n).length = 0 := by omega
    have hsome : n ≠ 0 := by
      rintro rfl
      have hone : (ofNat 0).length = 1 := rfl
      omega
    rw [ofNatPadded, hfew]
    exact head?_ofNat hsome

/-- A number whose first digit is no zero reaches the place of that digit. -/
theorem pow_le_natOfDigits {c : Char} (hc : c.isDigit = true) (hzero : c ≠ '0') (t : Text) :
    Nat.pow 10 t.length ≤ natOfDigits (c :: t) := by
  have hvalue : 0 < digitValue c := by
    rw [Nat.pos_iff_ne_zero]
    intro h
    exact hzero (eq_of_digitValue hc rfl h)
  have hplace := Nat.le_mul_of_pos_right (Nat.pow 10 t.length) hvalue
  rw [natOfDigits_cons]
  omega

theorem ZeroPadded.length_le {width n : Nat} {s t : Text} (hs : ZeroPadded width n s)
    (ht : ZeroPadded width n t) : s.length ≤ t.length := by
  by_cases hlong : width < s.length
  · cases s with
    | nil => exact Nat.zero_le _
    | cons c s =>
        have hzero : c ≠ '0' := fun h => hs.tight hlong (congrArg some h)
        have hlow := pow_le_natOfDigits (hs.isDigit c List.mem_cons_self) hzero s
        have hhigh := natOfDigits_lt ht.isDigit
        rw [hs.value] at hlow
        rw [ht.value] at hhigh
        have hlength : s.length < t.length :=
          (Nat.pow_lt_pow_iff_right (by decide)).mp (Nat.lt_of_le_of_lt hlow hhigh)
        exact hlength
  · exact Nat.le_trans (Nat.le_of_not_lt hlong) ht.wide

theorem zeroPadded_iff {width n : Nat} (hwidth : 0 < width) {digits : Text} :
    ZeroPadded width n digits ↔ digits = ofNatPadded width n := by
  have hwritten := zeroPadded_ofNatPadded hwidth n
  constructor
  · intro h
    exact eq_of_natOfDigits h.isDigit hwritten.isDigit
      (Nat.le_antisymm (h.length_le hwritten) (hwritten.length_le h))
      (h.value.trans hwritten.value.symm)
  · rintro rfl
    exact hwritten

end RequestBook.Text
