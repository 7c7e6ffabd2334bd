/-!
# Numbers of 64 bits

Amounts, and the whole numbers of the formats that are read, fit 64 bits
with a sign. They are kept as integers, and whether one fits is asked where
it is made. The calendar counts months in half of that.
-/

namespace RequestBook

/-- Whether an integer fits 64 bits with a sign. -/
def FitsWord (n : Int) : Prop := -0x8000000000000000 ≤ n ∧ n < 0x8000000000000000

instance (n : Int) : Decidable (FitsWord n) := by unfold FitsWord; infer_instance

/-- Whether an integer fits 32 bits with a sign. -/
def FitsHalfWord (n : Int) : Prop := -0x80000000 ≤ n ∧ n < 0x80000000

instance (n : Int) : Decidable (FitsHalfWord n) := by unfold FitsHalfWord; infer_instance

end RequestBook
