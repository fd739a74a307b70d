import Mathlib.Data.Bool.Basic
import WordMachine.Machine.Flags
import WordMachine.Proofs.Machine.Signed

namespace WordMachine

-- The relation of two compared operands that a condition stands for. The second operand stands on
-- the left.
def Condition.Relates (condition : Condition) (first second : Int32) : Prop :=
  match condition with
  | .equal => second = first
  | .less => second.toInt < first.toInt
  | .lessOrEqual => second.toInt ≤ first.toInt
  | .greaterOrEqual => first.toInt ≤ second.toInt
  | .belowOrEqual => second.toUInt32.toNat ≤ first.toUInt32.toNat
  | .always => True

instance (condition : Condition) (first second : Int32) :
    Decidable (condition.Relates first second) :=
  match condition with
  | .equal => inferInstanceAs (Decidable (second = first))
  | .less => inferInstanceAs (Decidable (second.toInt < first.toInt))
  | .lessOrEqual => inferInstanceAs (Decidable (second.toInt ≤ first.toInt))
  | .greaterOrEqual => inferInstanceAs (Decidable (first.toInt ≤ second.toInt))
  | .belowOrEqual => inferInstanceAs (Decidable (second.toUInt32.toNat ≤ first.toUInt32.toNat))
  | .always => inferInstanceAs (Decidable True)

namespace Flags

variable (first second : Int32)

theorem zero_compare : (compare first second).zero = decide (second = first) := by
  have hiff : second.toInt - first.toInt = 0 ↔ second = first := by
    rw [← Int32.toInt_inj]
    omega
  exact decide_eq_decide.mpr hiff

theorem carry_compare :
    (compare first second).carry = decide (second.toUInt32.toNat < first.toUInt32.toNat) :=
  decide_eq_decide.mpr UInt32.lt_iff_toNat_lt

-- Where the difference is no signed word, bit 31 of it is the wrong way round.
theorem sign_xor_overflow_compare :
    ((compare first second).sign ^^ (compare first second).overflow) =
      decide (second.toInt < first.toInt) := by
  have hfirst := first.le_toInt
  have hfirst' := first.toInt_lt
  have hsecond := second.le_toInt
  have hsecond' := second.toInt_lt
  rw [Bool.eq_iff_iff, Bool.xor_iff_ne, ne_eq, Bool.eq_iff_iff]
  simp only [compare, decide_eq_true_iff]
  omega

-- Each condition holds of the flags of a comparison where its relation holds of the operands.
theorem holds_compare (condition : Condition) :
    (compare first second).holds condition = decide (condition.Relates first second) := by
  have hzero := zero_compare first second
  have hcarry := carry_compare first second
  have hless := sign_xor_overflow_compare first second
  cases condition with
  | equal => exact hzero
  | less => exact hless
  | lessOrEqual =>
    rw [holds, hless, hzero, ← Bool.decide_or, decide_eq_decide, ← Int32.toInt_inj]
    simp only [Condition.Relates]
    omega
  | greaterOrEqual =>
    rw [holds, hless, ← decide_not, decide_eq_decide]
    exact Int.not_lt
  | belowOrEqual =>
    have hequal : second = first ↔ second.toUInt32.toNat = first.toUInt32.toNat := by
      rw [UInt32.toNat_inj]
      refine ⟨congrArg Int32.toUInt32, fun h => ?_⟩
      rw [← second.toInt32_toUInt32, h, first.toInt32_toUInt32]
    rw [holds, hcarry, hzero, ← Bool.decide_or, decide_eq_decide, hequal]
    simp only [Condition.Relates]
    omega
  | always => rfl

-- Where nothing has been compared, the flags hold of no condition that could also fail but one.
theorem holds_clear (condition : Condition) :
    clear.holds condition = decide (condition = .greaterOrEqual ∨ condition = .always) := by
  cases condition <;> rfl

end Flags

end WordMachine
