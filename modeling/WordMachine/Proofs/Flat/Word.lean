import WordMachine.Proofs.Flat.Basic
import WordMachine.Proofs.Machine.Signed

namespace WordMachine.Flat

-- A signed word as the plain number of the same bits.
def number (x : Int32) : Nat :=
  x.toUInt32.toNat

section Arithmetic

variable (x y : Int32)

theorem number_lt : number x < 4294967296 :=
  x.toUInt32.toNat_lt

theorem signed_number : signed (number x) = x.toInt :=
  (toInt_eq_ite x).symm

theorem number_eq_reduce : number x = reduce x.toInt := by
  have hx := toNat_toUInt32_eq_emod x
  unfold number reduce
  omega

theorem number_ofInt (value : Int) : number (Int32.ofInt value) = reduce value := by
  have hwraps : value.bmod Int32.size % 4294967296 = value % 4294967296 := Int.bmod_emod
  rw [number_eq_reduce, Int32.toInt_ofInt, reduce, hwraps, reduce]

theorem number_inj {x y : Int32} (h : number x = number y) : x = y := by
  rw [← Int32.toInt_inj, ← signed_number, ← signed_number, h]

theorem number_toInt32 (word : UInt32) : number word.toInt32 = word.toNat := by
  rw [number, UInt32.toUInt32_toInt32]

theorem number_add : number (x + y) = reduce (number x + number y) := by
  unfold number reduce
  rw [Int32.toUInt32_add, UInt32.toNat_add]
  omega

theorem number_add_immediate : number (x + y) = reduce (number x + y.toInt) := by
  have hy := toNat_toUInt32_eq_emod y
  unfold number reduce
  rw [Int32.toUInt32_add, UInt32.toNat_add]
  omega

theorem number_sub_immediate : number (x - y) = reduce (number x - y.toInt) := by
  have hy := toNat_toUInt32_eq_emod y
  have hlt := y.toUInt32.toNat_lt
  unfold number reduce
  rw [Int32.toUInt32_sub, UInt32.toNat_sub]
  omega

theorem number_mul : number (x * y) = reduce (number x * number y) := by
  unfold number reduce
  rw [Int32.toUInt32_mul, UInt32.toNat_mul, ← Int.natCast_mul]
  omega

theorem number_halve : number (x.toUInt32 >>> 1).toInt32 = number x / 2 := by
  rw [number_toInt32, UInt32.toNat_shiftRight, Nat.shiftRight_eq_div_pow]
  rfl

end Arithmetic

section Flags

variable (flags : Flags)

theorem toNat_toWord :
    flags.toWord.toNat = (if flags.carry then 1 else 0) + (if flags.zero then 64 else 0)
      + (if flags.sign then 128 else 0) + (if flags.overflow then 2048 else 0) := by
  obtain ⟨carry, zero, sign, overflow⟩ := flags
  cases carry <;> cases zero <;> cases sign <;> cases overflow <;> rfl

theorem testBit_toWord :
    flags.toWord.toNat.testBit 0 = flags.carry ∧ flags.toWord.toNat.testBit 6 = flags.zero ∧
      flags.toWord.toNat.testBit 7 = flags.sign ∧
      flags.toWord.toNat.testBit 11 = flags.overflow := by
  obtain ⟨carry, zero, sign, overflow⟩ := flags
  cases carry <;> cases zero <;> cases sign <;> cases overflow <;> decide

theorem holds_toWord (condition : Condition) :
    holds (Operation.branch condition).code.toNat flags.toWord.toNat = flags.holds condition := by
  obtain ⟨hcarry, hzero, hsign, hoverflow⟩ := testBit_toWord flags
  cases condition
  all_goals
    simp only [holds, Operation.code, UInt8.reduceToNat, hcarry, hzero, hsign, hoverflow,
      Flags.holds]

theorem toNat_toWord_compare (first second : Int32) :
    (Flags.compare first second).toWord.toNat = packed (number first) (number second) := by
  rw [toNat_toWord, packed, signed_number, signed_number]
  have hsign : 2147483648 ≤ (second.toInt - first.toInt) % 4294967296 ↔
      (second.toInt - first.toInt) / 2147483648 % 2 = 1 := by omega
  have hoverflow : second.toInt - first.toInt < -2147483648 ∨
        2147483648 ≤ second.toInt - first.toInt ↔
      second.toInt - first.toInt < -2147483648 ∨
        2147483647 < second.toInt - first.toInt := by omega
  simp only [Flags.compare, decide_eq_true_eq, UInt32.lt_iff_toNat_lt, number, hsign, hoverflow]
  congr

end Flags

end WordMachine.Flat
