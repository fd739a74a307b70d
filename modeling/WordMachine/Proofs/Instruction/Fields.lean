import WordMachine.Proofs.Instruction.Opcode
import WordMachine.Proofs.Word.Bytes

namespace WordMachine

-- The values that a word is made from, before each is cut to its width.
structure Fields where
  opcode : UInt8
  first : UInt8
  second : UInt8
  immediate : Int16
  deriving DecidableEq, Repr

namespace Fields

def word (fields : Fields) : UInt32 :=
  Instruction.encode fields.opcode fields.first fields.second fields.immediate

-- What a word says of the values it was made from.
def instruction (fields : Fields) : Instruction where
  raw := fields.word
  opcode := fields.opcode % 32
  first := fields.first % 32
  second := fields.second % 32
  immediate := fields.immediate.toInt32

private theorem toNat_cut (byte : UInt8) : (byte.toUInt32 &&& 0x1F).toNat = byte.toNat % 32 := by
  rw [UInt32.toNat_and, UInt8.toNat_toUInt32]
  exact Nat.and_two_pow_sub_one_eq_mod _ 5

theorem toNat_word (fields : Fields) :
    fields.word.toNat =
      fields.opcode.toNat % 32 * 134217728 + fields.first.toNat % 32 * 4194304 +
        fields.second.toNat % 32 * 131072 + fields.immediate.toUInt16.toNat := by
  have himmediate := fields.immediate.toUInt16.toNat_lt
  have hword : fields.word = (fields.opcode.toUInt32 &&& 0x1F) <<< 27 |||
      ((fields.first.toUInt32 &&& 0x1F) <<< 22 ||| ((fields.second.toUInt32 &&& 0x1F) <<< 17 |||
        fields.immediate.toUInt16.toUInt32)) := by
    rw [← UInt32.or_assoc, ← UInt32.or_assoc]
    rfl
  -- from the low end, each field stands above all that was joined before it
  have hsecond := toNat_shiftLeft_or (fields.second.toUInt32 &&& 0x1F)
    fields.immediate.toUInt16.toUInt32 17 131072 (by decide) rfl
    (by rw [UInt16.toNat_toUInt32]; omega) (by rw [toNat_cut]; omega)
  rw [toNat_cut, UInt16.toNat_toUInt32] at hsecond
  have hlow := Nat.lt_of_le_of_lt (Nat.le_of_eq hsecond) (by omega : _ < 4194304)
  have hfirst := toNat_shiftLeft_or (fields.first.toUInt32 &&& 0x1F) _ 22 4194304 (by decide) rfl
    hlow (by rw [toNat_cut]; omega)
  rw [toNat_cut, hsecond] at hfirst
  have hmiddle := Nat.lt_of_le_of_lt (Nat.le_of_eq hfirst) (by omega : _ < 134217728)
  have hopcode := toNat_shiftLeft_or (fields.opcode.toUInt32 &&& 0x1F) _ 27 134217728 (by decide)
    rfl hmiddle (by rw [toNat_cut]; omega)
  rw [toNat_cut, hfirst] at hopcode
  rw [hword, hopcode]
  omega

end Fields

namespace Instruction

private theorem toNat_field (word shift : UInt32) (factor : Nat) (hs : shift.toNat < 32)
    (hf : 1 <<< shift.toNat = factor) :
    ((word >>> shift) &&& 0x1F).toUInt8.toNat = word.toNat / factor % 32 := by
  have hmask : (word >>> shift).toNat &&& 31 = (word >>> shift).toNat % 32 :=
    Nat.and_two_pow_sub_one_eq_mod _ 5
  rw [Nat.one_shiftLeft] at hf
  rw [UInt32.toNat_toUInt8, UInt32.toNat_and]
  simp only [UInt32.reduceToNat]
  rw [hmask, UInt32.toNat_shiftRight, Nat.mod_eq_of_lt hs, Nat.shiftRight_eq_div_pow, hf]
  omega

theorem toNat_decode_opcode (word : UInt32) :
    (decode word).opcode.toNat = word.toNat / 134217728 := by
  have hlt := word.toNat_lt
  have hfield := toNat_field word 27 134217728 (by decide) rfl
  exact hfield.trans (by omega)

theorem toNat_decode_first (word : UInt32) :
    (decode word).first.toNat = word.toNat / 4194304 % 32 :=
  toNat_field word 22 4194304 (by decide) rfl

theorem toNat_decode_second (word : UInt32) :
    (decode word).second.toNat = word.toNat / 131072 % 32 :=
  toNat_field word 17 131072 (by decide) rfl

theorem toNat_decode_immediate (word : UInt32) :
    (decode word).immediate.toInt16.toUInt16.toNat = word.toNat % 65536 := by
  have himmediate : (decode word).immediate.toInt16 = word.toUInt16.toInt16 :=
    Int16.toInt16_toInt32 _
  rw [himmediate, UInt16.toUInt16_toInt16, UInt32.toNat_toUInt16]

theorem decode_word (fields : Fields) : decode fields.word = fields.instruction := by
  have hword := fields.toNat_word
  have himmediate := fields.immediate.toUInt16.toNat_lt
  have hcut (byte : UInt8) : (byte % 32).toNat = byte.toNat % 32 := UInt8.toNat_mod byte 32
  have hopcode : (decode fields.word).opcode = fields.opcode % 32 := by
    rw [← UInt8.toNat_inj, toNat_decode_opcode, hcut]
    omega
  have hfirst : (decode fields.word).first = fields.first % 32 := by
    rw [← UInt8.toNat_inj, toNat_decode_first, hcut]
    omega
  have hsecond : (decode fields.word).second = fields.second % 32 := by
    rw [← UInt8.toNat_inj, toNat_decode_second, hcut]
    omega
  have hlow : fields.word.toUInt16 = fields.immediate.toUInt16 := by
    rw [← UInt16.toNat_inj, UInt32.toNat_toUInt16]
    omega
  have hsigned : (decode fields.word).immediate = fields.immediate.toInt32 := by
    rw [decode, hlow, Int16.toInt16_toUInt16]
  rw [Fields.instruction, ← hopcode, ← hfirst, ← hsecond, ← hsigned]
  rfl

-- An opcode field that is assigned makes an instruction of its operation.
theorem instruction_eq_assemble {fields : Fields} {op : Operation}
    (h : fields.instruction.operation? = some op) :
    fields.instruction = assemble op fields.first fields.second fields.immediate := by
  let assigned : Fields := { fields with opcode := op.code }
  have hcode : op.code = fields.opcode % 32 := UInt8.toNat_inj.mp (toNat_opcode h).symm
  have hcut : op.code.toNat % 32 = fields.opcode.toNat % 32 := by
    rw [hcode, UInt8.toNat_mod]
    exact Nat.mod_mod _ 32
  have hword : assigned.word = fields.word := by
    rw [← UInt32.toNat_inj, Fields.toNat_word, Fields.toNat_word, hcut]
  have hopcode : op.code % 32 = fields.opcode % 32 := by
    rw [← UInt8.toNat_inj, UInt8.toNat_mod, UInt8.toNat_mod]
    exact hcut
  calc fields.instruction
    _ = assigned.instruction := by rw [Fields.instruction, Fields.instruction, hword, hopcode]
    _ = { decode assigned.word with immediate := fields.immediate.toInt32 } := by
      rw [decode_word]
      rfl

-- The values that a decoded word gives back.
def fields (i : Instruction) : Fields :=
  ⟨i.opcode, i.first, i.second, i.immediate.toInt16⟩

theorem toNat_word_fields (word : UInt32) :
    (decode word).fields.word.toNat = word.toNat / 131072 * 131072 + word.toNat % 65536 := by
  have hlt := word.toNat_lt
  rw [Fields.toNat_word]
  simp only [fields, toNat_decode_opcode, toNat_decode_first, toNat_decode_second,
    toNat_decode_immediate]
  omega

theorem word_fields (word : UInt32) : (decode word).fields.word = word &&& 0xFFFEFFFF := by
  have hword := word.toNat_lt
  have hmask : ∀ bit < 32, (0xFFFEFFFF : Nat).testBit bit = decide (bit ≠ 16) := by decide
  have hhigh (bit : Nat) : (word.toNat / 131072).testBit bit = word.toNat.testBit (bit + 17) :=
    @Nat.testBit_div_two_pow 17 word.toNat bit
  have hlow (bit : Nat) :
      (word.toNat % 65536).testBit bit = (decide (bit < 16) && word.toNat.testBit bit) :=
    Nat.testBit_mod_two_pow word.toNat 16 bit
  rw [← UInt32.toNat_inj, toNat_word_fields, UInt32.toNat_and]
  apply Nat.eq_of_testBit_eq
  intro bit
  have hparts := Nat.testBit_two_pow_mul_add (i := 17) (word.toNat / 131072)
    (by omega : word.toNat % 65536 < 2 ^ 17) bit
  rw [Nat.mul_comm _ 131072, Nat.testBit_and]
  refine hparts.trans ?_
  by_cases hbit : bit < 32
  · simp only [UInt32.reduceToNat, hmask bit hbit]
    split
    · rw [hlow]
      by_cases hbelow : bit < 16 <;> grind
    · rw [hhigh]
      grind
  · have hpower := Nat.pow_le_pow_right (by decide : 0 < 2) (by omega : 32 ≤ bit)
    have hbeyond : word.toNat.testBit bit = false :=
      Nat.testBit_lt_two_pow (Nat.lt_of_lt_of_le hword hpower)
    rw [if_neg (by omega), hhigh, Nat.sub_add_cancel (by omega), hbeyond, Bool.false_and]

-- Two instructions of the same fields, whatever words they came from.
def Agree (i j : Instruction) : Prop :=
  i.opcode = j.opcode ∧ i.first = j.first ∧ i.second = j.second ∧ i.immediate = j.immediate

theorem agree_decode_iff_numbers (word other : UInt32) :
    Agree (decode word) (decode other) ↔
      word.toNat / 131072 = other.toNat / 131072 ∧ word.toNat % 65536 = other.toNat % 65536 := by
  constructor
  · rintro ⟨hopcode, hfirst, hsecond, himmediate⟩
    have hfields : (decode word).fields = (decode other).fields := by
      rw [fields, hopcode, hfirst, hsecond, himmediate]
      rfl
    have hword := toNat_word_fields word
    rw [hfields, toNat_word_fields] at hword
    omega
  · rintro ⟨hhigh, hlow⟩
    refine ⟨?_, ?_, ?_, ?_⟩
    · rw [← UInt8.toNat_inj, toNat_decode_opcode, toNat_decode_opcode]
      omega
    · have hhigher (n : Nat) : n / 4194304 = n / 131072 / 32 :=
        (Nat.div_div_eq_div_mul n 131072 32).symm
      rw [← UInt8.toNat_inj, toNat_decode_first, toNat_decode_first, hhigher, hhigh, ← hhigher]
    · rw [← UInt8.toNat_inj, toNat_decode_second, toNat_decode_second, hhigh]
    · have hsame : word.toUInt16 = other.toUInt16 := by
        rw [← UInt16.toNat_inj, UInt32.toNat_toUInt16, UInt32.toNat_toUInt16, hlow]
      rw [decode, decode, hsame]

theorem fields_decode_eq_iff (word other : UInt32) :
    (decode word).fields = (decode other).fields ↔ Agree (decode word) (decode other) := by
  constructor
  · intro h
    have hword := toNat_word_fields word
    rw [h, toNat_word_fields] at hword
    rw [agree_decode_iff_numbers]
    omega
  · rintro ⟨hopcode, hfirst, hsecond, himmediate⟩
    simp only [fields, hopcode, hfirst, hsecond, himmediate]

theorem agree_decode_iff (word other : UInt32) :
    Agree (decode word) (decode other) ↔
      ∀ bit, bit ≠ 16 → word.toNat.testBit bit = other.toNat.testBit bit := by
  have hhigh (n bit : Nat) : (n / 131072).testBit bit = n.testBit (bit + 17) :=
    @Nat.testBit_div_two_pow 17 n bit
  have hlow (n bit : Nat) : (n % 65536).testBit bit = (decide (bit < 16) && n.testBit bit) :=
    Nat.testBit_mod_two_pow n 16 bit
  rw [agree_decode_iff_numbers]
  constructor
  · rintro ⟨hsame, hsame'⟩ bit hbit
    obtain hbelow | habove : bit < 16 ∨ 17 ≤ bit := by omega
    · have hbits := congrArg (Nat.testBit · bit) hsame'
      simpa only [hlow, hbelow, decide_true, Bool.true_and] using hbits
    · have hbits := congrArg (Nat.testBit · (bit - 17)) hsame
      simpa only [hhigh, Nat.sub_add_cancel habove] using hbits
  · intro hbits
    constructor
    · apply Nat.eq_of_testBit_eq
      intro bit
      rw [hhigh, hhigh]
      exact hbits _ (by omega)
    · apply Nat.eq_of_testBit_eq
      intro bit
      rw [hlow, hlow]
      by_cases hbelow : bit < 16
      · rw [hbits bit (by omega)]
      · rw [decide_eq_false hbelow, Bool.false_and, Bool.false_and]

end Instruction

end WordMachine
