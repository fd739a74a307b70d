import WordMachine.Proofs.Console.Numeral
import WordMachine.Proofs.Simulation.Branching
import WordMachine.Proofs.Simulation.Place

namespace WordMachine

namespace Flags

-- What no comparison breaks: equal operands set one flag alone, and a difference that is no signed
-- word has the sign of the unsigned comparison.
structure Coherent (flags : Flags) : Prop where
  zero : flags.zero = true → flags.carry = false ∧ flags.sign = false ∧ flags.overflow = false
  overflow : flags.overflow = true → flags.carry = flags.sign

theorem coherent_iff (flags : Flags) :
    flags.Coherent ↔
      (flags.zero = true →
        flags.carry = false ∧ flags.sign = false ∧ flags.overflow = false) ∧
      (flags.overflow = true → flags.carry = flags.sign) :=
  ⟨fun h => ⟨h.zero, h.overflow⟩, fun h => ⟨h.1, h.2⟩⟩

instance (flags : Flags) : Decidable flags.Coherent :=
  decidable_of_iff _ flags.coherent_iff.symm

-- The words of all coherent flags.
def words : List UInt32 := [0, 0x1, 0x40, 0x80, 0x81, 0x800, 0x881]

-- Operands whose comparison gives each of the words.
def operands : List (Int32 × Int32) :=
  [(0, 1), (-1, 0), (0, 0), (0, -1), (1, 0), (1, Int32.minValue), (-1, Int32.maxValue)]

theorem toWord_mem_words_iff {flags : Flags} : flags.toWord ∈ words ↔ flags.Coherent := by
  obtain ⟨carry, zero, sign, overflow⟩ := flags
  revert carry zero sign overflow
  decide

theorem coherent_clear : clear.Coherent := by
  decide

section Compare

variable (first second : Int32)

theorem compare_self : compare first first = ⟨false, true, false, false⟩ := by
  simp [compare]

theorem coherent_compare : (compare first second).Coherent := by
  refine ⟨?_, ?_⟩
  · intro hzero
    rw [zero_compare, decide_eq_true_iff] at hzero
    rw [hzero, compare_self]
    exact ⟨rfl, rfl, rfl⟩
  · intro hoverflow
    have hle := first.le_toInt
    have hlt := first.toInt_lt
    have hle' := second.le_toInt
    have hlt' := second.toInt_lt
    have hfirst := toNat_toUInt32_eq_emod first
    have hsecond := toNat_toUInt32_eq_emod second
    rw [carry_compare]
    simp only [compare, decide_eq_true_iff] at hoverflow ⊢
    rw [decide_eq_decide]
    omega

-- An unsigned comparison differs from a signed one just where one operand alone is negative.
theorem carry_ne_less_iff :
    (compare first second).carry ≠ (compare first second).holds .less ↔
      first.toBitVec.msb ≠ second.toBitVec.msb := by
  have hle := first.le_toInt
  have hlt := first.toInt_lt
  have hle' := second.le_toInt
  have hlt' := second.toInt_lt
  have hfirst := toNat_toUInt32_eq_emod first
  have hsecond := toNat_toUInt32_eq_emod second
  rw [carry_compare, holds_compare, BitVec.msb_eq_toInt, BitVec.msb_eq_toInt, ne_eq, ne_eq,
    decide_eq_decide, decide_eq_decide]
  show ¬(_ ↔ second.toInt < first.toInt) ↔ ¬(first.toInt < 0 ↔ second.toInt < 0)
  omega

end Compare

theorem exists_compare {flags : Flags} (h : flags.Coherent) :
    ∃ first second, flags = compare first second := by
  have hall : ∀ carry zero sign overflow, (Flags.mk carry zero sign overflow).Coherent →
      Flags.mk carry zero sign overflow ∈
        operands.map fun pair => compare pair.1 pair.2 := by
    decide
  obtain ⟨carry, zero, sign, overflow⟩ := flags
  obtain ⟨pair, -, hpair⟩ := List.mem_map.mp (hall carry zero sign overflow h)
  exact ⟨pair.1, pair.2, hpair.symm⟩

theorem exists_toWord {word : UInt32} (h : word ∈ words) :
    ∃ first second, (compare first second).toWord = word := by
  have hall : words = operands.map fun pair => (compare pair.1 pair.2).toWord := by
    decide
  rw [hall] at h
  obtain ⟨pair, -, hpair⟩ := List.mem_map.mp h
  exact ⟨pair.1, pair.2, hpair⟩

-- Of the three ways in which two numbers can compare, coherent flags tell exactly one.
theorem count_holds {flags : Flags} (h : flags.Coherent) :
    [flags.holds .less, flags.holds .equal, !flags.holds .lessOrEqual].count true = 1 := by
  obtain ⟨carry, zero, sign, overflow⟩ := flags
  revert carry zero sign overflow
  decide

end Flags

namespace Machine

-- One comparison makes the flags coherent, and no other instruction writes them.
theorem coherent_of_completes {i : Instruction} {machine after : Machine}
    {console rest : Console} {flow : Flow} (h : machine.Completes i console flow after rest)
    (hflags : machine.registers.flags.Coherent) : after.registers.flags.Coherent := by
  by_cases hop : i.operation? = some .compare
  · obtain ⟨first, second, -, -, hafter⟩ := flags_of_comparison h hop
    rw [hafter]
    exact Flags.coherent_compare first second
  · rw [flags_of_completes h hop]
    exact hflags

end Machine

namespace Simulator

theorem coherent_of_reaches {program : List Instruction} {configuration : Configuration}
    {console : Console} {past : List Completion} {here : Simulator}
    (h : (ofProgram program configuration console).Reaches past here) :
    here.machine.registers.flags.Coherent := by
  apply reaches_induction (motive := fun _ machine => machine.registers.flags.Coherent) h
  · exact Flags.coherent_clear
  · intro past before after i console rest flow pc hbefore hcompletes
    have hafter := Machine.coherent_of_completes hcompletes hbefore
    exact hafter

-- Reads two numbers, and prints the flags that the second one leaves when compared with the first.
def comparator : List Instruction :=
  [.assemble .read 0 0 0, .assemble .read 1 0 0, .assemble .compare 0 1 0,
   .assemble .print 16 0 0]

theorem reaches_comparison (configuration : Configuration) (first second : Int32) :
    ∃ past here, (ofProgram comparator configuration (.ofInput
        (Console.numeral first ++ 10 :: Console.numeral second) .unlimited)).Reaches past here ∧
      here.machine.registers.flags = .compare first second := by
  let start := ofProgram comparator configuration
    (.ofInput (Console.numeral first ++ 10 :: Console.numeral second) .unlimited)
  have hstart : Stands comparator 0 start := ⟨rfl, rfl⟩
  obtain ⟨hread, hread'⟩ := Console.integer_numerals first second .unlimited
  obtain ⟨asked, hasked, hat, hgeneral⟩ := passes_of_read hstart rfl rfl rfl
    (by decide : (0 : UInt8).toNat < 16) hread (by decide)
  have hnext : asked.console.nextToken.1.integer = .ok second := by
    rw [hasked.console]
    exact hread'
  obtain ⟨given, hgiven, hat, hgeneral'⟩ := passes_of_read hat rfl rfl rfl
    (by decide : (1 : UInt8).toNat < 16) hnext (by decide)
  have hcompare := given.machine.effect_compare_of_lt (i := .assemble .compare 0 1 0)
    (by decide) (by decide) 0
  obtain ⟨there, hthere, hat⟩ := passes_of_effect hat rfl rfl rfl rfl hcompare
    (congrArg Flow.goTo (nextPc_of_stands hat)) (by decide)
  obtain ⟨count, -, rfl⟩ := leads_trans hasked.leads (leads_trans hgiven.leads hthere.leads)
  refine ⟨_, _, reaches_after start count, ?_⟩
  have hfirst : given.machine.general 0 = first := (hgeneral' 0).trans (hgeneral 0)
  have hsecond : given.machine.general 1 = second := hgeneral' 1
  rw [hthere.registers, ← hfirst, ← hsecond]
  rfl

-- A comparison leaves one of seven combinations of the flags, and each of the seven is left by
-- some. So these are the words that operand 16 can ever be read as, in any run of any program, and
-- exactly one of the three outcomes of a comparison can be told from each.
theorem reachable_flag_words_are_seven :
    (∀ first second : Int32, (Flags.compare first second).Coherent ∧
      ((Flags.compare first second).carry ≠ (Flags.compare first second).holds .less ↔
        first.toBitVec.msb ≠ second.toBitVec.msb)) ∧
    (∀ flags : Flags, flags.Coherent → ∃ first second, flags = .compare first second) ∧
    (∀ program configuration console past here,
      (ofProgram program configuration console).Reaches past here →
        (∃ word ∈ Flags.words, here.machine.readRegister 16 = .ok word.toInt32) ∧
        [here.machine.registers.flags.holds .less, here.machine.registers.flags.holds .equal,
          !here.machine.registers.flags.holds .lessOrEqual].count true = 1) ∧
    (∀ word ∈ Flags.words, ∃ program configuration console past here,
      (ofProgram program configuration console).Reaches past here ∧
        here.machine.readRegister 16 = .ok word.toInt32) := by
  have hread (here : Simulator) : here.machine.readRegister 16 =
      .ok here.machine.registers.flags.toWord.toInt32 :=
    Machine.readRegister_eq_ok_iff.mpr here.machine.registers.read_flags
  refine ⟨?_, fun flags => Flags.exists_compare, ?_, ?_⟩
  · intro first second
    exact ⟨Flags.coherent_compare first second, Flags.carry_ne_less_iff first second⟩
  · intro program configuration console past here h
    have hcoherent := coherent_of_reaches h
    exact ⟨⟨_, Flags.toWord_mem_words_iff.mpr hcoherent, hread here⟩,
      Flags.count_holds hcoherent⟩
  · intro word hword
    obtain ⟨first, second, rfl⟩ := Flags.exists_toWord hword
    obtain ⟨past, here, hreaches, hflags⟩ := reaches_comparison .default first second
    refine ⟨_, _, _, past, here, hreaches, ?_⟩
    rw [hread, hflags]

-- Makes the least word from the greatest one, and compares it with 1.
def overflowing : Simulator :=
  .ofProgram
    [.assemble .moveImm 0 0 1, .assemble .moveImm 1 0 (-1), .assemble .halve 1 0 0,
     .assemble .addImm 1 0 1, .assemble .compare 0 1 0, .assemble .print 16 0 0]
    .default (.ofInput [] .unlimited)

theorem overflow_alone_is_less :
    (overflowing.after 5).machine.registers.flags = .compare 1 Int32.minValue ∧
    (overflowing.after 5).machine.readRegister 16 = .ok 0x800 ∧
    [(overflowing.after 5).machine.registers.flags.holds .less,
      (overflowing.after 5).machine.registers.flags.holds .equal,
      !(overflowing.after 5).machine.registers.flags.holds .lessOrEqual].count true = 1 ∧
    (Flags.compare 1 Int32.minValue).carry ≠ (Flags.compare 1 Int32.minValue).holds .less := by
  obtain ⟨hcompare, -, hreached, -⟩ := reachable_flag_words_are_seven
  obtain ⟨-, hdiffers⟩ := hcompare 1 Int32.minValue
  obtain ⟨-, hone⟩ := hreached _ _ _ _ _ (reaches_after overflowing 5)
  exact ⟨rfl, rfl, hone, hdiffers.mpr (by decide)⟩

end Simulator

end WordMachine
