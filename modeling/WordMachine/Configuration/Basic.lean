import WordMachine.Decimal.Integer

namespace WordMachine

-- What becomes of a word with an unassigned opcode: it stops the machine, or it is skipped.
inductive UnknownPolicy where
  | strict
  | lenient
  deriving DecidableEq, Repr

def UnknownPolicy.name : UnknownPolicy → String
  | strict => "Strict"
  | lenient => "Lenient"

-- The order of the four bytes of a word in a program image. The native order is the little one.
inductive ByteOrder where
  | native
  | little
  | big
  deriving DecidableEq, Repr

def ByteOrder.name : ByteOrder → String
  | native => "Native"
  | little => "Little"
  | big => "Big"

-- The settings of a run.
structure Configuration where
  traced : Bool
  limit : Option UInt64
  policy : UnknownPolicy
  stackSize : Nat
  byteOrder : ByteOrder
  deriving DecidableEq, Repr

-- What is wrong with a stack size.
inductive StackSizeError where
  | notWholeWords (size : Nat)
  | tooLarge (size : Nat)
  deriving DecidableEq, Repr

def StackSizeError.message : StackSizeError → String
  | notWholeWords size =>
    "stack_size " ++ Decimal.renderNat size ++ " must be a positive multiple of 4"
  | tooLarge size =>
    "stack_size " ++ Decimal.renderNat size ++ " does not fit a 32-bit stack pointer"

namespace Configuration

def default : Configuration where
  traced := false
  limit := none
  policy := .strict
  stackSize := 1024
  byteOrder := .native

-- A stack is some whole words, and its end is a signed 32-bit number.
def validate (configuration : Configuration) : Except StackSizeError Unit :=
  let size := configuration.stackSize
  if size = 0 ∨ size % 4 ≠ 0 then .error (.notWholeWords size)
  else if 0x80000000 ≤ size then .error (.tooLarge size)
  else .ok ()

theorem validate_eq_ok_iff (configuration : Configuration) :
    configuration.validate = .ok () ↔
      0 < configuration.stackSize ∧ 4 ∣ configuration.stackSize ∧
        configuration.stackSize < 0x80000000 := by
  simp only [validate]
  split
  · simp only [reduceCtorEq, false_iff]
    omega
  · split
    · simp only [reduceCtorEq, false_iff]
      omega
    · simp only [true_iff]
      omega

private def limitText : Option UInt64 → String
  | none => "None"
  | some limit => "Some(" ++ Decimal.renderNat limit.toNat ++ ")"

-- All settings on one line, for the log.
def summary (configuration : Configuration) : String :=
  "Config \x7b general: GeneralConfig \x7b trace_instructions: "
    ++ (if configuration.traced then "true" else "false")
    ++ ", max_instructions: " ++ limitText configuration.limit
    ++ ", unknown_opcode: " ++ configuration.policy.name
    ++ " \x7d, memory: MemoryConfig \x7b stack_size: "
    ++ Decimal.renderNat configuration.stackSize
    ++ ", byte_order: " ++ configuration.byteOrder.name ++ " \x7d \x7d"

end Configuration

end WordMachine
