namespace WordMachine

-- What a branch asks of the flags.
inductive Condition where
  | equal
  | less
  | lessOrEqual
  | greaterOrEqual
  | belowOrEqual
  | always
  deriving DecidableEq, Repr

-- The operations of the machine. `first` and `second` are the two register operands and `imm`
-- is the immediate:
--   subImm  first -= imm          add      second += first
--   addImm  first += imm          mul      second *= first
--   halve   first >>= 1, unsigned move     second = first
--   load    second = [first+imm]  store    [second+imm] = first
--   moveImm first = imm           compare  flags of second - first
-- A branch and a call are relative to the next instruction.
inductive Operation where
  | subImm
  | add
  | addImm
  | mul
  | halve
  | move
  | load
  | store
  | moveImm
  | compare
  | branch (condition : Condition)
  | call
  | ret
  | push
  | pop
  | print
  | read
  deriving DecidableEq, Repr

namespace Operation

-- Every operation, each at the place of its opcode. The opcodes from 22 on are unassigned.
def table : List Operation :=
  [subImm, add, addImm, mul, halve, move, load, store, moveImm, compare,
   branch .equal, branch .less, branch .lessOrEqual, branch .greaterOrEqual,
   branch .belowOrEqual, branch .always, call, ret, push, pop, print, read]

def code : Operation → UInt8
  | subImm => 0
  | add => 1
  | addImm => 2
  | mul => 3
  | halve => 4
  | move => 5
  | load => 6
  | store => 7
  | moveImm => 8
  | compare => 9
  | branch .equal => 10
  | branch .less => 11
  | branch .lessOrEqual => 12
  | branch .greaterOrEqual => 13
  | branch .belowOrEqual => 14
  | branch .always => 15
  | call => 16
  | ret => 17
  | push => 18
  | pop => 19
  | print => 20
  | read => 21

def ofCode? (opcode : UInt8) : Option Operation :=
  table[opcode.toNat]?

def mnemonic : Operation → String
  | subImm => "subl"
  | add | addImm => "addl"
  | mul => "imull"
  | halve => "shrl"
  | move | load | store | moveImm => "movl"
  | compare => "cmpl"
  | branch .equal => "je"
  | branch .less => "jl"
  | branch .lessOrEqual => "jle"
  | branch .greaterOrEqual => "jge"
  | branch .belowOrEqual => "jbe"
  | branch .always => "jmp"
  | call => "call"
  | ret => "ret"
  | push => "pushl"
  | pop => "popl"
  | print => "printr"
  | read => "readr"

theorem ofCode?_code (op : Operation) : ofCode? op.code = some op := by
  cases op with
  | branch condition => cases condition <;> rfl
  | _ => rfl

theorem ofCode?_eq_none_iff (opcode : UInt8) : ofCode? opcode = none ↔ 22 ≤ opcode.toNat := by
  simp [ofCode?, table]

end Operation

end WordMachine
