namespace WordMachine

-- How a run ends without a fault: by a return at the top of the stack, just past the last
-- instruction, at a request from outside, or at the limit of instructions.
inductive Status where
  | halted
  | endOfProgram
  | cancelled
  | stepLimit
  deriving DecidableEq, Repr

namespace Status

def name : Status → String
  | halted => "Halted"
  | endOfProgram => "EndOfProgram"
  | cancelled => "Cancelled"
  | stepLimit => "StepLimit"

-- The program has come to its own end.
def isSuccess : Status → Bool
  | halted | endOfProgram => true
  | cancelled | stepLimit => false

def exitCode (status : Status) : Nat :=
  if status.isSuccess then 0 else 2

end Status

end WordMachine
