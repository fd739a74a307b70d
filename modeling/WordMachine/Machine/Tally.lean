import WordMachine.Instruction.Operation

namespace WordMachine

-- The kinds of instructions that are counted apart. Words with an unassigned opcode are `unknown`.
inductive Category where
  | alu
  | load
  | store
  | compare
  | branch
  | call
  | stack
  | console
  | unknown
  deriving DecidableEq, Repr

def Operation.category : Operation → Category
  | subImm | add | addImm | mul | halve | move | moveImm => .alu
  | load => .load
  | store => .store
  | compare => .compare
  | branch _ => .branch
  | call | ret => .call
  | push | pop => .stack
  | print | read => .console

-- An account of what a machine has executed. The numbers have no bound here: those of a machine are
-- words of 64 bits, and are these as long as there is room in them (`HasRoom`).
structure Tally where
  retired : Nat
  alu : Nat
  load : Nat
  store : Nat
  compare : Nat
  branch : Nat
  call : Nat
  stack : Nat
  console : Nat
  unknown : Nat
  taken : Nat
  notTaken : Nat
  peakDepth : Nat
  deriving DecidableEq, Repr

namespace Tally

def zero : Tally := ⟨0, 0, 0, 0, 0, 0, 0, 0, 0, 0, 0, 0, 0⟩

def count (tally : Tally) : Category → Nat
  | .alu => tally.alu
  | .load => tally.load
  | .store => tally.store
  | .compare => tally.compare
  | .branch => tally.branch
  | .call => tally.call
  | .stack => tally.stack
  | .console => tally.console
  | .unknown => tally.unknown

-- Counts one executed instruction, in all and in its category.
def retire (tally : Tally) (category : Category) : Tally :=
  let tally := { tally with retired := tally.retired + 1 }
  match category with
  | .alu => { tally with alu := tally.alu + 1 }
  | .load => { tally with load := tally.load + 1 }
  | .store => { tally with store := tally.store + 1 }
  | .compare => { tally with compare := tally.compare + 1 }
  | .branch => { tally with branch := tally.branch + 1 }
  | .call => { tally with call := tally.call + 1 }
  | .stack => { tally with stack := tally.stack + 1 }
  | .console => { tally with console := tally.console + 1 }
  | .unknown => { tally with unknown := tally.unknown + 1 }

def recordBranch (tally : Tally) (taken : Bool) : Tally :=
  if taken then { tally with taken := tally.taken + 1 }
  else { tally with notTaken := tally.notTaken + 1 }

def observeDepth (tally : Tally) (depth : Nat) : Tally :=
  { tally with peakDepth := max tally.peakDepth depth }

-- Every counter can grow that many times by one, and fits a word of 64 bits afterwards.
structure HasRoom (tally : Tally) (more : Nat) : Prop where
  retired : tally.retired + more < UInt64.size
  count : ∀ category, tally.count category + more < UInt64.size
  taken : tally.taken + more < UInt64.size
  notTaken : tally.notTaken + more < UInt64.size

theorem retired_retire (tally : Tally) (category : Category) :
    (tally.retire category).retired = tally.retired + 1 := by
  cases category <;> rfl

theorem count_retire (tally : Tally) (category other : Category) :
    (tally.retire category).count other =
      tally.count other + if other = category then 1 else 0 := by
  cases category <;> cases other <;> rfl

end Tally

end WordMachine
