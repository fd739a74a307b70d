import WordMachine.Proofs.Execution.InPlace

namespace WordMachine

-- A way to book that is as good as the old one for every known operation.
structure Tally.Books (book : Tally → Tally) : Prop where
  observeDepth : ∀ tally depth, book (tally.observeDepth depth) = (book tally).observeDepth depth
  recordBranch : ∀ tally taken, book (tally.recordBranch taken) = (book tally).recordBranch taken
  retire : ∀ tally category, category ≠ .unknown →
    book (tally.retire category) = (book tally).retire category

theorem Operation.category_ne_unknown (op : Operation) : op.category ≠ .unknown := by
  cases op <;> nofun

namespace Machine

-- The same machine with another policy, and with other books.
def refit (policy : UnknownPolicy) (book : Tally → Tally) (machine : Machine) : Machine :=
  { machine with policy, tally := book machine.tally }

section Parts

variable (policy : UnknownPolicy) (book : Tally → Tally) (machine : Machine)

theorem readRegister_refit (index : UInt8) :
    (machine.refit policy book).readRegister index = machine.readRegister index := rfl

theorem load_refit (address : Int) :
    (machine.refit policy book).load address = machine.load address := rfl

theorem pushed_refit (index : UInt8) :
    (machine.refit policy book).pushed index = machine.pushed index := rfl

theorem writeRegister_refit (index : UInt8) (value : Int32) :
    (machine.refit policy book).writeRegister index value =
      refit policy book <$> machine.writeRegister index value := by
  unfold writeRegister
  have hregisters : (machine.refit policy book).registers = machine.registers := rfl
  rw [hregisters]
  cases machine.registers.write index value with
  | error cause | ok registers => rfl

theorem store_refit (address : Int) (value : Int32) :
    (machine.refit policy book).store address value =
      refit policy book <$> machine.store address value := by
  unfold store
  have hmemory : (machine.refit policy book).memory = machine.memory := rfl
  rw [hmemory]
  cases machine.memory.writeWord address value.toUInt32 with
  | error cause | ok memory => rfl

theorem revise_refit (index : UInt8) (f : Int32 → Int32) :
    (machine.refit policy book).revise index f = refit policy book <$> machine.revise index f := by
  unfold revise
  rw [readRegister_refit, map_bind]
  simp only [writeRegister_refit]

theorem combine_refit (first second : UInt8) (f : Int32 → Int32 → Int32) :
    (machine.refit policy book).combine first second f =
      refit policy book <$> machine.combine first second f := by
  unfold combine
  simp only [readRegister_refit, writeRegister_refit, map_bind]

variable {book} (hbook : Tally.Books book)
include hbook

theorem observeDepth_refit :
    (machine.refit policy book).observeDepth = machine.observeDepth.refit policy book := by
  unfold observeDepth
  have hdepth : (machine.refit policy book).stackTop.toInt -
      (machine.refit policy book).registers.stackPointer.toInt =
        machine.stackTop.toInt - machine.registers.stackPointer.toInt := rfl
  simp only [hdepth]
  split
  · rfl
  · simp only [refit, hbook.observeDepth]

theorem recordBranch_refit (taken : Bool) :
    (machine.refit policy book).recordBranch taken =
      (machine.recordBranch taken).refit policy book := by
  simp only [recordBranch, refit, hbook.recordBranch]

theorem retire_refit (op : Operation) :
    (machine.refit policy book).retire op.category =
      (machine.retire op.category).refit policy book := by
  simp only [retire, refit, hbook.retire _ _ op.category_ne_unknown]

theorem push_refit (value : Int32) :
    (machine.refit policy book).push value = refit policy book <$> machine.push value := by
  unfold push
  have hslot : (machine.refit policy book).pushSlot = machine.pushSlot := rfl
  rw [hslot, store_refit, map_bind]
  cases machine.store machine.pushSlot.toInt value with
  | error fault => rfl
  | ok stored =>
    exact congrArg Except.ok (observeDepth_refit policy (stored.setStackPointer _) hbook)

-- The machine's part of an operation is the same, whatever the policy and the books are.
theorem effect_refit (op : Operation) (i : Instruction) (delivered : Int32) :
    (machine.refit policy book).effect op i delivered =
      refit policy book <$> machine.effect op i delivered := by
  cases op with
  | subImm | addImm | halve => exact revise_refit _ _ _ _ _
  | add | mul => exact combine_refit _ _ _ _ _ _
  | move | load =>
    simp only [effect, readRegister_refit, load_refit, writeRegister_refit, map_bind]
  | store => simp only [effect, readRegister_refit, store_refit, map_bind]
  | moveImm | read => exact writeRegister_refit _ _ _ _ _
  | compare =>
    simp only [effect, readRegister_refit, map_bind]
    rfl
  | branch condition => exact congrArg Except.ok (recordBranch_refit policy machine hbook _)
  | call => exact push_refit policy machine hbook _
  | ret =>
    have htop : (machine.refit policy book).isAtStackTop = machine.isAtStackTop := rfl
    have hpeek : (machine.refit policy book).peek = machine.peek := rfl
    simp only [effect, htop, hpeek]
    cases machine.isAtStackTop with
    | true => rfl
    | false =>
      simp only [Bool.false_eq_true, ite_false, map_bind]
      rfl
  | push => simp only [effect, pushed_refit, push_refit policy machine hbook, map_bind]
  | pop =>
    have hpeek : (machine.refit policy book).peek = machine.peek := rfl
    simp only [effect, hpeek, writeRegister_refit, map_bind]
    cases machine.peek with
    | error fault => rfl
    | ok value =>
      rw [ok_bind, ok_bind]
      cases machine.writeRegister i.first value with
      | error fault | ok written => rfl
  | print => rfl

-- The console's part, the way on and the report are the same anyhow.
theorem execute_refit {i : Instruction} {op : Operation} (hop : i.operation? = some op)
    (console : Console) :
    (machine.refit policy book).execute i console =
      { machine.execute i console with
        machine := (machine.execute i console).machine.refit policy book } := by
  have hconverse : (machine.refit policy book).converse op i console =
      machine.converse op i console := by
    cases op <;> rfl
  have hflow : (machine.refit policy book).flow op i = machine.flow op i := by
    cases op <;> rfl
  have hannounce (flow : Flow) : (machine.refit policy book).announce op flow =
      machine.announce op flow := by
    cases op <;> rfl
  simp only [execute_eq_transact, transact, hop, hconverse, effect_refit policy machine hbook,
    hflow, hannounce]
  rcases machine.converse op i console with ⟨⟨fault⟩ | ⟨delivered⟩, after⟩
  · rfl
  · cases he : machine.effect op i delivered with
    | error fault => simp only [he, Functor.map, Except.map]
    | ok final => simp only [he, Functor.map, Except.map, retire_refit policy final hbook]

end Parts

end Machine

end WordMachine
