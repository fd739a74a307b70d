import WordMachine.Proofs.Execution.Frame
import WordMachine.Proofs.Flat.Console
import WordMachine.Proofs.Memory.Word

namespace WordMachine

open Flat

namespace Machine

-- The machine and its console as a flat machine. Its account of the execution is left out.
def flatten (machine : Machine) (console : Console) : Flat where
  words := (machine.registers.general.map number).push machine.registers.flags.toWord.toNat
  size := machine.memory.size
  bytes := fun place => (machine.memory.byteAt place).toNat
  pc := machine.pc.toNat
  console

def setting (machine : Machine) : Setting where
  top := number machine.stackTop
  policy := machine.policy

-- The value of a register operand, and zero for a register that does not exist.
def value (machine : Machine) (index : UInt8) : Int32 :=
  match machine.registers.read index with
  | .ok value => value
  | .error _ => 0

theorem readRegister_eq (machine : Machine) (index : UInt8) :
    machine.readRegister index =
      if index.toNat ≤ 16 then .ok (machine.value index)
      else .error (.register (.absent index) machine.pc) := by
  unfold readRegister value
  by_cases hlt : index.toNat < 16
  · rw [if_pos (by omega), Registers.read_of_lt _ _ hlt]
  · by_cases heq : index.toNat = 16
    · have heq : index = 16 := UInt8.toNat_inj.mp heq
      subst heq
      rw [if_pos (by decide), Registers.read_flags]
    · rw [if_neg (by omega), Registers.read_of_gt _ _ (by omega)]

theorem writeRegister_eq (machine : Machine) (index : UInt8) (value : Int32) :
    machine.writeRegister index value =
      if hi : index.toNat < 16 then .ok (machine.setRegister index value hi)
      else if index = 16 then .error (.register (.readOnly index) machine.pc)
      else .error (.register (.absent index) machine.pc) := by
  unfold writeRegister
  by_cases hlt : index.toNat < 16
  · rw [dif_pos hlt, Registers.write_of_lt _ _ _ hlt]
    rfl
  · rw [dif_neg hlt]
    by_cases heq : index = 16
    · subst heq
      rw [if_pos rfl, Registers.write_flags]
    · have hne : index.toNat ≠ 16 := by
        intro h
        exact heq (UInt8.toNat_inj.mp h)
      rw [if_neg heq, Registers.write_of_gt _ _ _ (by omega)]

section Flatten

variable (machine : Machine) (console : Console)

theorem bounded_flatten : (machine.flatten console).Bounded where
  words word hw := by
    obtain hmem | heq := Vector.mem_push.mp hw
    · obtain ⟨value, -, rfl⟩ := Vector.mem_map.mp hmem
      exact number_lt value
    · rw [heq]
      exact machine.registers.flags.toWord.toNat_lt
  bytes place := (machine.memory.byteAt place).toNat_lt
  pc := machine.pc.toNat_lt

theorem word_flatten {index : UInt8} (hi : index.toNat ≤ 16) :
    (machine.flatten console).word index = number (machine.value index) := by
  unfold word flatten value
  by_cases hlt : index.toNat < 16
  · rw [Registers.read_of_lt _ _ hlt, Vector.getElem?_eq_getElem (by omega), Option.getD_some,
      Vector.getElem_push_lt hlt, Vector.getElem_map]
  · have heq : index = 16 := UInt8.toNat_inj.mp (by omega : index.toNat = 16)
    subst heq
    rw [Registers.read_flags]
    simp only
    rw [number_toInt32]
    exact congrArg (Option.getD · 0) (Vector.getElem?_push_size ..)

theorem value_stackPointer : machine.value 6 = machine.registers.stackPointer := by
  rw [value, Registers.read_of_lt _ _ (by decide)]
  rfl

theorem sp_flatten : (machine.flatten console).sp = number machine.registers.stackPointer := by
  rw [sp, word_flatten _ _ (by decide), value_stackPointer]

theorem sp_flatten_eq_top_iff :
    (machine.flatten console).sp = machine.setting.top ↔ machine.isAtStackTop = true := by
  rw [sp_flatten, isAtStackTop, decide_eq_true_iff]
  exact ⟨number_inj, congrArg number⟩

theorem slot_flatten : (machine.flatten console).slot = number machine.pushSlot := by
  rw [slot, sp_flatten, pushSlot, number_sub_immediate]
  rfl

theorem nextPc_flatten : (machine.flatten console).nextPc = machine.nextPc.toNat := by
  rw [Machine.nextPc, UInt32.toNat_add]
  rfl

theorem target_flatten (i : Instruction) :
    (machine.flatten console).target i = (machine.target i.immediate).toNat := by
  have hi := toNat_toUInt32_eq_emod i.immediate
  rw [Machine.target, UInt32.toNat_add, ← machine.nextPc_flatten console]
  unfold Flat.target Flat.nextPc reduce
  omega

theorem address_flatten : (machine.flatten console).address = machine.pc := by
  rw [Flat.address]
  exact UInt32.ofNat_toNat

theorem set_flatten {index : UInt8} (value : Int32) (hi : index.toNat < 16) :
    (machine.flatten console).set index (number value) =
      (machine.setRegister index value hi).flatten console := by
  rw [Flat.set, dif_pos (by omega)]
  simp only [flatten, setRegister, Vector.set_push, dif_pos hi, Vector.map_set]

theorem set_flags_flatten (first second : Int32) :
    (machine.flatten console).set 16 (packed (number first) (number second)) =
      (machine.compare first second).flatten console := by
  rw [Flat.set, dif_pos (by decide)]
  simp only [flatten, compare, Registers.compare, toNat_toWord_compare, Vector.set_push]
  rfl

theorem set_sp_flatten (value : Int32) :
    (machine.flatten console).set 6 (number value) =
      (machine.setStackPointer value).flatten console :=
  machine.set_flatten console value (by decide)

theorem drop_flatten :
    (machine.flatten console).set 6 (reduce ((machine.flatten console).sp + 4)) =
      machine.drop.flatten console := by
  have hsum := number_add_immediate machine.registers.stackPointer 4
  rw [sp_flatten, drop, ← set_sp_flatten, hsum]
  rfl

theorem pushedWord_flatten (value : Int32) :
    ((machine.setWord machine.pushSlot.toInt value).flatten console).set 6
        (machine.flatten console).slot =
      (machine.pushedWord value).flatten console := by
  obtain ⟨tally, ht⟩ := machine.pushedWord_eq value
  rw [slot_flatten, set_sp_flatten, ht]
  rfl

theorem load_flatten (place : Int) :
    (machine.flatten console).load place =
      ((machine.load place).map number, machine.flatten console) := by
  rw [Machine.load_eq, Flat.load]
  by_cases hm : machine.memory.Holds place
  · rw [if_pos hm, Except.map, number_toInt32, Memory.toNat_wordAt]
    refine (if_pos hm).trans ?_
    simp only [flatten, Nat.mul_comm]
  · rw [if_neg hm, Except.map]
    refine (if_neg hm).trans ?_
    rw [address_flatten]
    rfl

theorem setWord_flatten (place : Int) (value : Int32) :
    (machine.setWord place value).flatten console =
      { machine.flatten console with
        bytes := fun address =>
          if place.toNat ≤ address ∧ address < place.toNat + 4 then
            number value >>> (8 * (address - place.toNat)) % 256
          else (machine.flatten console).bytes address } := by
  have hbytes : ((machine.setWord place value).flatten console).bytes = fun address =>
      if place.toNat ≤ address ∧ address < place.toNat + 4 then
        number value >>> (8 * (address - place.toNat)) % 256
      else (machine.flatten console).bytes address := by
    funext address
    simp only [flatten, setWord, Memory.byteAt_setWord]
    by_cases hin : place.toNat ≤ address ∧ address < place.toNat + 4
    · rw [if_pos hin, if_pos hin, Memory.digit, UInt8.toNat_ofNat']
      rfl
    · rw [if_neg hin, if_neg hin]
  rw [← hbytes]
  rfl

theorem store_flatten (place : Int) (value : Int32) :
    (machine.flatten console).store place (number value) =
      match machine.store place value with
      | .ok after => (.ok 0, after.flatten console)
      | .error fault => (.error fault, machine.flatten console) := by
  rw [Machine.store_eq, Flat.store]
  by_cases hm : machine.memory.Holds place
  · rw [if_pos hm]
    refine (if_pos hm).trans ?_
    exact congrArg (Prod.mk _) (machine.setWord_flatten console place value).symm
  · rw [if_neg hm]
    refine (if_neg hm).trans ?_
    rw [address_flatten]
    rfl

theorem print_flatten (value : Int32) :
    (machine.flatten console).print (number value) =
      match console.writeLine (Console.printedLine value) with
      | (.ok (), after) => (.ok 0, machine.flatten after)
      | (.error cause, after) => (.error (.output cause), machine.flatten after) := by
  have hnewline := newline_not_mem_printedLine value
  have hsink : (machine.flatten console).console.sink = console.sink := rfl
  unfold Flat.print
  simp only [line_number, hsink, Console.writeLine]
  cases hf : console.sink.isFull with
  | true =>
    rw [Sink.writeLine_of_full hf, if_pos rfl, Sink.flush]
    simp only
    generalize List.take console.sink.room (Console.printedLine value ++ "\n").toList = taken
    by_cases hshort : taken.length < (Console.printedLine value ++ "\n").length
    · simp only [hshort, ite_true]
      rfl
    · cases hr : console.sink.refusesFlush <;> simp only [hshort, ite_false, ite_true] <;> rfl
  | false =>
    rw [Sink.writeLine_of_not_full hf hnewline, if_neg (by decide), Sink.flush]
    cases hr : console.sink.refusesFlush <;> rfl

theorem read_flatten :
    (machine.flatten console).read =
      match console.readInteger with
      | (.ok value, after) => (.ok (number value), machine.flatten after)
      | (.error cause, after) => (.error (.input cause), machine.flatten after) := by
  have hconsole : (machine.flatten console).console = console := rfl
  unfold Flat.read Console.readInteger
  rw [hconsole]
  rcases console.nextToken with ⟨token | _ | _, after⟩
  · simp only [integer_eq]
    cases Decimal.readSigned 0x80000000 token.toList with
    | error cause => rfl
    | ok value =>
      simp only [number_ofInt]
      rfl
  · rfl
  · rfl

end Flatten

end Machine

end WordMachine
