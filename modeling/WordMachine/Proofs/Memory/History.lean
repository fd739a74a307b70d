import Mathlib.Algebra.BigOperators.Intervals
import WordMachine.Proofs.Execution.Frame
import WordMachine.Proofs.Memory.Word

namespace WordMachine

namespace Memory

-- What a memory is asked for: the word at an address, or to take one there.
inductive Request where
  | read (address : Int)
  | write (address : Int) (word : UInt32)
  deriving DecidableEq, Repr

-- The answer to a request, which is a word only for one that reads, and the memory after it.
def serve (memory : Memory) : Request → Except MemoryFault (Option UInt32) × Memory
  | .read address => ((memory.readWord address).map some, memory)
  | .write address word =>
    match memory.writeWord address word with
    | .ok written => (.ok none, written)
    | .error fault => (.error fault, memory)

def after (memory : Memory) (past : List Request) : Memory :=
  past.foldl (fun memory request => (memory.serve request).2) memory

def answers (memory : Memory) : List Request → List (Except MemoryFault (Option UInt32))
  | [] => []
  | request :: requests =>
    (memory.serve request).1 :: (memory.serve request).2.answers requests

-- The four bytes from an address on are among the first `size` ones.
def Within (size : Nat) (address : Int) : Prop :=
  0 ≤ address ∧ address + 4 ≤ size

instance (size : Nat) (address : Int) : Decidable (Within size address) :=
  inferInstanceAs (Decidable (_ ∧ _))

-- The byte that a request puts in a place, if it puts one there.
def Request.puts? (size place : Nat) : Request → Option Nat
  | .read _ => none
  | .write address word =>
    if Within size address ∧ address ≤ place ∧ place < address + 4 then
      some (word.toNat / 256 ^ (place - address.toNat) % 256)
    else none

-- The byte in a place by what has happened: the one that was put there last, or else zero.
def lastPut (size : Nat) (past : List Request) (place : Nat) : Nat :=
  (past.reverse.findSome? (Request.puts? size place)).getD 0

-- The answer of a map of bytes that knows nothing but what has happened.
def expected (size : Nat) (past : List Request) :
    Request → Except MemoryFault (Option UInt32)
  | .read address =>
    if Within size address then
      .ok (some (UInt32.ofNat
        (∑ offset ∈ Finset.range 4, lastPut size past (address.toNat + offset) * 256 ^ offset)))
    else .error ⟨address, size⟩
  | .write address _ => if Within size address then .ok none else .error ⟨address, size⟩

-- The place of a word as it is found with words of 64 bits: no negative address is converted, and
-- a sum that wraps around is refused.
def span? (size : UInt64) (address : Int64) : Option (UInt64 × UInt64) :=
  if address < 0 then none
  else
    let start := address.toUInt64
    let stop := start + 4
    if stop < start then none
    else if size < stop then none
    else some (start, stop)

section Request

variable (memory : Memory) (address : Int) (word : UInt32)

theorem locate_eq :
    memory.locate address =
      if Within memory.size address then .ok address.toNat else .error ⟨address, memory.size⟩ :=
  rfl

theorem readWord_of_within (h : Within memory.size address) :
    memory.readWord address = .ok (memory.wordAt address.toNat) := by
  rw [readWord, locate_eq, if_pos h]
  rfl

theorem readWord_of_not_within (h : ¬ Within memory.size address) :
    memory.readWord address = .error ⟨address, memory.size⟩ := by
  rw [readWord, locate_eq, if_neg h]
  rfl

theorem eq_wordAt_of_readWord {memory : Memory} {address : Int} {word : UInt32}
    (h : memory.readWord address = .ok word) : word = memory.wordAt address.toNat := by
  by_cases hin : Within memory.size address
  · rw [readWord_of_within memory address hin] at h
    exact (Except.ok.inj h).symm
  · rw [readWord_of_not_within memory address hin] at h
    cases h

theorem writeWord_of_within (h : Within memory.size address) :
    memory.writeWord address word = .ok (memory.setWord address.toNat word) := by
  rw [writeWord, locate_eq, if_pos h]
  rfl

theorem writeWord_of_not_within (h : ¬ Within memory.size address) :
    memory.writeWord address word = .error ⟨address, memory.size⟩ := by
  rw [writeWord, locate_eq, if_neg h]
  rfl

theorem toNat_digit (offset : Nat) :
    (digit word offset).toNat = word.toNat / 256 ^ offset % 256 := by
  rw [digit, UInt8.toNat_ofNat', Nat.shiftRight_eq_div_pow, Nat.pow_mul]

end Request

theorem size_serve (memory : Memory) (request : Request) :
    (memory.serve request).2.size = memory.size := by
  cases request with
  | read address => rfl
  | write address word =>
    by_cases h : Within memory.size address
    · simp only [serve, writeWord_of_within memory address word h]
      rfl
    · simp only [serve, writeWord_of_not_within memory address word h]

-- A request changes the bytes that it puts, and no others.
theorem byteAt_serve (memory : Memory) (request : Request) (place : Nat) :
    ((memory.serve request).2.byteAt place).toNat =
      (request.puts? memory.size place).getD (memory.byteAt place).toNat := by
  cases request with
  | read address => rfl
  | write address word =>
    by_cases h : Within memory.size address
    · have hnonneg := h.1
      simp only [serve, writeWord_of_within memory address word h, byteAt_setWord, Request.puts?]
      by_cases hin : address ≤ place ∧ place < address + 4
      · rw [if_pos (by omega), if_pos ⟨h, hin⟩, toNat_digit, Option.getD_some]
      · rw [if_neg (by omega), if_neg fun hput => hin hput.2, Option.getD_none]
    · simp only [serve, writeWord_of_not_within memory address word h, Request.puts?]
      rw [if_neg fun hput => h hput.1, Option.getD_none]

theorem after_concat (memory : Memory) (past : List Request) (request : Request) :
    memory.after (past ++ [request]) = ((memory.after past).serve request).2 := by
  rw [after, List.foldl_append]
  rfl

theorem size_after (size : Nat) (past : List Request) : ((blank size).after past).size = size := by
  induction past using List.reverseRecOn with
  | nil => rfl
  | append_singleton past request ih => rw [after_concat, size_serve, ih]

theorem lastPut_concat (size : Nat) (past : List Request) (request : Request) (place : Nat) :
    lastPut size (past ++ [request]) place =
      (request.puts? size place).getD (lastPut size past place) := by
  rw [lastPut, List.reverse_concat, List.findSome?_cons]
  cases request.puts? size place with
  | none => rfl
  | some byte => rfl

theorem byteAt_after (size : Nat) (past : List Request) (place : Nat) :
    (((blank size).after past).byteAt place).toNat = lastPut size past place := by
  induction past using List.reverseRecOn with
  | nil => exact congrArg UInt8.toNat (byteAt_blank size place)
  | append_singleton past request ih =>
    rw [after_concat, byteAt_serve, size_after, ih, lastPut_concat]

theorem wordAt_after (size : Nat) (past : List Request) (place : Nat) :
    (((blank size).after past).wordAt place).toNat =
      ∑ offset ∈ Finset.range 4, lastPut size past (place + offset) * 256 ^ offset := by
  simp only [toNat_wordAt, byteAt_after, Finset.sum_range_succ, Finset.sum_range_zero,
    Nat.add_zero]
  omega

theorem serve_after (size : Nat) (past : List Request) (request : Request) :
    (((blank size).after past).serve request).1 = expected size past request := by
  have hsize := size_after size past
  cases request with
  | read address =>
    by_cases h : Within size address
    · rw [serve, readWord_of_within _ _ (hsize.symm ▸ h), expected, if_pos h, ← wordAt_after,
        UInt32.ofNat_toNat]
      rfl
    · rw [serve, readWord_of_not_within _ _ (hsize.symm ▸ h), expected, if_neg h, hsize]
      rfl
  | write address word =>
    by_cases h : Within size address
    · rw [serve, writeWord_of_within _ _ _ (hsize.symm ▸ h), expected, if_pos h]
    · rw [serve, writeWord_of_not_within _ _ _ (hsize.symm ▸ h), expected, if_neg h, hsize]

theorem answers_after (memory : Memory) (past requests : List Request) (place : Nat) :
    ((memory.after past).answers requests)[place]? =
      requests[place]?.map fun request =>
        ((memory.after (past ++ requests.take place)).serve request).1 := by
  induction requests generalizing past place with
  | nil => rfl
  | cons request requests ih =>
    cases place with
    | zero =>
      rw [List.take_zero, List.append_nil]
      rfl
    | succ place =>
      rw [answers, ← after_concat, List.getElem?_cons_succ, ih, List.take_succ_cons,
        List.append_assoc]
      rfl

theorem answers_eq (size : Nat) (requests : List Request) (place : Nat) :
    ((blank size).answers requests)[place]? =
      requests[place]?.map (expected size (requests.take place)) := by
  have hanswers := (blank size).answers_after [] requests place
  simp only [List.nil_append, serve_after] at hanswers
  exact hanswers

-- No address of 64 bits is lost or made up by the conversion and the sum.
theorem locate_toInt (memory : Memory) (size : UInt64) (address : Int64)
    (hsize : memory.size = size.toNat) :
    memory.locate address.toInt =
      match span? size address with
      | some (start, _) => .ok start.toNat
      | none => .error ⟨address.toInt, size.toNat⟩ := by
  have hlt := size.toNat_lt
  have hzero : (0 : Int64).toInt = 0 := rfl
  have hfour : (4 : UInt64).toNat = 4 := rfl
  rw [locate_eq, hsize, span?]
  simp only [Int64.lt_iff_toInt_lt, hzero]
  by_cases hneg : address.toInt < 0
  · rw [if_pos hneg, if_neg fun h => by have := h.1; omega]
  · have hstart : address.toUInt64.toNat = address.toInt.toNat :=
      Int64.toNat_toUInt64_of_le (Int64.le_iff_toInt_le.mpr (by omega))
    have htop := address.toInt_lt
    have hstop : (address.toUInt64 + 4).toNat = address.toUInt64.toNat + 4 := by
      rw [UInt64.toNat_add, hfour]
      omega
    have hgrows : ¬ address.toUInt64.toNat + 4 < address.toUInt64.toNat := by omega
    simp only [if_neg hneg, UInt64.lt_iff_toNat_lt, hstop, if_neg hgrows]
    by_cases hin : address.toInt + 4 ≤ size.toNat
    · rw [if_pos ⟨by omega, hin⟩, if_neg (by omega), ← hstart]
    · rw [if_neg fun h => hin h.2, if_pos (by omega)]

end Memory

namespace Machine

-- The sum of two signed words is a signed number of 64 bits.
theorem toInt_add_toInt64 (base displacement : Int32) :
    (base.toInt64 + displacement.toInt64).toInt = address base displacement := by
  have hbase := base.le_toInt
  have hbase' := base.toInt_lt
  have hdisplacement := displacement.le_toInt
  have hdisplacement' := displacement.toInt_lt
  rw [Int64.toInt_add, Int32.toInt_toInt64, Int32.toInt_toInt64]
  exact Int.bmod_eq_of_le (by omega) (by omega)

section Access

variable {i : Instruction} {machine : Machine} {base : Int32}

theorem execute_load (console : Console) (hop : i.operation? = some .load)
    (hbase : machine.readRegister i.first = .ok base) :
    (∀ fault, machine.memory.readWord (address base i.immediate) = .error fault →
      (machine.execute i console).result = .error (.memory fault machine.pc)) ∧
    ∀ word, machine.memory.readWord (address base i.immediate) = .ok word →
      i.second.toNat < 16 →
        (machine.execute i console).result = .ok (.goTo machine.nextPc) ∧
        (machine.execute i console).machine.readRegister i.second = .ok word.toInt32 := by
  refine ⟨?_, ?_⟩
  · intro fault hread
    have heffect : machine.effect .load i 0 = .error (.memory fault machine.pc) := by
      rw [effect, hbase, ok_bind, load, hread]
      rfl
    exact execute_of_effect_error hop rfl heffect
  · intro word hread hi
    have hwrite : machine.writeRegister i.second word.toInt32 =
        .ok (machine.setRegister i.second word.toInt32 hi) :=
      writeRegister_eq_ok_iff.mpr ⟨hi, rfl⟩
    have heffect : machine.effect .load i 0 =
        .ok (machine.setRegister i.second word.toInt32 hi) := by
      rw [effect, hbase, ok_bind, load, hread]
      exact hwrite
    rw [execute_eq_of_effect hop rfl heffect]
    exact ⟨rfl, machine.readRegister_setRegister i.second word.toInt32 hi⟩

theorem execute_store (console : Console) {value : Int32} (hop : i.operation? = some .store)
    (hbase : machine.readRegister i.second = .ok base)
    (hvalue : machine.readRegister i.first = .ok value) :
    (∀ fault,
      machine.memory.writeWord (address base i.immediate) value.toUInt32 = .error fault →
        (machine.execute i console).result = .error (.memory fault machine.pc) ∧
        (machine.execute i console).machine = machine) ∧
    ∀ memory,
      machine.memory.writeWord (address base i.immediate) value.toUInt32 = .ok memory →
        (machine.execute i console).result = .ok (.goTo machine.nextPc) ∧
        (machine.execute i console).machine.memory = memory := by
  refine ⟨?_, ?_⟩
  · intro fault hwrite
    have heffect : machine.effect .store i 0 = .error (.memory fault machine.pc) := by
      rw [effect, hbase, ok_bind, hvalue, ok_bind, store, hwrite]
    rw [execute_eq_of_effect_error hop rfl heffect]
    exact ⟨rfl, rfl⟩
  · intro memory hwrite
    have heffect : machine.effect .store i 0 = .ok { machine with memory } := by
      rw [effect, hbase, ok_bind, hvalue, ok_bind, store, hwrite]
    rw [execute_eq_of_effect hop rfl heffect]
    exact ⟨rfl, rfl⟩

end Access

end Machine

namespace Memory

-- A memory is a map of bytes with an end. Each request is answered from what was asked before
-- alone: one at an address is refused unless all of its bytes are there, and then changes nothing;
-- a word that is taken makes the four bytes from the address on, and no others; a word is given
-- from the bytes that were put in its places last. The address is that of a word of 64 bits with
-- sign, and a load or a store forms it from the base and the immediate without wrapping around.
theorem answers_follow_last_writes :
    (∀ (size : Nat) (past : List Request),
      ((blank size).after past).size = size ∧
      (∀ place, (((blank size).after past).byteAt place).toNat = lastPut size past place) ∧
      (∀ address word, ((blank size).after past).readWord address = .ok word →
        word.toNat = ∑ offset ∈ Finset.range 4,
          lastPut size past (address.toNat + offset) * 256 ^ offset) ∧
      ∀ place, ((blank size).answers past)[place]? =
        past[place]?.map (expected size (past.take place))) ∧
    (∀ (memory : Memory) (address : Int) (word : UInt32),
      (Within memory.size address →
        (memory.serve (.write address word)).1 = .ok none ∧
        ∀ place : Nat, ((memory.serve (.write address word)).2.byteAt place).toNat =
          if address ≤ place ∧ place < address + 4 then
            word.toNat / 256 ^ (place - address.toNat) % 256
          else (memory.byteAt place).toNat) ∧
      (¬ Within memory.size address →
        memory.serve (.write address word) = (.error ⟨address, memory.size⟩, memory))) ∧
    (∀ (memory : Memory) (size : UInt64) (address : Int64), memory.size = size.toNat →
      memory.locate address.toInt =
        match span? size address with
        | some (start, _) => .ok start.toNat
        | none => .error ⟨address.toInt, size.toNat⟩) ∧
    (∀ base displacement : Int32,
      (base.toInt64 + displacement.toInt64).toInt = base.toInt + displacement.toInt) ∧
    (∀ (i : Instruction) (machine : Machine) (console : Console) (base : Int32),
      i.operation? = some .load → machine.readRegister i.first = .ok base →
        let answer := machine.memory.readWord (base.toInt + i.immediate.toInt)
        (∀ fault, answer = .error fault →
          (machine.execute i console).result = .error (.memory fault machine.pc)) ∧
        ∀ word, answer = .ok word → i.second.toNat < 16 →
          (machine.execute i console).result = .ok (.goTo machine.nextPc) ∧
          (machine.execute i console).machine.readRegister i.second = .ok word.toInt32) ∧
    (∀ (i : Instruction) (machine : Machine) (console : Console) (base value : Int32),
      i.operation? = some .store → machine.readRegister i.second = .ok base →
      machine.readRegister i.first = .ok value →
        let answer :=
          machine.memory.writeWord (base.toInt + i.immediate.toInt) value.toUInt32
        (∀ fault, answer = .error fault →
          (machine.execute i console).result = .error (.memory fault machine.pc) ∧
          (machine.execute i console).machine = machine) ∧
        ∀ memory, answer = .ok memory →
          (machine.execute i console).result = .ok (.goTo machine.nextPc) ∧
          (machine.execute i console).machine.memory = memory) := by
  refine ⟨?_, ?_, locate_toInt, Machine.toInt_add_toInt64, ?_, ?_⟩
  · intro size past
    refine ⟨size_after size past, byteAt_after size past, ?_, answers_eq size past⟩
    intro address word hread
    rw [eq_wordAt_of_readWord hread, wordAt_after]
  · intro memory address word
    refine ⟨?_, ?_⟩
    · intro h
      refine ⟨by rw [serve, writeWord_of_within memory address word h], ?_⟩
      intro place
      rw [byteAt_serve, Request.puts?]
      by_cases hin : address ≤ place ∧ place < address + 4
      · rw [if_pos ⟨h, hin⟩, if_pos hin, Option.getD_some]
      · rw [if_neg fun hput => hin hput.2, if_neg hin, Option.getD_none]
    · intro h
      rw [serve, writeWord_of_not_within memory address word h]
  · intro i machine console base hop hbase
    exact Machine.execute_load console hop hbase
  · intro i machine console base value hop hbase hvalue
    exact Machine.execute_store console hop hbase hvalue

-- Two words that share a byte, one that is refused, and a word across all of them.
def overlapping : List Request :=
  [.write 0 0x11223344, .write 3 0xAABBCCDD, .write 5 0, .read 1]

theorem overlapping_words_share_a_byte :
    ((blank 8).answers overlapping)[2]? = some (.error ⟨5, 8⟩) ∧
    ((blank 8).answers overlapping)[3]? = some (.ok (some 0xCCDD2233)) ∧
    ((Machine.reset 8 .strict).execute (.assemble .load 0 1 (-1)) (.ofInput [] .unlimited)).result =
      .error (.memory ⟨-1, 8⟩ 0) := by
  obtain ⟨hhistory, -, -, -, hload, -⟩ := answers_follow_last_writes
  obtain ⟨-, -, -, hanswers⟩ := hhistory 8 overlapping
  obtain ⟨hfault, -⟩ := hload (.assemble .load 0 1 (-1)) (.reset 8 .strict)
    (.ofInput [] .unlimited) 0 rfl rfl
  rw [hanswers 2, hanswers 3]
  exact ⟨rfl, rfl, hfault ⟨-1, 8⟩ rfl⟩

end Memory

end WordMachine
