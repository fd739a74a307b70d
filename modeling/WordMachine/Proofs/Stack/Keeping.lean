import WordMachine.Proofs.Memory.Word
import WordMachine.Proofs.Simulation.Step

namespace WordMachine

namespace Machine

-- The instruction is none of the stack, does not write the stack pointer, and stores no byte of
-- the words on the stack.
structure LeavesStack (machine : Machine) (i : Instruction) : Prop where
  kind : ∀ op, i.operation? = some op → op.movesStack = false
  destination : ∀ op, i.operation? = some op → op.destination? i ≠ some 6
  below : i.operation? = some .store → ∀ base, machine.readRegister i.second = .ok base →
    address base i.immediate + 4 ≤ machine.stackAddress

-- The memory is all stack, down to the stack pointer and beyond.
def OnStack (machine : Machine) : Prop :=
  machine.stackTop.toInt = machine.memory.size

instance (machine : Machine) : Decidable machine.OnStack :=
  inferInstanceAs (Decidable (_ = _))

-- The stack has neither moved nor changed.
structure Keeps (before after : Machine) : Prop where
  stackAddress : after.stackAddress = before.stackAddress
  bytes : ∀ address : Nat, before.stackAddress ≤ address →
    after.memory.byteAt address = before.memory.byteAt address
  stackTop : after.stackTop = before.stackTop
  size : after.memory.size = before.memory.size

-- One word has been put on the stack, and is there.
structure Bears (before : Machine) (value : Int32) (after : Machine) : Prop where
  room : 4 ≤ before.stackAddress ∧ before.stackAddress ≤ before.memory.size
  stackAddress : after.stackAddress = before.stackAddress - 4
  word : after.topWord = value
  bytes : ∀ address : Nat, before.stackAddress ≤ address →
    after.memory.byteAt address = before.memory.byteAt address
  stackTop : after.stackTop = before.stackTop
  size : after.memory.size = before.memory.size

theorem keeps_refl (machine : Machine) : machine.Keeps machine :=
  ⟨rfl, fun _ _ => rfl, rfl, rfl⟩

theorem keeps_trans {first second third : Machine} (h : first.Keeps second)
    (h' : second.Keeps third) : first.Keeps third where
  stackAddress := h'.stackAddress.trans h.stackAddress
  bytes address ha := by
    rw [h'.bytes address (by rw [h.stackAddress]; exact ha), h.bytes address ha]
  stackTop := h'.stackTop.trans h.stackTop
  size := h'.size.trans h.size

-- Counting the instruction and moving on leave the stack alone.
theorem keeps_settled {before after : Machine} (h : before.Keeps after) (category : Category)
    (pc : UInt32) : before.Keeps { after.retire category with pc } :=
  ⟨h.stackAddress, h.bytes, h.stackTop, h.size⟩

theorem bears_settled {before after : Machine} {value : Int32} (h : before.Bears value after)
    (category : Category) (pc : UInt32) :
    before.Bears value { after.retire category with pc } :=
  ⟨h.room, h.stackAddress, h.word, h.bytes, h.stackTop, h.size⟩

theorem onStack_of_keeps {before after : Machine} (h : before.Keeps after)
    (hs : before.OnStack) : after.OnStack := by
  unfold OnStack at hs ⊢
  rw [h.stackTop, h.size]
  exact hs

theorem onStack_of_bears {before after : Machine} {value : Int32} (h : before.Bears value after)
    (hs : before.OnStack) : after.OnStack := by
  unfold OnStack at hs ⊢
  rw [h.stackTop, h.size]
  exact hs

theorem size_lt_of_onStack {machine : Machine} (h : machine.OnStack) :
    machine.memory.size < 2147483648 := by
  have hlt := machine.stackTop.toInt_lt
  unfold OnStack at h
  omega

theorem keeps_of_effects {i : Instruction} {machine after : Machine} {op : Operation}
    (h : machine.Effects i op after) (hop : i.operation? = some op) (hl : machine.LeavesStack i) :
    machine.Keeps after := by
  have hframe := frame_of_effects h
  refine ⟨stackAddress_of_effects h (hl.kind op hop) (hl.destination op hop), ?_,
    hframe.stackTop, hframe.size⟩
  intro place hp
  cases h with
  | stored base value hb hm =>
    have hbelow := hl.below hop base hb
    have hnonneg := hm.1
    exact (Memory.byteAt_setWord _ _ _ _).trans (if_neg (by omega))
  | assigned | compared | branched | printed => rfl
  | called | halted | returned | pushed | popped => exact absurd (hl.kind _ hop) (by decide)

theorem bears_pushedWord {machine : Machine} (hs : machine.OnStack) (value : Int32)
    (hm : machine.memory.Holds machine.pushSlot.toInt) :
    machine.Bears value (machine.pushedWord value) := by
  have hroom := (holds_pushSlot_iff (size_lt_of_onStack hs)).mp hm
  have hslot := machine.toInt_pushSlot (by omega)
  have hframe := machine.frame_pushedWord value
  refine ⟨hroom, (machine.stackAddress_pushedWord value).trans hslot, ?_, ?_, hframe.stackTop,
    hframe.size⟩
  · rw [topWord, stackAddress_pushedWord, memory_pushedWord, Memory.wordAt_setWord,
      Int32.toInt32_toUInt32]
  · intro place hp
    rw [memory_pushedWord, Memory.byteAt_setWord]
    exact if_neg (by omega)

theorem bears_of_keeps {before machine after : Machine} {value : Int32}
    (h : before.Bears value machine) (hk : machine.Keeps after) : before.Bears value after where
  room := h.room
  stackAddress := hk.stackAddress.trans h.stackAddress
  word := by
    have hroom := h.room
    have haddress := h.stackAddress
    rw [← h.word, topWord, topWord, hk.stackAddress]
    refine congrArg UInt32.toInt32 (Memory.wordAt_congr fun place hp _ => hk.bytes place ?_)
    omega
  bytes address ha := by
    have haddress := h.stackAddress
    rw [hk.bytes address (by omega), h.bytes address ha]
  stackTop := hk.stackTop.trans h.stackTop
  size := hk.size.trans h.size

-- The word that is borne can be taken back, and the stack is not at its top with it.
theorem holds_of_bears {before after : Machine} {value : Int32} (h : before.Bears value after) :
    after.memory.Holds after.stackAddress := by
  have hroom := h.room
  rw [Memory.Holds, h.stackAddress, h.size]
  omega

theorem isAtStackTop_iff {machine : Machine} :
    machine.isAtStackTop = true ↔ machine.stackAddress = machine.stackTop.toInt := by
  rw [isAtStackTop, decide_eq_true_iff, stackAddress, Int32.toInt_inj]

theorem isAtStackTop_of_bears {before after : Machine} {value : Int32} (hs : before.OnStack)
    (h : before.Bears value after) : after.isAtStackTop = false := by
  have hroom := h.room
  apply Bool.eq_false_iff.mpr
  intro ht
  have ht := isAtStackTop_iff.mp ht
  rw [h.stackAddress, h.stackTop, hs] at ht
  omega

theorem keeps_drop {before after : Machine} {value : Int32} (hs : before.OnStack)
    (h : before.Bears value after) : before.Keeps after.drop := by
  have hroom := h.room
  have hsize := size_lt_of_onStack hs
  have haddress := h.stackAddress
  have hdrop := after.stackAddress_drop (by omega)
  exact ⟨by omega, h.bytes, h.stackTop, h.size⟩

theorem keeps_setRegister (machine : Machine) {index : UInt8} (value : Int32)
    (hi : index.toNat < 16) (hne : index ≠ 6) :
    machine.Keeps (machine.setRegister index value hi) :=
  ⟨machine.stackAddress_setRegister value hi hne, fun _ _ => rfl, rfl, rfl⟩

-- A pop gives back the word that is borne, and a return goes to it.
theorem effect_pop {machine : Machine} {i : Instruction} (delivered : Int32)
    (hm : machine.memory.Holds machine.stackAddress) (hi : i.first.toNat < 16) :
    machine.effect .pop i delivered =
      .ok (machine.setRegister i.first machine.topWord hi).drop := by
  have hw : machine.writeRegister i.first machine.topWord =
      .ok (machine.setRegister i.first machine.topWord hi) :=
    writeRegister_eq_ok_iff.mpr ⟨hi, rfl⟩
  rw [effect, peek_eq, if_pos hm, ok_bind]
  change (machine.writeRegister i.first machine.topWord >>= _) = _
  rw [hw, ok_bind]

theorem effect_ret {machine : Machine} {i : Instruction} (delivered : Int32)
    (hm : machine.memory.Holds machine.stackAddress) (ht : machine.isAtStackTop = false) :
    machine.effect .ret i delivered = .ok machine.drop := by
  rw [effect, ht, if_neg (by decide), peek_eq, if_pos hm, ok_bind]

theorem flow_ret {machine : Machine} {i : Instruction} (ht : machine.isAtStackTop = false) :
    machine.flow .ret i = .goTo machine.topWord.toUInt32 := by
  rw [flow, ht, if_neg (by decide), topWord, UInt32.toUInt32_toInt32]
  rfl

end Machine

end WordMachine
