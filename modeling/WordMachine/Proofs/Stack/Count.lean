import WordMachine.Proofs.Simulation.History
import WordMachine.Proofs.Stack.Keeping

namespace WordMachine

namespace Retirement

-- A word has been put on the stack.
def adds (retirement : Retirement) : Bool :=
  retirement.operation = .push ∨ retirement.operation = .call

-- A word has been taken off the stack. A return that ends the program takes none.
def removes (retirement : Retirement) : Bool :=
  retirement.operation = .pop ∨ (retirement.operation = .ret ∧ retirement.flow ≠ .halt)

-- How many words have been put on the stack and not been taken off again.
def outstanding (history : List Retirement) : Int :=
  history.countP adds - history.countP removes

theorem outstanding_append (past recent : List Retirement) :
    outstanding (past ++ recent) = outstanding past + outstanding recent := by
  simp only [outstanding, List.countP_append]
  omega

end Retirement

namespace Machine

-- The stack lies in `size` bytes and has this many words on it.
structure Stacked (size : Nat) (words : Int) (machine : Machine) : Prop where
  stackTop : machine.stackTop.toInt = size
  memory : machine.memory.size = size
  nonneg : 0 ≤ words
  room : 0 ≤ machine.stackAddress
  depth : machine.stackAddress = size - 4 * words

theorem stacked_reset {size : Nat} (hsize : size < 2147483648) (policy : UnknownPolicy) :
    Stacked size 0 (.reset size policy) := by
  have htop : (Int32.ofNat size).toInt = size := Int32.toInt_ofNat_of_lt hsize
  have hstack : (reset size policy).stackTop = Int32.ofNat size := if_pos hsize
  have haddress : (reset size policy).stackAddress = size := by
    rw [← htop, ← hstack]
    rfl
  exact ⟨by rw [hstack, htop], rfl, by omega, by omega, by omega⟩

section Step

variable {size : Nat} {words : Int} {machine after : Machine} {i : Instruction} {op : Operation}

theorem onStack_of_stacked (h : machine.Stacked size words) : machine.OnStack := by
  rw [OnStack, h.stackTop, h.memory]

theorem stacked_of_frame (h : machine.Stacked size words) (hf : machine.Frame after)
    {change : Int} (hn : 0 ≤ words + change) (hr : 0 ≤ after.stackAddress)
    (hd : after.stackAddress = machine.stackAddress - 4 * change) :
    after.Stacked size (words + change) := by
  obtain ⟨hstackTop, hmemory, hnonneg, hroom, hdepth⟩ := h
  exact ⟨by rw [hf.stackTop, hstackTop], by rw [hf.size, hmemory], hn, hr, by omega⟩

theorem stacked_pushedWord (h : machine.Stacked size words) (value : Int32)
    (hm : machine.memory.Holds machine.pushSlot.toInt) :
    (machine.pushedWord value).Stacked size (words + 1) := by
  have hn := h.nonneg
  have hb := bears_pushedWord (onStack_of_stacked h) value hm
  have hroom := hb.room
  have haddress := hb.stackAddress
  exact stacked_of_frame h (machine.frame_pushedWord value) (by omega) (by omega) (by omega)

-- There is a word to take off, so the stack is not at its top.
theorem stacked_drop (h : machine.Stacked size words)
    (hm : machine.memory.Holds machine.stackAddress) : machine.drop.Stacked size (words + -1) := by
  obtain ⟨hlow, hhigh⟩ := hm
  have hlt := size_lt_of_onStack (onStack_of_stacked h)
  have hsize := h.memory
  have hdepth := h.depth
  have hdrop := machine.stackAddress_drop (by omega)
  have hframe : machine.Frame machine.drop := ⟨rfl, rfl, rfl, rfl⟩
  exact stacked_of_frame h hframe (by omega : 0 ≤ words + -1) (by omega) (by omega)

theorem stacked_of_effects (h : machine.Stacked size words) (he : machine.Effects i op after)
    (hd : op.destination? i ≠ some 6) :
    after.Stacked size (words + Retirement.outstanding [⟨op, machine.flow op i⟩]) := by
  have hroom := h.room
  have hnonneg := h.nonneg
  cases hstack : op.movesStack with
  | false =>
    have hnone : Retirement.outstanding [⟨op, machine.flow op i⟩] = 0 := by
      cases op <;> first | rfl | cases hstack
    have haddress := stackAddress_of_effects he hstack hd
    rw [hnone]
    exact stacked_of_frame h (frame_of_effects he) (by omega) (by omega) (by omega)
  | true =>
    cases he with
    | assigned _ index value hindex hop hi =>
      cases op with
      | pop => exact absurd rfl hop
      | _ => cases hstack <;> cases hindex
    | stored | compared | branched | printed => cases hstack
    | called hm | pushed value hv hm => exact stacked_pushedWord h _ hm
    | halted ht =>
      have hnone : Retirement.outstanding [⟨.ret, machine.flow .ret i⟩] = 0 := by
        rw [flow, ht, if_pos rfl]
        rfl
      rw [hnone, Int.add_zero]
      exact h
    | returned ht hm =>
      have hone : Retirement.outstanding [⟨.ret, machine.flow .ret i⟩] = -1 := by
        rw [flow_ret ht]
        rfl
      rw [hone]
      exact stacked_drop h hm
    | popped hm hi =>
      have hne : i.first ≠ 6 := by
        intro h6
        exact hd (congrArg some h6)
      have hwritten : (machine.setRegister i.first machine.topWord hi).Stacked size words := by
        have haddress := machine.stackAddress_setRegister machine.topWord hi hne
        exact ⟨h.stackTop, h.memory, h.nonneg, by omega, by rw [haddress]; exact h.depth⟩
      refine stacked_drop hwritten ?_
      rw [machine.stackAddress_setRegister machine.topWord hi hne]
      exact hm

end Step

end Machine

end WordMachine
