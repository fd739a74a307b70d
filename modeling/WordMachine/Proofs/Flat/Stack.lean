import WordMachine.Proofs.Flat.Phase

namespace WordMachine.Machine

open Flat

variable {machine : Machine} {console : Console} {i : Instruction}

theorem store_slot_flatten (value : Int32) :
    (machine.flatten console).store (signed (machine.flatten console).slot) (number value) =
      if machine.memory.Holds machine.pushSlot.toInt then
        (.ok 0, (machine.setWord machine.pushSlot.toInt value).flatten console)
      else
        (.error (.memory ⟨machine.pushSlot.toInt, machine.memory.size⟩ machine.pc),
          machine.flatten console) := by
  rw [slot_flatten, signed_number, store_flatten, store_eq]
  by_cases hm : machine.memory.Holds machine.pushSlot.toInt
  · rw [if_pos hm, if_pos hm]
    rfl
  · rw [if_neg hm, if_neg hm]

theorem load_sp_flatten :
    (machine.flatten console).load (signed (machine.flatten console).sp) =
      (machine.peek.map number, machine.flatten console) := by
  rw [sp_flatten, signed_number, load_flatten]
  rfl

-- An operation whose access is the store of a push.
theorem perform_of_push {value : Int32} (hs : absent? i = none) (hd : destination? i = none)
    (ha : (machine.flatten console).access machine.setting i =
      (machine.flatten console).store (signed (machine.flatten console).slot) (number value))
    (hu : ∀ flat : Flat, flat.update machine.setting i 0 = flat.set 6 flat.slot)
    {pc : UInt32} (hn : (machine.flatten console).next? machine.setting i 0 = some pc.toNat) :
    (machine.flatten console).perform machine.setting i =
      machine.settle console (machine.push value) (.goTo pc) := by
  rw [store_slot_flatten] at ha
  rw [push_eq]
  by_cases hm : machine.memory.Holds machine.pushSlot.toInt
  · rw [if_pos hm] at ha
    rw [if_pos hm, perform_of_access hs ha hd, hn, hu]
    exact congrArg (Prod.mk _) (machine.pushedWord_flatten console value)
  · rw [if_neg hm] at ha
    rw [if_neg hm]
    exact perform_of_access_error hs ha

theorem agrees_call (hop : i.operation? = some .call) : machine.Agrees console i := by
  have hcode : i.opcode.toNat = 16 := toNat_opcode hop
  have habsent : absent? i = none := absent?_of_none (sources_of_transfer (by omega))
  have hd : destination? i = none := destination?_of_transfer (by omega)
  have haccess : (machine.flatten console).access machine.setting i =
      (machine.flatten console).store (signed (machine.flatten console).slot)
        (number machine.nextPc.toInt32) := by
    simp only [access, hcode]
    rw [nextPc_flatten, number_toInt32]
  have hupdate (flat : Flat) : flat.update machine.setting i 0 = flat.set 6 flat.slot := by
    simp only [update, assign, hd, hcode]
  have hnext : (machine.flatten console).next? machine.setting i 0 =
      some (machine.target i.immediate).toNat := by
    simp only [next?, hcode, target_flatten]
  rw [Agrees, transact_flatten hop rfl]
  exact perform_of_push habsent hd haccess hupdate hnext

-- The stack pointer is pushed as it will be after the push.
theorem agrees_push (hop : i.operation? = some .push) : machine.Agrees console i := by
  have hcode : i.opcode.toNat = 18 := toNat_opcode hop
  have hs : sources i = [i.first] := by simp only [sources, hcode]
  have hd : destination? i = none := destination?_of_transfer (by omega)
  have hupdate (flat : Flat) : flat.update machine.setting i 0 = flat.set 6 flat.slot := by
    simp only [update, assign, hd, hcode]
  have hnext : (machine.flatten console).next? machine.setting i 0 = some machine.nextPc.toNat := by
    simp only [next?, hcode, nextPc_flatten]
  have habsent := absent?_of_one hs
  rw [Agrees, transact_flatten hop rfl, effect, pushed, readRegister_eq]
  by_cases hsp : i.first = 6
  · rw [if_pos (by rw [hsp]; decide)] at habsent
    rw [if_pos hsp, ok_bind]
    refine perform_of_push habsent hd ?_ hupdate hnext
    simp only [access, hcode, hsp, if_true]
    rw [slot_flatten]
  · rw [if_neg hsp]
    by_cases hi : i.first.toNat ≤ 16
    · rw [if_pos hi] at habsent ⊢
      rw [ok_bind]
      refine perform_of_push habsent hd ?_ hupdate hnext
      simp only [access, hcode, hsp, if_false, word_flatten _ _ hi]
    · rw [if_neg hi] at habsent ⊢
      rw [error_bind]
      exact perform_of_absent habsent

theorem agrees_ret (hop : i.operation? = some .ret) : machine.Agrees console i := by
  have hcode : i.opcode.toNat = 17 := toNat_opcode hop
  have habsent : absent? i = none := absent?_of_none (sources_of_transfer (by omega))
  have hd : destination? i = none := destination?_of_transfer (by omega)
  have htop := machine.sp_flatten_eq_top_iff console
  rw [Agrees, transact_flatten hop rfl, effect, flow]
  by_cases hat : machine.isAtStackTop = true
  · have htop := htop.mpr hat
    have haccess : (machine.flatten console).access machine.setting i =
        (.ok 0, machine.flatten console) := by
      simp only [access, hcode, htop, if_true]
    rw [perform_of_access habsent haccess hd, if_pos hat, if_pos hat]
    simp only [update, assign, next?, hd, hcode, htop, if_true]
    rfl
  · have htop : (machine.flatten console).sp ≠ machine.setting.top := by
      intro h
      exact hat (htop.mp h)
    have haccess : (machine.flatten console).access machine.setting i =
        (machine.peek.map number, machine.flatten console) := by
      simp only [access, hcode, htop, if_false]
      exact load_sp_flatten
    rw [if_neg hat, if_neg hat]
    cases hpeek : machine.peek with
    | error fault =>
      rw [hpeek] at haccess
      rw [error_bind]
      exact perform_of_access_error habsent haccess
    | ok value =>
      rw [hpeek] at haccess
      rw [perform_of_access habsent haccess hd, ok_bind, ← peek_eq_ok hpeek]
      simp only [update, assign, next?, hd, hcode, htop, if_false, drop_flatten]
      rfl

-- The destination of a pop is looked at after the load. The stack pointer is then moved from
-- where the destination has left it.
theorem agrees_pop (hop : i.operation? = some .pop) : machine.Agrees console i := by
  have hcode : i.opcode.toNat = 19 := toNat_opcode hop
  have habsent : absent? i = none := absent?_of_none (by simp only [sources, hcode])
  have hd : destination? i = some i.first := by simp only [Flat.destination?, hcode]
  have haccess : (machine.flatten console).access machine.setting i =
      (machine.peek.map number, machine.flatten console) := by
    simp only [access, hcode]
    exact load_sp_flatten
  rw [Agrees, transact_flatten hop rfl, effect]
  cases hpeek : machine.peek with
  | error fault =>
    rw [hpeek] at haccess
    rw [error_bind]
    exact perform_of_access_error habsent haccess
  | ok value =>
    rw [hpeek] at haccess
    rw [perform, habsent, haccess, ok_bind, writeRegister_eq]
    simp only [Except.map, refusal?, hd, address_flatten]
    by_cases hi : i.first.toNat < 16
    · rw [if_pos hi, dif_pos hi, ok_bind, next?_of_plain _ _ _ (by omega), nextPc_flatten]
      simp only [update, result, assign, hd, hcode, set_flatten _ _ _ hi, drop_flatten]
      rfl
    · rw [if_neg hi, dif_neg hi]
      by_cases heq : i.first = 16
      · rw [if_pos heq, if_pos heq, error_bind, heq]
        rfl
      · rw [if_neg heq, if_neg heq, error_bind]
        rfl

end WordMachine.Machine
