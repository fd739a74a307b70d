import WordMachine.Proofs.Flat.Phase

namespace WordMachine.Machine

open Flat

variable {machine : Machine} {console : Console} {i : Instruction}

theorem agrees_load (hop : i.operation? = some .load) : machine.Agrees console i := by
  have hcode : i.opcode.toNat = 6 := toNat_opcode hop
  have hs : sources i = [i.first] := by simp only [sources, hcode]
  have hd : destination? i = some i.second := by simp only [Flat.destination?, hcode]
  have habsent := absent?_of_one hs
  rw [Agrees, transact_flatten hop rfl, effect, readRegister_eq]
  by_cases hi : i.first.toNat ≤ 16
  · rw [if_pos hi] at habsent ⊢
    have haccess : (machine.flatten console).access machine.setting i =
        (machine.flatten console).load
          (Machine.address (machine.value i.first) i.immediate) := by
      simp only [access, hcode, word_flatten _ _ hi, signed_number]
      rfl
    rw [load_flatten] at haccess
    rw [ok_bind]
    cases hl : machine.load (Machine.address (machine.value i.first) i.immediate) with
    | error fault =>
      rw [hl] at haccess
      rw [error_bind]
      exact perform_of_access_error habsent haccess
    | ok value =>
      rw [hl] at haccess
      have hresult : (machine.flatten console).result i (number value) = number value := by
        simp only [result, hcode]
      rw [ok_bind]
      exact perform_of_assign habsent haccess hd (by omega) hresult
  · rw [if_neg hi] at habsent ⊢
    rw [error_bind]
    exact perform_of_absent habsent

-- The base is looked at before the word that is stored.
theorem agrees_store (hop : i.operation? = some .store) : machine.Agrees console i := by
  have hcode : i.opcode.toNat = 7 := toNat_opcode hop
  have hs : sources i = [i.second, i.first] := by simp only [sources, hcode]
  have hd : destination? i = none := by simp only [Flat.destination?, hcode]
  have habsent := absent?_of_two hs
  rw [Agrees, transact_flatten hop rfl, effect, readRegister_eq, readRegister_eq]
  by_cases hj : i.second.toNat ≤ 16
  · rw [if_pos hj] at habsent ⊢
    rw [ok_bind]
    by_cases hi : i.first.toNat ≤ 16
    · rw [if_pos hi] at habsent ⊢
      have haccess : (machine.flatten console).access machine.setting i =
          (machine.flatten console).store (Machine.address (machine.value i.second) i.immediate)
            (number (machine.value i.first)) := by
        simp only [access, hcode, word_flatten _ _ hi, word_flatten _ _ hj, signed_number]
        rfl
      rw [store_flatten] at haccess
      rw [ok_bind]
      cases hstore : machine.store (Machine.address (machine.value i.second) i.immediate)
          (machine.value i.first) with
      | error fault =>
        rw [hstore] at haccess
        exact perform_of_access_error habsent haccess
      | ok after =>
        rw [hstore] at haccess
        rw [perform_of_access habsent haccess hd, next?_of_plain _ _ _ (by omega),
          update_of_plain _ _ _ (by omega), assign, hd, nextPc_flatten]
        rfl
    · rw [if_neg hi] at habsent ⊢
      rw [error_bind]
      exact perform_of_absent habsent
  · rw [if_neg hj] at habsent ⊢
    rw [error_bind]
    exact perform_of_absent habsent

theorem agrees_print (hop : i.operation? = some .print) : machine.Agrees console i := by
  have hcode : i.opcode.toNat = 20 := toNat_opcode hop
  have hs : sources i = [i.first] := by simp only [sources, hcode]
  have hd : destination? i = none := by simp only [Flat.destination?, hcode]
  have habsent := absent?_of_one hs
  have hread := machine.readRegister_eq i.first
  rw [Agrees]
  by_cases hi : i.first.toNat ≤ 16
  · rw [if_pos hi] at habsent hread
    have haccess : (machine.flatten console).access machine.setting i =
        (machine.flatten console).print (number (machine.value i.first)) := by
      simp only [access, hcode, word_flatten _ _ hi]
    rw [print_flatten] at haccess
    rcases hline : console.writeLine (Console.printedLine (machine.value i.first)) with
      ⟨⟨cause⟩ | ⟨⟩, after⟩
    · have hc : machine.converse .print i console = (.error (.output cause), after) := by
        simp only [converse, hread, hline]
      rw [hline] at haccess
      rw [transact_flatten_of_error hop hc]
      exact perform_of_access_error habsent haccess
    · have hc : machine.converse .print i console = (.ok 0, after) := by
        simp only [converse, hread, hline]
      rw [hline] at haccess
      rw [transact_flatten hop hc, perform_of_access habsent haccess hd,
        next?_of_plain _ _ _ (by omega), update_of_plain _ _ _ (by omega), assign, hd,
        nextPc_flatten]
      rfl
  · rw [if_neg hi] at habsent hread
    have hc : machine.converse .print i console =
        (.error (.register (.absent i.first) machine.pc), console) := by
      simp only [converse, hread]
    rw [transact_flatten_of_error hop hc]
    exact perform_of_absent habsent

-- The token is used up before the destination is looked at.
theorem agrees_read (hop : i.operation? = some .read) : machine.Agrees console i := by
  have hcode : i.opcode.toNat = 21 := toNat_opcode hop
  have habsent : absent? i = none := absent?_of_none (by simp only [sources, hcode])
  have hd : destination? i = some i.first := by simp only [Flat.destination?, hcode]
  have haccess : (machine.flatten console).access machine.setting i =
      (machine.flatten console).read := by
    simp only [access, hcode]
  rw [read_flatten] at haccess
  rw [Agrees]
  rcases hread : console.readInteger with ⟨⟨cause⟩ | ⟨value⟩, after⟩
  · have hc : machine.converse .read i console = (.error (.input cause), after) := by
      simp only [converse, hread]
    rw [hread] at haccess
    rw [transact_flatten_of_error hop hc]
    exact perform_of_access_error habsent haccess
  · have hc : machine.converse .read i console = (.ok value, after) := by
      simp only [converse, hread]
    have hresult : (machine.flatten after).result i (number value) = number value := by
      simp only [result, hcode]
    rw [hread] at haccess
    rw [transact_flatten hop hc]
    exact perform_of_assign habsent haccess hd (by omega) hresult

end WordMachine.Machine
