import WordMachine.Proofs.Flat.Phase

namespace WordMachine.Machine

open Flat

variable {machine : Machine} {console : Console} {i : Instruction} {op : Operation}

-- An operation that reads one register, and computes the same or another one from it.
theorem agrees_of_one {index : UInt8} {f : Int32 → Int32} (hop : i.operation? = some op)
    (hcode : i.opcode.toNat < 6) (hs : sources i = [i.first]) (hd : destination? i = some index)
    (hr : ∀ flat : Flat, flat.word i.first = number (machine.value i.first) →
      flat.result i 0 = number (f (machine.value i.first)))
    (hc : machine.converse op i console = (.ok 0, console))
    (he : machine.effect op i 0 = do
      let value ← machine.readRegister i.first
      machine.writeRegister index (f value))
    (hflow : machine.flow op i = .goTo machine.nextPc) : machine.Agrees console i := by
  have habsent := absent?_of_one hs
  rw [Agrees, transact_flatten hop hc, he, hflow, readRegister_eq]
  by_cases hi : i.first.toNat ≤ 16
  · have haccess := (machine.flatten console).access_of_plain machine.setting (.inl hcode)
    have hresult := hr _ (word_flatten machine console hi)
    rw [if_pos hi] at habsent ⊢
    rw [ok_bind]
    exact perform_of_assign habsent haccess hd (by omega) hresult
  · rw [if_neg hi] at habsent ⊢
    rw [error_bind]
    exact perform_of_absent habsent

-- An operation that computes the second register anew from both.
theorem agrees_of_two {f : Int32 → Int32 → Int32} (hop : i.operation? = some op)
    (hcode : i.opcode.toNat < 6) (hs : sources i = [i.first, i.second])
    (hd : destination? i = some i.second)
    (hr : ∀ flat : Flat, flat.word i.first = number (machine.value i.first) →
      flat.word i.second = number (machine.value i.second) →
        flat.result i 0 = number (f (machine.value i.first) (machine.value i.second)))
    (hc : machine.converse op i console = (.ok 0, console))
    (he : machine.effect op i 0 = machine.combine i.first i.second f)
    (hflow : machine.flow op i = .goTo machine.nextPc) : machine.Agrees console i := by
  have habsent := absent?_of_two hs
  rw [Agrees, transact_flatten hop hc, he, hflow, combine, readRegister_eq, readRegister_eq]
  by_cases hi : i.first.toNat ≤ 16
  · rw [if_pos hi] at habsent ⊢
    rw [ok_bind]
    by_cases hj : i.second.toNat ≤ 16
    · have haccess := (machine.flatten console).access_of_plain machine.setting (.inl hcode)
      have hresult := hr _ (word_flatten machine console hi) (word_flatten machine console hj)
      rw [if_pos hj] at habsent ⊢
      rw [ok_bind]
      exact perform_of_assign habsent haccess hd (by omega) hresult
    · rw [if_neg hj] at habsent ⊢
      rw [error_bind]
      exact perform_of_absent habsent
  · rw [if_neg hi] at habsent ⊢
    rw [error_bind]
    exact perform_of_absent habsent

theorem agrees_subImm (hop : i.operation? = some .subImm) : machine.Agrees console i := by
  have hcode : i.opcode.toNat = 0 := toNat_opcode hop
  have hs : sources i = [i.first] := by simp only [sources, hcode]
  have hd : destination? i = some i.first := by simp only [Flat.destination?, hcode]
  refine agrees_of_one hop (by omega) hs hd ?_ rfl rfl rfl
  intro flat hword
  simp only [result, hcode, hword, number_sub_immediate]

theorem agrees_add (hop : i.operation? = some .add) : machine.Agrees console i := by
  have hcode : i.opcode.toNat = 1 := toNat_opcode hop
  have hs : sources i = [i.first, i.second] := by simp only [sources, hcode]
  have hd : destination? i = some i.second := by simp only [Flat.destination?, hcode]
  refine agrees_of_two hop (by omega) hs hd ?_ rfl rfl rfl
  intro flat hfirst hsecond
  simp only [result, hcode, hfirst, hsecond, number_add, Int.add_comm]

theorem agrees_addImm (hop : i.operation? = some .addImm) : machine.Agrees console i := by
  have hcode : i.opcode.toNat = 2 := toNat_opcode hop
  have hs : sources i = [i.first] := by simp only [sources, hcode]
  have hd : destination? i = some i.first := by simp only [Flat.destination?, hcode]
  refine agrees_of_one hop (by omega) hs hd ?_ rfl rfl rfl
  intro flat hword
  simp only [result, hcode, hword, number_add_immediate]

theorem agrees_mul (hop : i.operation? = some .mul) : machine.Agrees console i := by
  have hcode : i.opcode.toNat = 3 := toNat_opcode hop
  have hs : sources i = [i.first, i.second] := by simp only [sources, hcode]
  have hd : destination? i = some i.second := by simp only [Flat.destination?, hcode]
  refine agrees_of_two hop (by omega) hs hd ?_ rfl rfl rfl
  intro flat hfirst hsecond
  simp only [result, hcode, hfirst, hsecond, number_mul, Int.mul_comm]

theorem agrees_halve (hop : i.operation? = some .halve) : machine.Agrees console i := by
  have hcode : i.opcode.toNat = 4 := toNat_opcode hop
  have hs : sources i = [i.first] := by simp only [sources, hcode]
  have hd : destination? i = some i.first := by simp only [Flat.destination?, hcode]
  refine agrees_of_one hop (by omega) hs hd ?_ rfl rfl rfl
  intro flat hword
  simp only [result, hcode, hword, number_halve]

theorem agrees_move (hop : i.operation? = some .move) : machine.Agrees console i := by
  have hcode : i.opcode.toNat = 5 := toNat_opcode hop
  have hs : sources i = [i.first] := by simp only [sources, hcode]
  have hd : destination? i = some i.second := by simp only [Flat.destination?, hcode]
  refine agrees_of_one (f := id) hop (by omega) hs hd ?_ rfl rfl rfl
  intro flat hword
  simp only [result, hcode, hword, id_eq]

theorem agrees_moveImm (hop : i.operation? = some .moveImm) : machine.Agrees console i := by
  have hcode : i.opcode.toNat = 8 := toNat_opcode hop
  have hs : sources i = [] := by simp only [sources, hcode]
  have hd : destination? i = some i.first := by simp only [Flat.destination?, hcode]
  have hplain : 8 ≤ i.opcode.toNat ∧ i.opcode.toNat < 16 := by omega
  have haccess := (machine.flatten console).access_of_plain machine.setting (.inr hplain)
  have hresult : (machine.flatten console).result i 0 = number i.immediate := by
    simp only [result, hcode, number_eq_reduce]
  rw [Agrees, transact_flatten hop rfl]
  exact perform_of_assign (absent?_of_none hs) haccess hd (by omega) hresult

theorem agrees_compare (hop : i.operation? = some .compare) : machine.Agrees console i := by
  have hcode : i.opcode.toNat = 9 := toNat_opcode hop
  have hs : sources i = [i.first, i.second] := by simp only [sources, hcode]
  have hd : destination? i = none := by simp only [Flat.destination?, hcode]
  have hplain : 8 ≤ i.opcode.toNat ∧ i.opcode.toNat < 16 := by omega
  have haccess := (machine.flatten console).access_of_plain machine.setting (.inr hplain)
  have habsent := absent?_of_two hs
  rw [Agrees, transact_flatten hop rfl, effect, readRegister_eq, readRegister_eq]
  by_cases hi : i.first.toNat ≤ 16
  · rw [if_pos hi] at habsent ⊢
    rw [ok_bind]
    by_cases hj : i.second.toNat ≤ 16
    · rw [if_pos hj] at habsent ⊢
      rw [ok_bind, perform_of_access habsent haccess hd, next?_of_plain _ _ _ (by omega),
        nextPc_flatten]
      simp only [update, hcode, assign, hd, word_flatten _ _ hi, word_flatten _ _ hj,
        set_flags_flatten]
      rfl
    · rw [if_neg hj] at habsent ⊢
      rw [error_bind]
      exact perform_of_absent habsent
  · rw [if_neg hi] at habsent ⊢
    rw [error_bind]
    exact perform_of_absent habsent

theorem next?_of_branch (flat : Flat) (delivered : Nat)
    (h : 10 ≤ i.opcode.toNat ∧ i.opcode.toNat < 16) :
    flat.next? machine.setting i delivered =
      some (if holds i.opcode.toNat (flat.word 16) then flat.target i else flat.nextPc) := by
  obtain hc | hc | hc | hc | hc | hc : i.opcode.toNat = 10 ∨ i.opcode.toNat = 11 ∨
      i.opcode.toNat = 12 ∨ i.opcode.toNat = 13 ∨ i.opcode.toNat = 14 ∨ i.opcode.toNat = 15 := by
    omega
  all_goals simp only [next?, hc]

theorem update_of_branch (flat : Flat) (delivered : Nat)
    (h : 10 ≤ i.opcode.toNat ∧ i.opcode.toNat < 16) :
    flat.update machine.setting i delivered = flat := by
  have hd : destination? i = none := destination?_of_transfer (by omega)
  rw [update, assign, hd]
  simp only
  split <;> first | rfl | omega

theorem agrees_branch {condition : Condition} (hop : i.operation? = some (.branch condition)) :
    machine.Agrees console i := by
  have hcode := toNat_opcode hop
  have hrange : 10 ≤ i.opcode.toNat ∧ i.opcode.toNat < 16 := by
    rw [hcode]
    cases condition <;> decide
  have hplain : 8 ≤ i.opcode.toNat ∧ i.opcode.toNat < 16 := by omega
  have habsent : absent? i = none := absent?_of_none (sources_of_transfer (by omega))
  have haccess := (machine.flatten console).access_of_plain machine.setting (.inr hplain)
  have hd : destination? i = none := destination?_of_transfer (by omega)
  have hword : (machine.flatten console).word 16 = machine.registers.flags.toWord.toNat := by
    rw [word_flatten _ _ (by decide), value, Registers.read_flags, number_toInt32]
  rw [Agrees, transact_flatten hop rfl, perform_of_access habsent haccess hd,
    next?_of_branch _ _ hrange, update_of_branch _ _ hrange, hword, hcode, holds_toWord,
    target_flatten, nextPc_flatten]
  cases hholds : machine.registers.flags.holds condition
  all_goals
    simp only [settle, effect, flow, hholds]
    rfl

end WordMachine.Machine
