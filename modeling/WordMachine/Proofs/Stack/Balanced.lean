import WordMachine.Proofs.Stack.Keeping

namespace WordMachine.Simulator

-- Consecutive steps whose pushes and calls are all undone by pops and returns. A pop that undoes a
-- push is one into a general register other than the stack pointer.
inductive Balanced : Simulator → Simulator → Prop where
  | empty (simulator : Simulator) : Balanced simulator simulator
  | join {first second third : Simulator} (hl : Balanced first second)
      (hr : Balanced second third) : Balanced first third
  | plain {before after : Simulator} (i : Instruction) (flow : Flow)
      (hx : before.Executes i flow after) (hi : before.machine.LeavesStack i) :
      Balanced before after
  | saved {before opened inner after : Simulator} (i j : Instruction) (flow back : Flow)
      (hpush : before.Executes i flow opened) (hi : i.operation? = some .push)
      (hin : Balanced opened inner) (hpop : inner.Executes j back after)
      (hj : j.operation? = some .pop) (hgeneral : j.first.toNat < 16) (hne : j.first ≠ 6) :
      Balanced before after
  | called {before opened inner after : Simulator} (i j : Instruction) (flow back : Flow)
      (hcall : before.Executes i flow opened) (hi : i.operation? = some .call)
      (hin : Balanced opened inner) (hret : inner.Executes j back after)
      (hj : j.operation? = some .ret) : Balanced before after

section Brackets

variable {before opened inner after : Simulator} {i j : Instruction} {flow back : Flow}
  {value : Int32}

theorem bears_of_push (hs : before.machine.OnStack) (hx : before.Executes i flow opened)
    (hi : i.operation? = some .push) :
    ∃ value, before.machine.pushed i.first = .ok value ∧
      before.machine.Bears value opened.machine := by
  obtain ⟨machine, console, heffects, -, rfl⟩ := effects_of_executes hx hi
  cases heffects with
  | assigned _ index value hd => cases hd
  | pushed value hv hm =>
    exact ⟨value, hv, Machine.bears_settled (Machine.bears_pushedWord hs value hm) _ _⟩

theorem bears_of_call (hs : before.machine.OnStack) (hx : before.Executes i flow opened)
    (hi : i.operation? = some .call) :
    before.machine.Bears before.machine.nextPc.toInt32 opened.machine := by
  obtain ⟨machine, console, heffects, -, rfl⟩ := effects_of_executes hx hi
  cases heffects with
  | assigned _ index value hd => cases hd
  | called hm => exact Machine.bears_settled (Machine.bears_pushedWord hs _ hm) _ _

theorem keeps_of_plain (hx : before.Executes i flow after) (hi : before.machine.LeavesStack i) :
    before.machine.Keeps after.machine := by
  cases hop : i.operation? with
  | none =>
    obtain ⟨machine, console, hcompletes, rfl⟩ := completes_of_executes hx
    cases hcompletes with
    | skipped => exact Machine.keeps_settled before.machine.keeps_refl _ _
    | done op _ _ _ hsome => simp [hop] at hsome
  | some op =>
    obtain ⟨machine, console, heffects, -, rfl⟩ := effects_of_executes hx hop
    exact Machine.keeps_settled (Machine.keeps_of_effects heffects hop hi) _ _

theorem keeps_of_pop (hs : before.machine.OnStack)
    (hb : before.machine.Bears value inner.machine) (hx : inner.Executes j back after)
    (hj : j.operation? = some .pop) (hne : j.first ≠ 6) :
    before.machine.Keeps after.machine ∧ after.machine.readRegister j.first = .ok value := by
  obtain ⟨machine, console, heffects, -, rfl⟩ := effects_of_executes hx hj
  cases heffects with
  | assigned _ index value hd hop => exact absurd rfl hop
  | popped hm hi =>
    have hwritten := Machine.keeps_setRegister inner.machine inner.machine.topWord hi hne
    have hdropped := Machine.keeps_drop hs (Machine.bears_of_keeps hb hwritten)
    refine ⟨Machine.keeps_settled hdropped _ _, ?_⟩
    rw [Machine.readRegister_eq_ok_iff, ← hb.word]
    have hread :=
      (inner.machine.setRegister j.first inner.machine.topWord hi).readRegister_drop hi hne
    rw [Machine.readRegister_setRegister, Machine.readRegister_eq_ok_iff] at hread
    exact hread

theorem keeps_of_ret (hs : before.machine.OnStack)
    (hb : before.machine.Bears value inner.machine) (hx : inner.Executes j back after)
    (hj : j.operation? = some .ret) :
    before.machine.Keeps after.machine ∧ after.machine.pc = value.toUInt32 := by
  have ht := Machine.isAtStackTop_of_bears hs hb
  obtain ⟨machine, console, heffects, hflow, rfl⟩ := effects_of_executes hx hj
  cases heffects with
  | assigned _ index value hd => cases hd
  | halted htop => simp [ht] at htop
  | returned _ hm =>
    refine ⟨Machine.keeps_settled (Machine.keeps_drop hs hb) _ _, ?_⟩
    rw [hflow, Machine.flow_ret ht, hb.word]
    rfl

-- The induction goes over the brackets. What is inside of a bracket lies below the word of its
-- push or call, and keeps that word with all that is above it.
theorem keeps_of_balanced (h : Balanced before after) (hs : before.machine.OnStack) :
    before.machine.Keeps after.machine := by
  induction h with
  | empty simulator => exact simulator.machine.keeps_refl
  | join hl hr ihl ihr =>
    have hkeeps := ihl hs
    exact Machine.keeps_trans hkeeps (ihr (Machine.onStack_of_keeps hkeeps hs))
  | plain i flow hx hi => exact keeps_of_plain hx hi
  | saved i j flow back hpush hi hin hpop hj hgeneral hne ih =>
    obtain ⟨value, -, hbears⟩ := bears_of_push hs hpush hi
    have hinner := Machine.bears_of_keeps hbears (ih (Machine.onStack_of_bears hbears hs))
    exact (keeps_of_pop hs hinner hpop hj hne).1
  | called i j flow back hcall hi hin hret hj ih =>
    have hbears := bears_of_call hs hcall hi
    have hinner := Machine.bears_of_keeps hbears (ih (Machine.onStack_of_bears hbears hs))
    exact (keeps_of_ret hs hinner hret hj).1

theorem bears_of_balanced (hs : before.machine.OnStack)
    (hb : before.machine.Bears value opened.machine) (hin : Balanced opened inner) :
    before.machine.Bears value inner.machine :=
  Machine.bears_of_keeps hb (keeps_of_balanced hin (Machine.onStack_of_bears hb hs))

theorem executes_pop (hb : before.machine.Bears value inner.machine)
    (hf : inner.fetch = .ok j) (hj : j.operation? = some .pop) (hi : j.first.toNat < 16) :
    inner.Executes j (.goTo inner.machine.nextPc) inner.step.simulator :=
  ⟨hf, Machine.execute_of_effect hj rfl (Machine.effect_pop 0 (Machine.holds_of_bears hb) hi), rfl⟩

theorem executes_ret (hs : before.machine.OnStack) (hb : before.machine.Bears value inner.machine)
    (hf : inner.fetch = .ok j) (hj : j.operation? = some .ret) :
    inner.Executes j (.goTo value.toUInt32) inner.step.simulator := by
  have ht := Machine.isAtStackTop_of_bears hs hb
  have hx : (inner.execute j).result = .ok (inner.machine.flow .ret j) :=
    Machine.execute_of_effect hj rfl (Machine.effect_ret 0 (Machine.holds_of_bears hb) ht)
  rw [Machine.flow_ret ht, hb.word] at hx
  exact ⟨hf, hx, rfl⟩

end Brackets

theorem onStack_after {start : Simulator} (hs : start.machine.OnStack) (count : Nat) :
    (start.after count).machine.OnStack := by
  apply after_induction (motive := fun simulator => simulator.machine.OnStack) _ hs
  intro simulator h
  obtain ⟨-, htop, -, hsize⟩ := simulator.fixed_step
  rw [Machine.OnStack, htop, hsize]
  exact h

theorem after_of_balanced {before after : Simulator} (h : Balanced before after) :
    ∃ steps, after = before.after steps := by
  have hjoin {first second third : Simulator} (hl : ∃ steps, second = first.after steps)
      (hr : ∃ steps, third = second.after steps) : ∃ steps, third = first.after steps := by
    obtain ⟨few, rfl⟩ := hl
    obtain ⟨more, rfl⟩ := hr
    exact ⟨few + more, after_add first few more⟩
  have hstep {before after : Simulator} {i : Instruction} {flow : Flow}
      (hx : before.Executes i flow after) : ∃ steps, after = before.after steps :=
    ⟨1, hx.stepped.symm⟩
  induction h with
  | empty simulator => exact ⟨0, rfl⟩
  | join hl hr ihl ihr => exact hjoin ihl ihr
  | plain i flow hx hi => exact hstep hx
  | saved i j flow back hpush hi hin hpop hj hgeneral hne ih =>
    exact hjoin (hstep hpush) (hjoin ih (hstep hpop))
  | called i j flow back hcall hi hin hret hj ih =>
    exact hjoin (hstep hcall) (hjoin ih (hstep hret))

-- Wherever a course has come whose memory is all stack: balanced steps leave the stack pointer and
-- the words above it as they were, a pop that undoes a push succeeds and delivers the word that was
-- pushed, and a return that undoes a call succeeds and goes on after it.
theorem balanced_steps_restore_stack {start : Simulator} (hs : start.machine.OnStack)
    (count : Nat) :
    let before := start.after count
    (∀ after, Balanced before after →
      (∃ steps, after = start.after (count + steps)) ∧
      after.machine.stackAddress = before.machine.stackAddress ∧
      ∀ address : Nat, before.machine.stackAddress ≤ address →
        after.machine.memory.byteAt address = before.machine.memory.byteAt address) ∧
    (∀ i j flow opened inner, before.Executes i flow opened → i.operation? = some .push →
      Balanced opened inner → inner.fetch = .ok j → j.operation? = some .pop →
      j.first.toNat < 16 → j.first ≠ 6 →
      ∃ value, before.machine.pushed i.first = .ok value ∧ opened.machine.topWord = value ∧
        inner.Executes j (.goTo inner.machine.nextPc) inner.step.simulator ∧
        inner.step.simulator.machine.readRegister j.first = .ok value) ∧
    (∀ i j flow opened inner, before.Executes i flow opened → i.operation? = some .call →
      Balanced opened inner → inner.fetch = .ok j → j.operation? = some .ret →
      inner.Executes j (.goTo before.machine.nextPc) inner.step.simulator ∧
        inner.step.simulator.machine.pc = before.machine.nextPc) := by
  intro before
  have hs : before.machine.OnStack := onStack_after hs count
  refine ⟨?_, ?_, ?_⟩
  · intro after hb
    have hkeeps := keeps_of_balanced hb hs
    obtain ⟨steps, rfl⟩ := after_of_balanced hb
    exact ⟨⟨steps, after_add start count steps⟩, hkeeps.stackAddress, hkeeps.bytes⟩
  · intro i j flow opened inner hpush hi hin hf hj hgeneral hne
    obtain ⟨value, hv, hopened⟩ := bears_of_push hs hpush hi
    have hinner := bears_of_balanced hs hopened hin
    have hpop := executes_pop hinner hf hj hgeneral
    exact ⟨value, hv, hopened.word, hpop, (keeps_of_pop hs hinner hpop hj hne).2⟩
  · intro i j flow opened inner hcall hi hin hf hj
    have hinner := bears_of_balanced hs (bears_of_call hs hcall hi) hin
    have hret := executes_ret hs hinner hf hj
    have hpc := (keeps_of_ret hs hinner hret hj).2
    rw [UInt32.toUInt32_toInt32] at hret hpc
    exact ⟨hret, hpc⟩

-- A push and a pop around a call. The called instructions write to a register, and return.
def nested : Simulator :=
  .ofProgram
    [.assemble .push 6 0 0, .assemble .call 0 0 8, .assemble .pop 1 0 0, .assemble .ret 0 0 0,
     .assemble .moveImm 1 0 9, .assemble .ret 0 0 0]
    .default (.ofInput [] .unlimited)

theorem balanced_nested_inside : Balanced (nested.after 2) (nested.after 3) := by
  refine .plain (.assemble .moveImm 1 0 9) (.goTo 20) ⟨rfl, rfl, rfl⟩ ⟨?_, ?_, nofun⟩
  · rintro op ⟨⟩
    rfl
  · rintro op ⟨⟩
    decide

theorem balanced_nested : Balanced (nested.after 1) (nested.after 4) :=
  .called (.assemble .call 0 0 8) (.assemble .ret 0 0 0) (.goTo 16) (.goTo 8)
    ⟨rfl, rfl, rfl⟩ rfl balanced_nested_inside ⟨rfl, rfl, rfl⟩ rfl

theorem nested_restores_stack :
    nested.machine.OnStack ∧
    (nested.after 4).machine.stackAddress = (nested.after 1).machine.stackAddress ∧
    (nested.after 4).machine.pc = (nested.after 1).machine.nextPc ∧
    (nested.after 5).machine.readRegister 1 = .ok nested.machine.pushSlot := by
  have hs : nested.machine.OnStack := by decide
  obtain ⟨hsegment, -, hret⟩ := balanced_steps_restore_stack hs 1
  obtain ⟨-, hpop, -⟩ := balanced_steps_restore_stack hs 0
  have hreturned := hret (.assemble .call 0 0 8) (.assemble .ret 0 0 0) (.goTo 16)
    (nested.after 2) (nested.after 3) ⟨rfl, rfl, rfl⟩ rfl balanced_nested_inside rfl rfl
  obtain ⟨value, hvalue, -, -, hread⟩ := hpop (.assemble .push 6 0 0) (.assemble .pop 1 0 0)
    (.goTo 4) (nested.after 1) (nested.after 4) ⟨rfl, rfl, rfl⟩ rfl balanced_nested rfl rfl
    (by decide) (by decide)
  cases hvalue
  exact ⟨hs, (hsegment _ balanced_nested).2.1, hreturned.2, hread⟩

end WordMachine.Simulator
