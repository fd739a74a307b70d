import Mathlib.Algebra.Group.Nat.Defs
import Mathlib.Data.Nat.Factorial.Basic
import WordMachine.Proofs.Console.Numeral
import WordMachine.Proofs.Simulation.Place
import WordMachine.Proofs.Stack.Count

namespace WordMachine.Factorial

open Machine Simulator

-- Reads a number, and prints its factorial. The function begins at 16: it takes its argument in
-- register 0 and gives its result in register 1.
def program : List Instruction :=
  [.assemble .read 0 0 0,
   .assemble .call 0 0 8,
   .assemble .print 1 0 0,
   .assemble .ret 0 0 0,
   .assemble .moveImm 2 0 1,
   .assemble .compare 2 0 0,
   .assemble (.branch .lessOrEqual) 0 0 24,
   .assemble .push 0 0 0,
   .assemble .subImm 0 0 1,
   .assemble .call 0 0 (-24),
   .assemble .pop 0 0 0,
   .assemble .mul 0 1 0,
   .assemble .ret 0 0 0,
   .assemble .moveImm 1 0 1,
   .assemble .ret 0 0 0]

-- The program is at this instruction, with its stack in the memory.
structure At (pc : UInt32) (simulator : Simulator) : Prop where
  program : simulator.program = program.toArray
  pc : simulator.machine.pc = pc
  onStack : simulator.machine.OnStack
  inside : simulator.machine.stackAddress ≤ simulator.machine.memory.size

section Place

variable {pc : UInt32} {here there : Simulator} {depth : Nat} {value : Int32}

theorem stands_of_at (h : At pc here) : Stands program pc here :=
  ⟨h.program, h.pc⟩

theorem fetch_of_at (h : At pc here) {i : Instruction} (ha : pc.toNat % 4 = 0)
    (hi : program[pc.toNat / 4]? = some i) : here.fetch = .ok i :=
  fetch_of_stands (stands_of_at h) ha hi

theorem endAddress_of_at (h : At pc here) : here.endAddress = 60 :=
  endAddress_of_stands (stands_of_at h)

theorem nextPc_of_at (h : At pc here) : here.machine.nextPc = pc + 4 :=
  nextPc_of_stands (stands_of_at h)

theorem target_of_at (h : At pc here) (distance : Int32) :
    here.machine.target distance = pc + 4 + distance.toUInt32 :=
  target_of_stands (stands_of_at h) distance

theorem toUInt32_returnTo (h : At pc here) :
    here.machine.nextPc.toInt32.toUInt32 = pc + 4 := by
  rw [UInt32.toUInt32_toInt32, nextPc_of_at h]

theorem returnTo_ne_end (h : At pc here) (hpc : pc = 4 ∨ pc = 36) :
    here.machine.nextPc.toInt32.toUInt32.toNat ≠ 60 := by
  rw [toUInt32_returnTo h]
  obtain rfl | rfl := hpc <;> decide

theorem at_of_keeps (h : At pc here) (hl : here.Leads there)
    (hkeeps : here.machine.Keeps there.machine) {target : UInt32}
    (hpc : there.machine.pc = target) : At target there := by
  refine ⟨(program_of_leads hl).trans h.program, hpc, onStack_of_keeps hkeeps h.onStack, ?_⟩
  rw [hkeeps.stackAddress, hkeeps.size]
  exact h.inside

theorem at_of_returns (h : At pc here) (hr : Returns depth here there) {target : UInt32}
    (hpc : there.machine.pc = target) : At target there :=
  at_of_keeps h hr.leads hr.keeps hpc

theorem at_of_opens (h : At pc here) (ho : Opens depth value here there) {target : UInt32}
    (hpc : there.machine.pc = target) : At target there := by
  have hprogram := program_of_leads ho.leads
  have hroom := ho.bears.room
  refine ⟨hprogram.trans h.program, hpc, onStack_of_bears ho.bears h.onStack, ?_⟩
  rw [ho.bears.stackAddress, ho.bears.size]
  omega

end Place

section Instructions

variable {pc : UInt32} {here : Simulator} {i : Instruction} {op : Operation}

-- An instruction of the program that leaves the stack alone.
theorem at_of_effect (h : At pc here) (ha : pc.toNat % 4 = 0)
    (hi : program[pc.toNat / 4]? = some i) (hop : i.operation? = some op)
    (hc : here.machine.converse op i here.console = (.ok 0, here.console)) {after : Machine}
    (he : here.machine.effect op i 0 = .ok after) (hkeeps : here.machine.Keeps after)
    (hpeak : after.tally.peakDepth = here.machine.tally.peakDepth) {target : UInt32}
    (hflow : here.machine.flow op i = .goTo target) (hin : target.toNat ≠ 60) :
    ∃ there, Returns 0 here there ∧ At target there ∧
      there.machine.registers = after.registers := by
  rw [← endAddress_of_at h] at hin
  have hreturns := returns_of_effect (fetch_of_at h ha hi) hop hc he hflow hin hkeeps hpeak
  exact ⟨_, hreturns, at_of_returns h hreturns rfl, rfl⟩

-- An instruction of the program that writes a register.
theorem at_of_assign (h : At pc here) (ha : pc.toNat % 4 = 0)
    (hi : program[pc.toNat / 4]? = some i) (hop : i.operation? = some op)
    (hc : here.machine.converse op i here.console = (.ok 0, here.console)) {index : UInt8}
    {value : Int32} {hindex : index.toNat < 16}
    (he : here.machine.effect op i 0 = .ok (here.machine.setRegister index value hindex))
    (hne : index ≠ 6) (hflow : here.machine.flow op i = .goTo here.machine.nextPc)
    (hin : (pc + 4).toNat ≠ 60) :
    ∃ there, Returns 0 here there ∧ At (pc + 4) there ∧
      ∀ place : Fin 16, there.machine.general place =
        if index.toNat = place then value else here.machine.general place := by
  rw [nextPc_of_at h] at hflow
  obtain ⟨there, hreturns, hat, hregisters⟩ := at_of_effect h ha hi hop hc he
    (keeps_setRegister here.machine value hindex hne) rfl hflow hin
  refine ⟨there, hreturns, hat, ?_⟩
  intro place
  rw [Machine.general, hregisters]
  exact here.machine.general_setRegister hindex value place

-- An instruction of the program that pushes a word.
theorem at_of_push (h : At pc here) (ha : pc.toNat % 4 = 0)
    (hi : program[pc.toNat / 4]? = some i) (hop : i.operation? = some op)
    (hc : here.machine.converse op i here.console = (.ok 0, here.console)) {value : Int32}
    (he : here.machine.effect op i 0 = here.machine.push value) {target : UInt32}
    (hflow : here.machine.flow op i = .goTo target) (hin : target.toNat ≠ 60)
    (hroom : 4 ≤ here.machine.stackAddress) :
    ∃ there, Opens (here.machine.depth + 4) value here there ∧ At target there ∧
      ∀ place ≠ 6, there.machine.general place = here.machine.general place := by
  rw [← endAddress_of_at h] at hin
  have hopens := opens_of_push (fetch_of_at h ha hi) hop h.onStack hc he hflow hin
    ⟨hroom, h.inside⟩
  exact ⟨_, hopens, at_of_opens h hopens rfl,
    fun _ hne => here.machine.general_pushedWord value hne⟩

end Instructions

section Blocks

variable {here : Simulator}

-- The argument is compared with one.
theorem at_of_compared (h : At 16 here) :
    ∃ there, Returns 0 here there ∧ At 24 there ∧
      there.machine.registers.flags = Flags.compare 1 (here.machine.general 0) ∧
      there.machine.general 0 = here.machine.general 0 := by
  obtain ⟨loaded, hloaded, hat, hgeneral⟩ := at_of_assign h rfl rfl rfl rfl
    (here.machine.writeRegister_of_lt (by decide : (2 : UInt8).toNat < 16) 1) (by decide) rfl
    (by decide)
  have hone : loaded.machine.general 2 = 1 := hgeneral 2
  have hsame : loaded.machine.general 0 = here.machine.general 0 := hgeneral 0
  obtain ⟨there, hthere, hat, hregisters⟩ := at_of_effect hat rfl rfl rfl rfl
    (loaded.machine.effect_compare_of_lt (by decide) (by decide) 0)
    ⟨rfl, fun _ _ => rfl, rfl, rfl⟩ rfl (congrArg Flow.goTo (nextPc_of_at hat)) (by decide)
  refine ⟨there, returns_trans hloaded hthere, hat, ?_, ?_⟩
  · rw [hregisters, ← hone, ← hsame]
    rfl
  · rw [Machine.general, hregisters]
    exact hsame

theorem at_of_branch {x : Int32} (h : At 24 here)
    (hflags : here.machine.registers.flags = Flags.compare 1 x) :
    ∃ there, Returns 0 here there ∧ At (if x.toInt ≤ 1 then 52 else 28) there ∧
      there.machine.general 0 = here.machine.general 0 := by
  have hflow : here.machine.flow (.branch .lessOrEqual)
      (.assemble (.branch .lessOrEqual) 0 0 24) = .goTo (if x.toInt ≤ 1 then 52 else 28) :=
    flow_of_compared (stands_of_at h) hflags .lessOrEqual _
  obtain ⟨there, hthere, hat, hregisters⟩ := at_of_effect h rfl rfl rfl rfl rfl
    ⟨rfl, fun _ _ => rfl, rfl, rfl⟩ (here.machine.peakDepth_recordBranch _) hflow
    (by split <;> decide)
  refine ⟨there, hthere, hat, ?_⟩
  rw [Machine.general, hregisters]
  rfl

-- The two calls of the function.
theorem at_of_call {pc : UInt32} (h : At pc here) (hpc : pc = 4 ∨ pc = 36)
    (hroom : 4 ≤ here.machine.stackAddress) :
    ∃ there, Opens (here.machine.depth + 4) here.machine.nextPc.toInt32 here there ∧
      At 16 there ∧
      there.machine.general 0 = here.machine.general 0 := by
  have htarget (distance : Int16) : here.machine.flow .call (.assemble .call 0 0 distance) =
      .goTo (pc + 4 + distance.toInt32.toUInt32) :=
    congrArg Flow.goTo (target_of_at h _)
  obtain rfl | rfl := hpc
  · obtain ⟨there, hopens, hat, hgeneral⟩ :=
      at_of_push h rfl rfl rfl rfl rfl (htarget 8) (by decide) hroom
    exact ⟨there, hopens, hat, hgeneral 0 (by decide)⟩
  · obtain ⟨there, hopens, hat, hgeneral⟩ :=
      at_of_push h rfl rfl rfl rfl rfl (htarget (-24)) (by decide) hroom
    exact ⟨there, hopens, hat, hgeneral 0 (by decide)⟩

theorem effect_save (machine : Machine) :
    machine.effect .push (.assemble .push 0 0 0) 0 =
      machine.push (machine.general 0) := by
  have hpushed : machine.pushed 0 = .ok (machine.general 0) :=
    machine.readRegister_of_lt (by decide : (0 : UInt8).toNat < 16)
  show (machine.pushed 0 >>= machine.push) = _
  rw [hpushed, ok_bind]

-- One level more: the argument is saved, and is one less for the level below.
theorem at_of_saved (h : At 28 here) (hroom : 4 ≤ here.machine.stackAddress) :
    ∃ there, Opens (here.machine.depth + 4) (here.machine.general 0) here there ∧
      At 36 there ∧
      there.machine.general 0 = here.machine.general 0 - 1 := by
  obtain ⟨saved, hsaved, hat, hsame⟩ := at_of_push h rfl rfl rfl rfl (effect_save _)
    (congrArg Flow.goTo (nextPc_of_at h)) (by decide) hroom
  obtain ⟨there, hthere, hat, hgeneral⟩ := at_of_assign hat rfl rfl rfl rfl
    (saved.machine.revise_of_lt (by decide : (0 : UInt8).toNat < 16) (· - 1)) (by decide) rfl
    (by decide)
  refine ⟨there, opens_of_returns hsaved hthere, hat, ?_⟩
  exact (hgeneral 0).trans (congrArg (· - 1) (hsame 0 (by decide)))

-- A call goes as far as the comparison of its argument.
theorem at_of_entry {pc : UInt32} (h : At pc here) (hpc : pc = 4 ∨ pc = 36)
    (hroom : 4 ≤ here.machine.stackAddress) :
    ∃ there, Opens (here.machine.depth + 4) here.machine.nextPc.toInt32 here there ∧
      At (if (here.machine.general 0).toInt ≤ 1 then 52 else 28) there ∧
      there.machine.general 0 = here.machine.general 0 := by
  obtain ⟨opened, hopened, hat, hsame⟩ := at_of_call h hpc hroom
  obtain ⟨compared, hcompared, hat, hflags, hsame'⟩ := at_of_compared hat
  obtain ⟨there, hthere, hat, hsame''⟩ := at_of_branch hat hflags
  have hopens := opens_of_returns (opens_of_returns hopened hcompared) hthere
  rw [Nat.max_zero, Nat.max_zero] at hopens
  rw [hsame] at hat
  exact ⟨there, hopens, hat, hsame''.trans (hsame'.trans hsame)⟩

-- With an argument greater than one, there is a level below.
theorem at_of_descent {pc : UInt32} (h : At pc here) (hpc : pc = 4 ∨ pc = 36) {k : Nat}
    (hx : (here.machine.general 0).toInt = k + 2) (hroom : 8 ≤ here.machine.stackAddress) :
    ∃ entered saved,
      Opens (here.machine.depth + 4) here.machine.nextPc.toInt32 here entered ∧ At 28 entered ∧
      Opens (entered.machine.depth + 4) (here.machine.general 0) entered saved ∧
      At 36 saved ∧ (saved.machine.general 0).toInt = k + 1 := by
  have hlt := (here.machine.general 0).toInt_lt
  have hone : (1 : Int32).toInt = 1 := rfl
  obtain ⟨entered, hentered, hat, hsame⟩ := at_of_entry h hpc (by omega)
  rw [if_neg (by omega)] at hat
  have haddress := hentered.bears.stackAddress
  obtain ⟨saved, hsaved, hat', hless⟩ := at_of_saved hat (by omega)
  rw [hsame] at hsaved hless
  refine ⟨entered, saved, hentered, hat, hsaved, hat', ?_⟩
  rw [hless, toInt_sub_eq _ _ (by omega) (by omega)]
  omega

end Blocks

section Return

variable {caller here : Simulator} {depth : Nat} {returnTo : Int32}
  (hs : caller.machine.OnStack) (ho : Opens depth returnTo caller here)
  (hin : returnTo.toUInt32.toNat ≠ 60)

include hs ho hin

-- The function has come to a return.
theorem at_of_ret {pc : UInt32} (h : At pc here) (ha : pc.toNat % 4 = 0) {i : Instruction}
    (hi : program[pc.toNat / 4]? = some i) (hop : i.operation? = some .ret) :
    ∃ there, Returns depth caller there ∧ there.machine.pc = returnTo.toUInt32 ∧
      there.machine.general 1 = here.machine.general 1 := by
  rw [← endAddress_of_at h] at hin
  exact ⟨_, returns_of_ret hs ho (fetch_of_at h ha hi) hop hin, rfl,
    here.machine.general_drop (by decide)⟩

-- The result for an argument of one at most is one.
theorem at_of_base (h : At 52 here) :
    ∃ there, Returns depth caller there ∧ there.machine.pc = returnTo.toUInt32 ∧
      there.machine.general 1 = 1 := by
  obtain ⟨loaded, hloaded, hat, hgeneral⟩ := at_of_assign h rfl rfl rfl rfl
    (here.machine.writeRegister_of_lt (by decide : (1 : UInt8).toNat < 16) 1) (by decide) rfl
    (by decide)
  obtain ⟨there, hreturns, hpc, hsame⟩ :=
    at_of_ret hs (opens_of_returns ho hloaded) hin hat rfl rfl rfl
  rw [Nat.max_zero] at hreturns
  exact ⟨there, hreturns, hpc, hsame.trans (hgeneral 1)⟩

-- For a greater one, it is the argument times the result of the level below.
theorem at_of_level {level : Simulator} {deeper : Nat} {x : Int32} (h : At 28 here)
    (hlevel : Opens deeper x here level) (hat : At 40 level) :
    ∃ there, Returns (max depth deeper) caller there ∧ there.machine.pc = returnTo.toUInt32 ∧
      there.machine.general 1 = x * level.machine.general 1 := by
  have hnext : level.machine.nextPc.toNat ≠ level.endAddress := by
    rw [nextPc_of_at hat, endAddress_of_at hat]
    decide
  have hpopped := returns_of_pop h.onStack hlevel (fetch_of_at hat rfl rfl) rfl (by decide)
    (by decide) hnext
  generalize hname : level.settled .pop _ level.console level.machine.nextPc = popped at hpopped
  have hargument : popped.machine.general 0 = x := by
    rw [← hname]
    exact (Machine.general_drop _ (by decide)).trans
      (level.machine.general_setRegister (by decide) x 0)
  have hresult : popped.machine.general 1 = level.machine.general 1 := by
    rw [← hname]
    exact (Machine.general_drop _ (by decide)).trans
      (level.machine.general_setRegister (by decide) x 1)
  have hat : At 44 popped := by
    apply at_of_returns h hpopped
    rw [← hname]
    exact nextPc_of_at hat
  obtain ⟨product, hproduct, hat, hgeneral⟩ := at_of_assign hat rfl rfl rfl rfl
    (popped.machine.combine_of_lt (by decide : (0 : UInt8).toNat < 16)
      (by decide : (1 : UInt8).toNat < 16) (· * ·)) (by decide) rfl (by decide)
  have hlevel := opens_of_returns ho (returns_trans hpopped hproduct)
  obtain ⟨there, hreturns, hpc, hsame⟩ := at_of_ret hs hlevel hin hat rfl rfl rfl
  rw [Nat.max_zero] at hreturns
  refine ⟨there, hreturns, hpc, ?_⟩
  rw [hsame, hgeneral 1, ← hargument, ← hresult]
  rfl

end Return

theorem ofInt_factorial_succ {x : Int32} {k : Nat} (hx : x.toInt = k + 2) :
    x * Int32.ofInt ((k + 1).factorial : Nat) = Int32.ofInt ((k + 2).factorial : Nat) := by
  have hfactorial : ((k + 2).factorial : Int) = x.toInt * ((k + 1).factorial : Nat) := by
    rw [hx, Nat.factorial_succ (k + 1)]
    push_cast
    rfl
  rw [hfactorial, Int32.ofInt_mul, Int32.ofInt_toInt]

-- The induction is on how far the argument is above one, which is how many levels there are below
-- the first. Each level takes a word for its return address, and one for the saved argument.
theorem factorial_of_call {k : Nat} {here : Simulator} {pc : UInt32} (h : At pc here)
    (hpc : pc = 4 ∨ pc = 36) (hx : max (here.machine.general 0).toInt 1 = k + 1)
    (hroom : 4 + 8 * k ≤ here.machine.stackAddress) :
    ∃ there, Returns (here.machine.depth + (4 + 8 * k)) here there ∧ At (pc + 4) there ∧
      there.machine.general 1 = Int32.ofInt ((k + 1).factorial : Nat) := by
  induction k generalizing here pc with
  | zero =>
    obtain ⟨entered, hentered, hat, -⟩ := at_of_entry h hpc (by omega)
    rw [if_pos (by omega)] at hat
    obtain ⟨there, hreturns, hback, hresult⟩ :=
      at_of_base h.onStack hentered (returnTo_ne_end h hpc) hat
    exact ⟨there, hreturns, at_of_returns h hreturns (hback.trans (toUInt32_returnTo h)), hresult⟩
  | succ k ih =>
    have hargument : (here.machine.general 0).toInt = k + 2 := by omega
    obtain ⟨entered, saved, hentered, hat, hsaved, hat', hless⟩ :=
      at_of_descent h hpc hargument (by omega)
    have haddress := hentered.bears.stackAddress
    have haddress' := hsaved.bears.stackAddress
    obtain ⟨level, hlevel, hback, hresult⟩ := ih hat' (.inr rfl) (by omega) (by omega)
    obtain ⟨there, hreturns, hback', hproduct⟩ := at_of_level h.onStack hentered
      (returnTo_ne_end h hpc) hat (opens_of_returns hsaved hlevel) hback
    have hdepth := depth_of_bears h.onStack hentered.bears
    have hdepth' := depth_of_bears hat.onStack hsaved.bears
    have hall : max (here.machine.depth + 4) (max (entered.machine.depth + 4)
        (saved.machine.depth + (4 + 8 * k))) = here.machine.depth + (4 + 8 * (k + 1)) := by
      omega
    rw [hall] at hreturns
    refine ⟨there, hreturns, at_of_returns h hreturns (hback'.trans (toUInt32_returnTo h)), ?_⟩
    rw [hproduct, hresult]
    exact ofInt_factorial_succ hargument

-- The program comes to a step that finds no room on the stack, and has printed nothing by then.
def Overflows (here : Simulator) : Prop :=
  ∃ there, here.Leads there ∧ there.console = here.console ∧
    there.step.simulator = there ∧
    ∃ pc, there.step.result = .error (.memory ⟨-4, here.machine.memory.size⟩ pc)

section Overflow

variable {here there : Simulator} {depth : Nat} {value : Int32} {pc : UInt32}

theorem overflows_of_opens (ho : Opens depth value here there) (h : Overflows there) :
    Overflows here := by
  obtain ⟨last, hleads, hconsole, hstays, pc, hfault⟩ := h
  rw [ho.bears.size] at hfault
  exact ⟨last, leads_trans ho.leads hleads, hconsole.trans ho.console, hstays, pc, hfault⟩

theorem overflows_of_call (h : At pc here) (hpc : pc = 4 ∨ pc = 36)
    (hzero : here.machine.stackAddress = 0) : Overflows here := by
  have hfull {i : Instruction} (hf : here.fetch = .ok i) (hop : i.operation? = some .call) :
      Overflows here := by
    obtain ⟨hfault, hstays⟩ := step_of_full hf hop rfl rfl hzero
    exact ⟨here, leads_refl here, rfl, hstays, _, hfault⟩
  obtain rfl | rfl := hpc
  · exact hfull (fetch_of_at h rfl rfl) rfl
  · exact hfull (fetch_of_at h rfl rfl) rfl

theorem overflows_of_save (h : At 28 here) (hzero : here.machine.stackAddress = 0) :
    Overflows here := by
  obtain ⟨hfault, hstays⟩ := step_of_full (fetch_of_at h rfl rfl) rfl rfl (effect_save _) hzero
  exact ⟨here, leads_refl here, rfl, hstays, _, hfault⟩

end Overflow

-- The levels go down by two words each, so a stack of whole words that is too small is used up
-- exactly: by a return address, or by a saved argument.
theorem factorial_overflows {k : Nat} {here : Simulator} {pc : UInt32} (h : At pc here)
    (hpc : pc = 4 ∨ pc = 36) (hx : max (here.machine.general 0).toInt 1 = k + 1)
    (hwords : 4 ∣ here.machine.stackAddress) (hnonneg : 0 ≤ here.machine.stackAddress)
    (hroom : here.machine.stackAddress < 4 + 8 * k) : Overflows here := by
  induction k generalizing here pc with
  | zero => exact overflows_of_call h hpc (by omega)
  | succ k ih =>
    have hargument : (here.machine.general 0).toInt = k + 2 := by omega
    by_cases hzero : here.machine.stackAddress = 0
    · exact overflows_of_call h hpc hzero
    · by_cases hfour : here.machine.stackAddress = 4
      · obtain ⟨entered, hentered, hat, -⟩ := at_of_entry h hpc (by omega)
        have haddress := hentered.bears.stackAddress
        rw [if_neg (by omega)] at hat
        exact overflows_of_opens hentered (overflows_of_save hat (by omega))
      · obtain ⟨entered, saved, hentered, -, hsaved, hat, hless⟩ :=
          at_of_descent h hpc hargument (by omega)
        have haddress := hentered.bears.stackAddress
        have haddress' := hsaved.bears.stackAddress
        have hbelow := ih hat (.inr rfl) (by omega) (by omega) (by omega) (by omega)
        exact overflows_of_opens hentered (overflows_of_opens hsaved hbelow)

section Exchange

variable {here : Simulator} {value : Int32}

-- An instruction of the program that uses the console.
theorem at_of_exchange {pc : UInt32} (h : At pc here) (ha : pc.toNat % 4 = 0) {i : Instruction}
    (hi : program[pc.toNat / 4]? = some i) {op : Operation} (hop : i.operation? = some op)
    {delivered : Int32} {rest : Console}
    (hc : here.machine.converse op i here.console = (.ok delivered, rest)) {after : Machine}
    (he : here.machine.effect op i delivered = .ok after) (hkeeps : here.machine.Keeps after)
    (hpeak : after.tally.peakDepth = here.machine.tally.peakDepth)
    (hflow : here.machine.flow op i = .goTo here.machine.nextPc) (hin : (pc + 4).toNat ≠ 60) :
    ∃ there, here.Leads there ∧ At (pc + 4) there ∧ here.machine.Keeps there.machine ∧
      there.console = rest ∧ there.machine.registers = after.registers ∧
      there.machine.tally.peakDepth = here.machine.tally.peakDepth := by
  rw [← endAddress_of_at h] at hin
  rw [nextPc_of_at h] at hflow
  have hleads := leads_of_effect (fetch_of_at h ha hi) hop hc he hflow hin
  have hkeeps := keeps_settled hkeeps op.category (pc + 4)
  exact ⟨_, hleads, at_of_keeps h hleads hkeeps rfl, hkeeps, rfl, rfl,
    (peakDepth_settled here op after rest (pc + 4)).trans hpeak⟩

-- The argument is read.
theorem at_of_read (h : At 0 here) (hn : here.console.nextToken.1.integer = .ok value) :
    ∃ there, here.Leads there ∧ At 4 there ∧ here.machine.Keeps there.machine ∧
      there.console.sink = here.console.sink ∧ there.machine.general 0 = value ∧
      there.machine.tally.peakDepth = here.machine.tally.peakDepth := by
  have hc : here.machine.converse .read (.assemble .read 0 0 0) here.console =
      (.ok value, here.console.nextToken.2) := by
    rw [converse_read, hn]
    rfl
  have hzero : (0 : UInt8).toNat < 16 := by decide
  obtain ⟨there, hleads, hat, hkeeps, hconsole, hregisters, hpeak⟩ := at_of_exchange h rfl rfl rfl
    hc (here.machine.writeRegister_of_lt hzero value)
    (keeps_setRegister here.machine value hzero (by decide)) rfl rfl (by decide)
  refine ⟨there, hleads, hat, hkeeps, ?_, ?_, hpeak⟩
  · rw [hconsole, Console.sink_nextToken]
  · rw [Machine.general, hregisters]
    exact here.machine.general_setRegister hzero value 0

-- The result is printed.
theorem at_of_print (h : At 8 here) (hlimit : here.console.sink.lineLimit = none)
    (hflush : here.console.sink.refusesFlush = false) :
    ∃ there, here.Leads there ∧ At 12 there ∧ here.machine.Keeps there.machine ∧
      there.console.sink.text = here.console.sink.text ++
        Console.printedLine (here.machine.general 1) ++ "\n" ∧
      there.machine.tally.peakDepth = here.machine.tally.peakDepth := by
  have hread : here.machine.readRegister (Instruction.assemble .print 1 0 0).first =
      .ok (here.machine.general 1) :=
    here.machine.readRegister_of_lt (by decide : (1 : UInt8).toNat < 16)
  obtain ⟨rest, hc, htext⟩ := converse_print_of_no_limit hread hlimit hflush
  obtain ⟨there, hleads, hat, hkeeps, hconsole, -, hpeak⟩ := at_of_exchange h rfl rfl rfl
    hc rfl here.machine.keeps_refl rfl rfl (by decide)
  exact ⟨there, hleads, hat, hkeeps, hconsole ▸ htext, hpeak⟩

-- The result is printed, and the program ends with the stack as it was at first.
theorem halts_of_result (h : At 8 here) (htop : here.machine.isAtStackTop = true)
    (hsink : here.console.sink = .unlimited) :
    ∃ last, here.Leads last ∧ last.step.result = .ok (some .halted) ∧
      last.step.simulator.console.sink.text =
        Console.printedLine (here.machine.general 1) ++ "\n" ∧
      last.step.simulator.machine.stackAddress = here.machine.stackAddress ∧
      last.step.simulator.machine.tally.peakDepth = here.machine.tally.peakDepth := by
  obtain ⟨printed, hprinted, hat, hkeeps, htext, hpeak⟩ :=
    at_of_print h (by rw [hsink]; rfl) (by rw [hsink]; rfl)
  have htop : printed.machine.isAtStackTop = true := by
    rw [isAtStackTop_iff] at htop ⊢
    rw [hkeeps.stackAddress, hkeeps.stackTop, htop]
  have he : printed.machine.effect .ret (.assemble .ret 0 0 0) 0 = .ok printed.machine :=
    Machine.effect_ret_of_top 0 htop
  have hflow : printed.machine.flow .ret (.assemble .ret 0 0 0) = .halt :=
    Machine.flow_eq_halt_iff.mpr ⟨rfl, htop⟩
  obtain ⟨hhalted, hlast⟩ := step_of_halt (fetch_of_at hat rfl rfl) rfl rfl he hflow
  refine ⟨printed, hprinted, hhalted, ?_⟩
  rw [hlast]
  refine ⟨?_, hkeeps.stackAddress, hpeak⟩
  rw [htext, hsink]
  rfl

-- On a stack with the room, the call gives the factorial.
theorem halts_of_call {size k : Nat} (h : At 4 here) (hstacked : here.machine.Stacked size 0)
    (hsink : here.console.sink = .unlimited)
    (hx : max (here.machine.general 0).toInt 1 = k + 1) (hfits : 4 + 8 * k ≤ size) :
    ∃ last, here.Leads last ∧ last.step.result = .ok (some .halted) ∧
      last.step.simulator.console.sink.text =
        Console.printedLine (Int32.ofInt ((k + 1).factorial : Nat)) ++ "\n" ∧
      last.step.simulator.machine.stackAddress = size ∧
      last.step.simulator.machine.tally.peakDepth =
        max here.machine.tally.peakDepth (4 + 8 * k) := by
  have haddress := hstacked.depth
  have hempty : here.machine.depth = 0 := by
    rw [depth, hstacked.stackTop]
    omega
  obtain ⟨called, hcalled, hat, hresult⟩ := factorial_of_call h (.inl rfl) hx (by omega)
  have htop : called.machine.isAtStackTop = true := by
    rw [isAtStackTop_iff, hcalled.keeps.stackAddress, hcalled.keeps.stackTop, hstacked.stackTop]
    omega
  obtain ⟨last, hlast, hhalted, htext, haddress', hpeak⟩ :=
    halts_of_result hat htop (hcalled.console ▸ hsink)
  refine ⟨last, leads_trans hcalled.leads hlast, hhalted, ?_, ?_, ?_⟩
  · rw [htext, hresult]
  · rw [haddress', hcalled.keeps.stackAddress]
    omega
  · rw [hpeak, hcalled.peakDepth, hempty, Nat.zero_add]

end Exchange

section Run

variable {configuration : Configuration} {input : List UInt8} {n : Int32}
  (hv : configuration.validate = .ok ())
  (hn : (Console.ofInput input .unlimited).nextToken.1.integer = .ok n)

include hv hn

-- The program comes to its call with the argument, and with an empty stack.
theorem leads_to_call :
    ∃ asked, (ofProgram program configuration (.ofInput input .unlimited)).Leads asked ∧
      At 4 asked ∧ asked.machine.Stacked configuration.stackSize 0 ∧
      asked.console.sink = .unlimited ∧ asked.machine.general 0 = n ∧
      asked.machine.tally.peakDepth = 0 := by
  obtain ⟨-, -, hsize⟩ := configuration.validate_eq_ok_iff.mp hv
  let start := ofProgram program configuration (.ofInput input .unlimited)
  have hstacked : start.machine.Stacked configuration.stackSize 0 :=
    stacked_reset hsize configuration.policy
  have hinside : start.machine.stackAddress ≤ start.machine.memory.size := by
    rw [hstacked.depth, hstacked.memory]
    omega
  have hat : At 0 start := ⟨rfl, rfl, onStack_of_stacked hstacked, hinside⟩
  obtain ⟨asked, hasked, hat, hkeeps, hsink, hargument, hpeak⟩ := at_of_read hat hn
  refine ⟨asked, hasked, hat, ?_, hsink, hargument, hpeak⟩
  exact ⟨by rw [hkeeps.stackTop, hstacked.stackTop], by rw [hkeeps.size, hstacked.memory],
    hstacked.nonneg, by rw [hkeeps.stackAddress]; exact hstacked.room,
    by rw [hkeeps.stackAddress]; exact hstacked.depth⟩

end Run

end WordMachine.Factorial
