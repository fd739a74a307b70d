import WordMachine.Proofs.Console.Numeral
import WordMachine.Proofs.Simulation.Containment
import WordMachine.Proofs.Simulation.Place

namespace WordMachine.Countdown

open Machine Simulator

-- Reads a number, and counts in register 1 how often one can be taken away from it before it is
-- no longer positive. The loop begins at 12.
def program : List Instruction :=
  [.assemble .read 0 0 0,
   .assemble .moveImm 1 0 0,
   .assemble .moveImm 2 0 0,
   .assemble .compare 2 0 0,
   .assemble (.branch .lessOrEqual) 0 0 12,
   .assemble .addImm 1 0 1,
   .assemble .subImm 0 0 1,
   .assemble (.branch .always) 0 0 (-20),
   .assemble .print 1 0 0]

-- The account of the instructions up to the test that follows this many rounds.
def account (rounds : Nat) : Tally where
  retired := 5 * rounds + 3
  alu := 2 * rounds + 2
  load := 0
  store := 0
  compare := rounds
  branch := 2 * rounds
  call := 0
  stack := 0
  console := 1
  unknown := 0
  taken := rounds
  notTaken := rounds
  peakDepth := 0

-- The account of a whole run with this many rounds: three instructions after the last of them.
def total (rounds : Nat) : Tally where
  retired := 5 * rounds + 6
  alu := 2 * rounds + 2
  load := 0
  store := 0
  compare := rounds + 1
  branch := 2 * rounds + 1
  call := 0
  stack := 0
  console := 2
  unknown := 0
  taken := rounds + 1
  notTaken := rounds
  peakDepth := 0

-- The loop is about to begin after this many rounds, with `n` as the number that was read.
structure Round (n : Int32) (rounds : Nat) (here : Simulator) : Prop where
  stands : Stands program 12 here
  left : (here.machine.general 0).toInt = n.toInt - rounds
  counted : (here.machine.general 1).toInt = rounds
  zero : here.machine.general 2 = 0
  sink : here.console.sink = .unlimited
  tally : here.machine.tally = account rounds

-- The last instruction is about to print what the rounds have counted.
structure Closing (n : Int32) (rounds : Nat) (last : Simulator) : Prop where
  result : last.step.result = .ok (some .endOfProgram)
  silent : last.console.sink.text = ""
  retired : last.machine.tally.retired = 5 * rounds + 5
  printed : ∃ value : Int32, value.toInt = rounds ∧
    last.step.simulator.console.sink.text = Console.printedLine value ++ "\n"
  left : (last.step.simulator.machine.general 0).toInt = n.toInt - rounds
  tally : last.step.simulator.machine.tally = total rounds

section Blocks

variable {here : Simulator} {x : Int32}

-- The number that is left is compared with zero.
theorem passes_of_test (h : Stands program 12 here) (hleft : here.machine.general 0 = x)
    (hzero : here.machine.general 2 = 0) :
    ∃ there, here.Leads there ∧ Stands program (if x.toInt ≤ 0 then 32 else 20) there ∧
      there.machine.general = here.machine.general ∧ there.console = here.console ∧
      there.machine.tally =
        ((here.machine.tally.retire .compare).recordBranch (x.toInt ≤ 0)).retire .branch := by
  have hcompare := here.machine.effect_compare_of_lt (i := .assemble .compare 2 0 0)
    (by decide) (by decide) 0
  obtain ⟨compared, hcompared, hat⟩ := passes_of_effect h rfl rfl rfl rfl hcompare
    (congrArg Flow.goTo (nextPc_of_stands h)) (by decide)
  have hflags : compared.machine.registers.flags = Flags.compare 0 x := by
    rw [hcompared.registers, ← hzero, ← hleft]
    rfl
  have htaken : compared.machine.registers.flags.holds .lessOrEqual = decide (x.toInt ≤ 0) := by
    rw [hflags, Flags.holds_compare]
    rfl
  have hflow : compared.machine.flow (.branch .lessOrEqual)
      (.assemble (.branch .lessOrEqual) 0 0 12) = .goTo (if x.toInt ≤ 0 then 32 else 20) :=
    flow_of_compared hat hflags .lessOrEqual _
  obtain ⟨there, hthere, hat⟩ := passes_of_effect hat rfl rfl rfl rfl rfl hflow
    (by split <;> decide)
  refine ⟨there, leads_trans hcompared.leads hthere.leads, hat, ?_,
    hthere.console.trans hcompared.console, ?_⟩
  · funext place
    rw [general_of_passes hthere]
    exact general_of_passes hcompared place
  · rw [hthere.tally, ← htaken]
    show ((compared.machine.tally.recordBranch _).retire .branch) = _
    rw [hcompared.tally]
    rfl

-- The number is counted, and the program goes back to the test with the next lower one.
theorem passes_of_body (h : Stands program 20 here) :
    ∃ there, here.Leads there ∧ Stands program 12 there ∧
      there.machine.general 0 = here.machine.general 0 - 1 ∧
      there.machine.general 1 = here.machine.general 1 + 1 ∧
      there.machine.general 2 = here.machine.general 2 ∧ there.console = here.console ∧
      there.machine.tally =
        (((here.machine.tally.retire .alu).retire .alu).recordBranch true).retire .branch := by
  obtain ⟨counted, hcounted, hat, hgeneral⟩ := passes_of_assign h rfl rfl rfl rfl
    (here.machine.revise_of_lt (by decide : (1 : UInt8).toNat < 16) (· + 1)) rfl (by decide)
  obtain ⟨taken, htaken, hat, hgeneral'⟩ := passes_of_assign hat rfl rfl rfl rfl
    (counted.machine.revise_of_lt (by decide : (0 : UInt8).toNat < 16) (· - 1)) rfl (by decide)
  obtain ⟨there, hthere, hat⟩ := passes_of_effect hat rfl rfl rfl rfl rfl
    (congrArg Flow.goTo (target_of_stands hat _)) (by decide)
  have hsame (place : Fin 16) : there.machine.general place = taken.machine.general place :=
    general_of_passes hthere place
  refine ⟨there, leads_trans hcounted.leads (leads_trans htaken.leads hthere.leads), hat,
    ?_, ?_, ?_, ?_, ?_⟩
  · exact (hsame 0).trans ((hgeneral' 0).trans (congrArg (· - 1) (hgeneral 0)))
  · exact (hsame 1).trans ((hgeneral' 1).trans (hgeneral 1))
  · exact (hsame 2).trans ((hgeneral' 2).trans (hgeneral 2))
  · rw [hthere.console, htaken.console, hcounted.console]
  · rw [hthere.tally]
    show (taken.machine.tally.recordBranch true).retire .branch = _
    rw [htaken.tally]
    show (((counted.machine.tally.retire .alu).recordBranch true).retire .branch) = _
    rw [hcounted.tally]
    rfl

end Blocks

section Loop

variable {n : Int32} {rounds : Nat} {here : Simulator}

-- One round: five instructions, two of them branches, of which one is taken.
theorem round_of_round (h : Round n rounds here) (hlt : (rounds : Int) < n.toInt) :
    ∃ there, here.Leads there ∧ Round n (rounds + 1) there := by
  have hle := n.toInt_lt
  have hone : (1 : Int32).toInt = 1 := rfl
  have hleft := h.left
  have hcounted := h.counted
  have hpositive : ¬ (here.machine.general 0).toInt ≤ 0 := by omega
  obtain ⟨tested, htested, hat, hsame, hconsole, htally⟩ := passes_of_test h.stands rfl h.zero
  rw [if_neg hpositive] at hat
  rw [decide_eq_false hpositive, h.tally] at htally
  obtain ⟨there, hthere, hat, hless, hmore, hzero, hconsole', htally'⟩ := passes_of_body hat
  rw [hsame] at hless hmore hzero
  refine ⟨there, leads_trans htested hthere, hat, ?_, ?_, hzero.trans h.zero, ?_, ?_⟩
  · rw [hless, toInt_sub_eq _ _ (by omega) (by omega)]
    omega
  · rw [hmore, toInt_add_eq _ _ (by omega) (by omega)]
    omega
  · rw [hconsole', hconsole, h.sink]
  · rw [htally', htally]
    rfl

-- The induction is on the number of rounds, which is at most the number that was read.
theorem leads_to_round (h : Round n 0 here) (hle : (rounds : Int) ≤ max n.toInt 0) :
    ∃ there, here.Leads there ∧ Round n rounds there := by
  induction rounds with
  | zero => exact ⟨here, leads_refl here, h⟩
  | succ rounds ih =>
    obtain ⟨last, hlast, hround⟩ := ih (by omega)
    obtain ⟨there, hthere, hround⟩ := round_of_round hround (by omega)
    exact ⟨there, leads_trans hlast hthere, hround⟩

-- After the last round the program prints what it has counted, and is at its end.
theorem closing_of_round (h : Round n rounds here) (hle : n.toInt ≤ rounds) :
    ∃ last, here.Leads last ∧ Closing n rounds last := by
  have hleft := h.left
  have hdone : (here.machine.general 0).toInt ≤ 0 := by omega
  obtain ⟨last, hlast, hat, hsame, hconsole, htally⟩ := passes_of_test h.stands rfl h.zero
  rw [if_pos hdone] at hat
  rw [decide_eq_true hdone, h.tally] at htally
  have hsink := (congrArg Console.sink hconsole).trans h.sink
  have hread : last.machine.readRegister (Instruction.assemble .print 1 0 0).first =
      .ok (last.machine.general 1) :=
    last.machine.readRegister_of_lt (by decide : (1 : UInt8).toNat < 16)
  obtain ⟨rest, hc, htext⟩ :=
    converse_print_of_no_limit hread (by rw [hsink]; rfl) (by rw [hsink]; rfl)
  obtain ⟨hended, hstepped⟩ := step_of_effect (fetch_of_stands hat rfl rfl) rfl hc rfl
    (congrArg Flow.goTo (nextPc_of_stands hat))
  rw [endAddress_of_stands hat] at hended
  refine ⟨last, hlast, hended, ?_, ?_, ⟨last.machine.general 1, ?_, ?_⟩, ?_, ?_⟩
  · rw [hsink]
    rfl
  · rw [htally]
    rfl
  · rw [hsame, h.counted]
  · rw [hstepped]
    show rest.sink.text = _
    rw [htext, hsink]
    rfl
  · rw [hstepped, ← hleft, ← hsame]
    rfl
  · rw [hstepped]
    show last.machine.tally.retire .console = _
    rw [htally]
    rfl

end Loop

section Run

variable (configuration : Configuration) {input : List UInt8} {n : Int32}

-- The number is read, and nothing has been counted yet.
theorem leads_to_loop (hn : (Console.ofInput input .unlimited).nextToken.1.integer = .ok n) :
    ∃ there, (ofProgram program configuration (.ofInput input .unlimited)).Leads there ∧
      Round n 0 there := by
  let start := ofProgram program configuration (.ofInput input .unlimited)
  have hstart : Stands program 0 start := ⟨rfl, rfl⟩
  obtain ⟨asked, hasked, hat, hgeneral⟩ := passes_of_read hstart rfl rfl rfl
    (by decide : (0 : UInt8).toNat < 16) hn (by decide)
  obtain ⟨cleared, hcleared, hat, hgeneral'⟩ := passes_of_assign hat rfl rfl rfl rfl
    (asked.machine.writeRegister_of_lt (by decide : (1 : UInt8).toNat < 16) 0) rfl (by decide)
  obtain ⟨there, hthere, hat, hgeneral''⟩ := passes_of_assign hat rfl rfl rfl rfl
    (cleared.machine.writeRegister_of_lt (by decide : (2 : UInt8).toNat < 16) 0) rfl (by decide)
  have hleft : there.machine.general 0 = n :=
    (hgeneral'' 0).trans ((hgeneral' 0).trans (hgeneral 0))
  have hcounted : there.machine.general 1 = 0 := (hgeneral'' 1).trans (hgeneral' 1)
  refine ⟨there, leads_trans hasked.leads (leads_trans hcleared.leads hthere.leads), hat, ?_, ?_,
    hgeneral'' 2, ?_, ?_⟩
  · rw [hleft]
    omega
  · rw [hcounted]
    rfl
  · rw [hthere.console, hcleared.console, hasked.console, Console.sink_nextToken]
    rfl
  · rw [hthere.tally]
    show cleared.machine.tally.retire .alu = _
    rw [hcleared.tally]
    show (asked.machine.tally.retire .alu).retire .alu = _
    rw [hasked.tally]
    rfl

-- No instruction of the program stores a word or moves the stack pointer.
theorem untouched_after (console : Console) (count : Nat) :
    let start := ofProgram program configuration console
    (∀ place, (start.after count).machine.memory.byteAt place =
        start.machine.memory.byteAt place) ∧
      (start.after count).machine.stackAddress = start.machine.stackAddress := by
  intro start
  have hstore : ∀ i ∈ start.program,
      i.operation? ∉ [some .store, some .push, some .call] := by
    show ∀ i ∈ program.toArray, _
    decide
  have hmove : ∀ i ∈ start.program, 6 ∉ i.destinations := by
    show ∀ i ∈ program.toArray, _
    decide
  have hpointer := start.eq_after_of_kept (·.machine.registers.general[(6 : UInt8).toNat]?)
    (fun here i hi hf => (footprint_step hf).1.register 6 (hmove i hi)) count
  refine ⟨?_, congrArg Int32.toInt (Option.some.inj hpointer)⟩
  intro place
  exact start.eq_after_of_kept (·.machine.memory.byteAt place) (fun here i hi hf =>
    (footprint_step hf).1.byte place (Machine.not_overwrites (hstore i hi) _ _)) count

-- The run makes as many steps as its account says, whatever the limit is.
theorem stops_of_read {m : Nat} (hm : (m : Int) = max n.toInt 0)
    (hn : (Console.ofInput input .unlimited).nextToken.1.integer = .ok n) :
    let start := ofProgram program configuration (.ofInput input .unlimited)
    start.Stops (5 * m + 5) (.ok .endOfProgram) ∧ Closing n m (start.after (5 * m + 5)) := by
  intro start
  obtain ⟨entered, hentered, hround⟩ := leads_to_loop configuration hn
  obtain ⟨tested, htested, hround⟩ : ∃ there, entered.Leads there ∧ Round n m there :=
    leads_to_round hround (by omega)
  obtain ⟨last, hlast, hclosing⟩ := closing_of_round hround (by omega)
  have hverdict : verdict? last.step.result = some (.ok .endOfProgram) := by
    rw [hclosing.result]
    rfl
  obtain ⟨count, hstops, rfl, hretired⟩ :=
    stops_of_leads (leads_trans hentered (leads_trans htested hlast)) hverdict
  have hcount : count = 5 * m + 5 := by
    have hall := hretired.symm.trans hclosing.retired
    exact (Nat.zero_add count).symm.trans hall
  exact ⟨hcount ▸ hstops, hcount ▸ hclosing⟩

-- A run that prints with its last instruction has printed nothing at a lower limit.
theorem limited_of_stops {start : Simulator} {limit : UInt64} {count : Nat}
    (hc : start.cancelled = false) (hl : start.limit = some limit)
    (hnew : start.machine.tally.retired = 0) (hstops : start.Stops count (.ok .endOfProgram))
    (hsilent : (start.after count).console.sink.text = "") :
    ∃ limited, (∀ fuel, limit.toNat ≤ fuel → start.run? fuel = some limited) ∧
      (limited.result = .ok .stepLimit ∧ limited.simulator.console.sink.text = "" ↔
        limit.toNat < count + 1) ∧
      (count + 1 ≤ limit.toNat → limited =
        conclude (start.after (count + 1)) (start.log (count + 1)) (.ok .endOfProgram)) := by
  have hroom (limit' : UInt64) (hl' : start.limit = some limit') : limit' = limit :=
    Option.some.inj (hl'.symm.trans hl)
  by_cases hlow : limit.toNat < count + 1
  · have hsteps : limit.toNat - start.machine.tally.retired = limit.toNat := by omega
    have hcontinues := continues_of_le (Nat.le_of_lt_succ hlow) hstops.continues
    have hempty : (start.after limit.toNat).console.sink.text = "" := by
      obtain ⟨more, hmore⟩ := extends_after (start.after limit.toNat) (count - limit.toNat)
      have hend : limit.toNat + (count - limit.toNat) = count := by omega
      rw [after_add, hend, hsilent] at hmore
      exact (String.append_eq_empty_iff.mp hmore.symm).1
    refine ⟨conclude (start.after limit.toNat) (start.log limit.toNat) (.ok .stepLimit), ?_,
      iff_of_true ⟨rfl, hempty⟩ hlow, ?_⟩
    · intro fuel hfuel
      have hrun := run?_of_reached hc hl (by rwa [hsteps]) fuel
      rw [hsteps] at hrun
      exact hrun.trans (if_pos hfuel)
    · intro hle
      omega
  · refine ⟨_, ?_, ?_, fun _ => rfl⟩
    · intro fuel hfuel
      have hhas : start.HasRoom count := by
        intro limit' hl'
        rw [hroom limit' hl', hnew]
        omega
      exact (run?_of_stops hc hstops hhas fuel).trans (if_pos (by omega))
    · refine iff_of_false ?_ hlow
      rintro ⟨hresult, -⟩
      cases hresult

end Run

end WordMachine.Countdown
