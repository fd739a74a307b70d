import WordMachine.Proofs.Decimal.Acceptance
import WordMachine.Proofs.Simulation.Passage

namespace WordMachine

namespace Console

-- The token stands for an integer that has a word.
def Spells (token : String) (value : Int) : Prop :=
  Decimal.Denotes token.toList value ∧ -0x80000000 ≤ value ∧ value ≤ 0x7FFFFFFF

theorem readSigned_eq_ok_iff_spells {token : String} {value : Int} :
    Decimal.readSigned 0x80000000 token.toList = .ok value ↔ Spells token value := by
  have hrange : (-(0x80000000 : Nat) ≤ value ∧ value < (0x80000000 : Nat)) ↔
      (-0x80000000 ≤ value ∧ value ≤ 0x7FFFFFFF) := by omega
  rw [Decimal.readSigned_eq_ok_iff (by decide), hrange]
  rfl

theorem toInt_of_spells {token : String} {value : Int} (h : Spells token value) :
    (Int32.ofInt value).toInt = value := by
  obtain ⟨-, hlow, hhigh⟩ := h
  exact Int32.toInt_ofInt_of_le hlow (by omega)

theorem integer_of_spells {token : String} {value : Int} (h : Spells token value) :
    (Delivery.token token).integer = .ok (Int32.ofInt value) := by
  simp only [Delivery.integer, readSigned_eq_ok_iff_spells.mpr h]

theorem integer_of_not_spells {token : String} (h : ∀ value, ¬ Spells token value) :
    ∃ cause, (Delivery.token token).integer = .error (.notInteger token cause) := by
  cases hread : Decimal.readSigned 0x80000000 token.toList with
  | ok value => exact absurd (readSigned_eq_ok_iff_spells.mp hread) (h value)
  | error cause => exact ⟨cause, by simp only [Delivery.integer, hread]⟩

-- A token that was delivered is the first of what remained, and the next one is delivered next.
theorem remaining_of_token {console : Console} {token : String}
    (h : console.nextToken.1 = .token token) :
    console.remaining = .token token :: console.nextToken.2.remaining := by
  obtain ⟨hfirst, hrest⟩ := console.nextToken_eq
  rw [h] at hfirst
  rw [hrest]
  cases hremaining : console.remaining with
  | nil =>
    rw [hremaining] at hfirst
    cases hfirst
  | cons delivery deliveries =>
    rw [hremaining] at hfirst
    exact congrArg (· :: deliveries) hfirst.symm

end Console

namespace Machine

section Read

variable {i : Instruction} {machine : Machine} {console : Console}
  (hop : i.operation? = some .read)
include hop

theorem execute_of_integer {value : Int32} (h : console.nextToken.1.integer = .ok value)
    (hi : i.first.toNat < 16) :
    machine.execute i console =
      ⟨.ok (.goTo machine.nextPc), (machine.setRegister i.first value hi).retire .console,
        console.nextToken.2, []⟩ := by
  have hc : machine.converse .read i console = (.ok value, console.nextToken.2) := by
    rw [converse_read, h]
    rfl
  exact execute_eq_of_effect hop hc (machine.writeRegister_of_lt hi value)

-- Where no integer is delivered, the token is used up and nothing else is done.
theorem execute_of_no_integer {cause : InputFault}
    (h : console.nextToken.1.integer = .error cause) :
    machine.execute i console =
      ⟨.error (.input cause), machine, console.nextToken.2, []⟩ := by
  have hc : machine.converse .read i console = (.error (.input cause), console.nextToken.2) := by
    rw [converse_read, h]
    rfl
  rw [execute_eq_transact]
  simp only [transact, hop, hc]

end Read

end Machine

namespace Simulator

-- The next step executes this instruction, on this machine with this console.
structure Faces (simulator : Simulator) (i : Instruction) (machine : Machine)
    (console : Console) : Prop where
  fetched : simulator.fetch = .ok i
  machine : simulator.machine = machine
  console : simulator.console = console

section Step

variable {simulator : Simulator} {i : Instruction} {machine after : Machine}
  {console rest : Console} {events : List Log.Event} (h : simulator.Faces i machine console)
include h

theorem step_of_execute_error {fault : Fault}
    (hx : machine.execute i console = ⟨.error fault, after, rest, events⟩) :
    simulator.step.result = .error fault ∧
      simulator.step.simulator = { simulator with machine := after, console := rest } := by
  rw [step, isAtEnd_of_fetch h.fetched, if_neg (by decide), h.fetched]
  simp only [execute, h.machine, h.console, hx, and_self]

theorem step_of_execute_goTo {pc : UInt32}
    (hx : machine.execute i console = ⟨.ok (.goTo pc), after, rest, events⟩) :
    (∃ status?, simulator.step.result = .ok status?) ∧
      simulator.step.simulator =
        { simulator with machine := { after with pc }, console := rest } := by
  rw [step, isAtEnd_of_fetch h.fetched, if_neg (by decide), h.fetched]
  simp only [execute, h.machine, h.console, hx]
  exact ⟨⟨_, rfl⟩, rfl⟩

end Step

end Simulator

-- A read into a general register accepts just the tokens that stand for an integer with a word.
-- Then the register holds this word, and nothing else is changed but the place in the input, the
-- program counter and the tally. With any other token it fails and leaves the machine alone. The
-- token is used up in either case, and what is read next is the delivery behind it.
theorem read_accepts_words (machine : Machine) (console : Console) (i : Instruction)
    (token : String) (hop : i.operation? = some .read) (hi : i.first.toNat < 16)
    (ht : console.nextToken.1 = .token token) :
    let execution := machine.execute i console
    let rest := console.nextToken.2
    ((∃ flow, execution.result = .ok flow) ↔ ∃ value, Console.Spells token value) ∧
    (∀ value, Console.Spells token value → ∃ word : Int32, word.toInt = value ∧
      let after := (machine.setRegister i.first word hi).retire .console
      after.readRegister i.first = .ok word ∧
      execution = ⟨.ok (.goTo machine.nextPc), after, rest, []⟩ ∧
      ∀ simulator : Simulator, simulator.Faces i machine console →
        (∃ status?, simulator.step.result = .ok status?) ∧
        simulator.step.simulator =
          { simulator with machine := { after with pc := machine.nextPc }, console := rest }) ∧
    ((¬ ∃ value, Console.Spells token value) → ∃ cause,
      let fault := Fault.input (.notInteger token cause)
      execution = ⟨.error fault, machine, rest, []⟩ ∧
      ∀ simulator : Simulator, simulator.Faces i machine console →
        simulator.step.result = .error fault ∧
        simulator.step.simulator = { simulator with console := rest }) ∧
    execution.console = rest ∧ rest.sink = console.sink ∧
    console.remaining = .token token :: rest.remaining ∧
    rest.nextToken.1 = console.remaining[1]?.getD .endOfInput := by
  intro execution rest
  have haccepted (value : Int) (h : Console.Spells token value) :
      execution = ⟨.ok (.goTo machine.nextPc),
        (machine.setRegister i.first (Int32.ofInt value) hi).retire .console, rest, []⟩ := by
    apply Machine.execute_of_integer hop
    rw [ht]
    exact Console.integer_of_spells h
  have hrefused (h : ¬ ∃ value, Console.Spells token value) : ∃ cause,
      execution = ⟨.error (.input (.notInteger token cause)), machine, rest, []⟩ := by
    obtain ⟨cause, hcause⟩ := Console.integer_of_not_spells (not_exists.mp h)
    refine ⟨cause, Machine.execute_of_no_integer hop ?_⟩
    rw [ht]
    exact hcause
  have hremaining := Console.remaining_of_token ht
  refine ⟨⟨?_, ?_⟩, ?_, ?_, ?_, console.sink_nextToken, hremaining, ?_⟩
  · rintro ⟨flow, hflow⟩
    apply Classical.byContradiction
    intro hnot
    obtain ⟨cause, hx⟩ := hrefused hnot
    rw [hx] at hflow
    cases hflow
  · rintro ⟨value, h⟩
    exact ⟨_, congrArg Execution.result (haccepted value h)⟩
  · intro value h
    refine ⟨Int32.ofInt value, Console.toInt_of_spells h, ?_, haccepted value h, ?_⟩
    · rw [Machine.readRegister_of_lt _ hi]
      exact congrArg Except.ok ((machine.general_setRegister hi _ _).trans (if_pos rfl))
    · intro simulator hfaces
      exact Simulator.step_of_execute_goTo hfaces (haccepted value h)
  · intro h
    obtain ⟨cause, hx⟩ := hrefused h
    refine ⟨cause, hx, ?_⟩
    intro simulator hfaces
    obtain ⟨hresult, hafter⟩ := Simulator.step_of_execute_error hfaces hx
    obtain ⟨-, rfl, -⟩ := hfaces
    exact ⟨hresult, hafter⟩
  · by_cases h : ∃ value, Console.Spells token value
    · obtain ⟨value, h⟩ := h
      exact congrArg Execution.console (haccepted value h)
    · obtain ⟨cause, hx⟩ := hrefused h
      exact congrArg Execution.console hx
  · rw [rest.nextToken_eq.1, hremaining]
    cases rest.remaining with
    | nil => rfl
    | cons delivery deliveries => rfl

-- The least integer with a word is read from behind its zeros, and a sign alone is not.
theorem least_word_is_read :
    let read := Instruction.assemble .read 3 0 0
    let execution :=
      (Machine.reset 64 .strict).execute read ⟨["-002147483648", "+"], [], .unlimited⟩
    let next := execution.machine.execute read execution.console
    (∃ flow, execution.result = .ok flow) ∧
    execution.machine.readRegister 3 = .ok (-0x80000000) ∧
    execution.console.nextToken.1 = .token "+" ∧
    (∃ cause, next.result = .error (.input (.notInteger "+" cause))) ∧
    next.machine = execution.machine := by
  intro read execution next
  have hdigits : "002147483648".toList.all Char.isDigit = true := rfl
  have hnumeral : Decimal.IsNumeral "002147483648".toList := ⟨nofun, List.all_eq_true.mp hdigits⟩
  have hspells : Console.Spells "-002147483648" (-0x80000000) :=
    ⟨.minus _ hnumeral, by decide, by decide⟩
  have hsign : ¬ ∃ value, Console.Spells "+" value := by
    rintro ⟨value, hdenotes, -⟩
    generalize htext : "+".toList = text at hdenotes
    cases hdenotes with
    | unsigned digits hnumeral =>
      subst htext
      exact absurd (hnumeral.2 '+' (by decide)) (by decide)
    | plus digits hnumeral =>
      cases htext
      exact hnumeral.1 rfl
    | minus digits hnumeral => cases htext
  obtain ⟨hiff, haccepted, -, -, -, -, hnext⟩ :=
    read_accepts_words (Machine.reset 64 .strict) ⟨["-002147483648", "+"], [], .unlimited⟩ read
      "-002147483648" rfl (by decide) rfl
  obtain ⟨word, hword, hregister, hexecution, -⟩ := haccepted _ hspells
  obtain ⟨-, -, hrefused, -⟩ :=
    read_accepts_words execution.machine execution.console read "+" rfl (by decide) hnext
  obtain ⟨cause, hfault, -⟩ := hrefused hsign
  have hleast : word = -0x80000000 := Int32.toInt_inj.mp hword
  subst hleast
  refine ⟨hiff.mpr ⟨_, hspells⟩, ?_, hnext, ⟨cause, congrArg Execution.result hfault⟩, ?_⟩
  · exact (congrArg (fun done => done.machine.readRegister 3) hexecution).trans hregister
  · exact (congrArg Execution.machine hfault).trans rfl

end WordMachine
