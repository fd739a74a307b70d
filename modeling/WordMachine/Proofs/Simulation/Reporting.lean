import WordMachine.Proofs.Execution.Atomicity
import WordMachine.Proofs.Tally.Account

namespace WordMachine

-- A call, a return, or a return at the top of the stack.
def Log.Event.isTransfer : Log.Event → Bool
  | .called .. | .returned .. | .topLevelReturn _ => true
  | _ => false

-- One for an instruction that has failed. A program counter without an instruction is no such
-- failure.
def failures : Except Fault α → Nat
  | .ok _ | .error (.outsideProgram ..) => 0
  | .error _ => 1

theorem failures_of_faulted {i : Instruction} {machine : Machine} {console after : Console}
    {fault : Fault} (h : machine.Faulted i console fault after) :
    failures (.error fault : Except Fault α) = 1 := by
  cases h <;> rfl

-- All that the log says about a completed instruction of this category. A call comes back to the
-- instruction behind it.
inductive Category.Reports : Category → List Log.Event → Prop where
  | skipped (opcode : UInt8) (pc : UInt32) : Reports .unknown [.skipped opcode pc]
  | called (pc target : UInt32) : Reports .call [.called pc target (pc + 4)]
  | returned (pc returnTo : UInt32) : Reports .call [.returned pc returnTo]
  | halted (pc : UInt32) : Reports .call [.topLevelReturn pc]
  | nothing (category : Category) (hcall : .call ≠ category) (hunknown : .unknown ≠ category) :
      Reports category []

namespace Completion

-- What the log says about a completed instruction.
def announced (completion : Completion) : List Log.Event :=
  match completion.operation? with
  | none => [.skipped completion.instruction.opcode completion.machine.pc]
  | some op =>
    completion.machine.announce op (completion.machine.flow op completion.instruction)

theorem reports_announced (completion : Completion) :
    completion.category.Reports completion.announced := by
  unfold category announced
  cases completion.operation? with
  | none => exact .skipped _ _
  | some op =>
    cases op with
    | call => exact .called _ _
    | ret =>
      simp only [Machine.announce]
      cases completion.machine.flow .ret completion.instruction with
      | goTo pc => exact .returned _ _
      | halt => exact .halted _
    | _ =>
      apply Category.Reports.nothing
      · intro h
        cases h
      · intro h
        cases h

-- Calls and returns are announced once each, and so are the words that were skipped.
theorem countP_isTransfer_announced (completion : Completion) :
    completion.announced.countP (·.isTransfer) = if .call = completion.category then 1 else 0 := by
  have hreports := completion.reports_announced
  generalize completion.announced = events, completion.category = category at hreports
  cases hreports with
  | nothing _ hcall hunknown => rw [if_neg hcall, List.countP_nil]
  | _ => rfl

theorem countP_warn_announced (completion : Completion) :
    completion.announced.countP (·.level = .warn) =
      if .unknown = completion.category then 1 else 0 := by
  have hreports := completion.reports_announced
  generalize completion.announced = events, completion.category = category at hreports
  cases hreports with
  | nothing _ hcall hunknown => rw [if_neg hunknown, List.countP_nil]
  | _ => rfl

section Announced

variable {completion : Completion} {event : Log.Event} (h : event ∈ completion.announced)
include h

theorem level_of_mem_announced :
    (event.level = .debug ∧ event.isTransfer = true) ∨
      (event.level = .warn ∧ event.isTransfer = false) := by
  have hreports := completion.reports_announced
  generalize completion.announced = events, completion.category = category at h hreports
  cases hreports with
  | nothing => cases h
  | skipped =>
    rw [List.mem_singleton.mp h]
    exact .inr ⟨rfl, rfl⟩
  | called | returned | halted =>
    rw [List.mem_singleton.mp h]
    exact .inl ⟨rfl, rfl⟩

theorem returnTo_of_mem_announced {pc target returnTo : UInt32}
    (hc : event = .called pc target returnTo) : returnTo = pc + 4 := by
  have hreports := completion.reports_announced
  generalize completion.announced = events, completion.category = category at h hreports
  cases hreports with
  | nothing => cases h
  | skipped | returned | halted => cases hc.symm.trans (List.mem_singleton.mp h)
  | called =>
    cases hc.symm.trans (List.mem_singleton.mp h)
    rfl

end Announced

end Completion

namespace Machine

-- What an instruction reports that completes.
theorem events_execute (i : Instruction) (machine : Machine) (console : Console) :
    (machine.execute i console).events =
      match (machine.execute i console).result with
      | .ok _ => Completion.announced ⟨i, machine⟩
      | .error _ => [] := by
  rw [execute_eq_transact]
  unfold transact Completion.announced Completion.operation?
  cases i.operation? with
  | none => cases machine.policy <;> rfl
  | some op =>
    rcases hc : machine.converse op i console with ⟨⟨fault⟩ | ⟨delivered⟩, after⟩
    · simp only [hc]
    · simp only [hc]
      cases machine.effect op i delivered with
      | error fault | ok final => rfl

-- The log has a return at the top of the stack just where the program halts.
theorem topLevelReturn_mem_announced_iff {i : Instruction} {machine after : Machine}
    {console rest : Console} {flow : Flow} (h : machine.Completes i console flow after rest) :
    (∃ pc, Log.Event.topLevelReturn pc ∈ Completion.announced ⟨i, machine⟩) ↔ flow = .halt := by
  cases h with
  | skipped hop hp =>
    have hannounced : Completion.announced ⟨i, machine⟩ = [.skipped i.opcode machine.pc] := by
      simp only [Completion.announced, Completion.operation?, hop]
    rw [hannounced]
    simp
  | done op delivered final rest hop hc he =>
    have hannounced : Completion.announced ⟨i, machine⟩ =
        machine.announce op (machine.flow op i) := by
      simp only [Completion.announced, Completion.operation?, hop]
    rw [hannounced]
    constructor
    · rintro ⟨pc, hmem⟩
      cases op with
      | ret =>
        cases hflow : machine.flow .ret i with
        | halt => rfl
        | goTo returnTo => simp [announce, hflow] at hmem
      | call => simp [announce, flow] at hmem
      | _ => cases hmem
    · intro hflow
      obtain ⟨rfl, -⟩ := flow_eq_halt_iff.mp hflow
      rw [hflow]
      exact ⟨machine.pc, List.mem_singleton_self _⟩

end Machine

namespace Simulator

-- The instruction that the next step fetches, with its address.
def fetched? (simulator : Simulator) : Option (UInt32 × Instruction) :=
  match simulator.fetch with
  | .ok i => some (simulator.machine.pc, i)
  | .error _ => none

-- What some calls of `step` have fetched, in this order.
def fetches (simulator : Simulator) : Nat → List (UInt32 × Instruction)
  | 0 => []
  | count + 1 => simulator.fetches count ++ (simulator.after count).fetched?.toList

-- The events of what was fetched, where it is traced.
def traces (simulator : Simulator) (fetches : List (UInt32 × Instruction)) : List Log.Event :=
  if simulator.traced then fetches.map fun fetched => .fetched fetched.1 fetched.2 else []

theorem fetched?_of_isAtEnd {simulator : Simulator} (h : simulator.isAtEnd = true) :
    simulator.fetched? = none := by
  cases hf : simulator.fetch with
  | error fault => simp only [fetched?, hf]
  | ok i => simp [isAtEnd_of_fetch hf] at h

-- A step reports what it fetches before it executes it, and the rest where it completes it.
theorem events_step (simulator : Simulator) :
    simulator.step.events =
      simulator.traces simulator.fetched?.toList ++
        simulator.completion?.toList.flatMap Completion.announced := by
  have hnothing : simulator.traces [] = [] := by
    unfold traces
    split <;> rfl
  unfold step
  cases he : simulator.isAtEnd with
  | true =>
    rw [fetched?_of_isAtEnd he, completion?_of_isAtEnd he, Option.toList_none, hnothing]
    rfl
  | false =>
    simp only [Bool.false_eq_true, ite_false]
    cases hf : simulator.fetch with
    | error fault =>
      simp only [fetched?, completion?, hf, Option.toList_none, hnothing]
      rfl
    | ok i =>
      have hevents : (simulator.execute i).events =
          match (simulator.execute i).result with
          | .ok _ => Completion.announced ⟨i, simulator.machine⟩
          | .error _ => [] := simulator.machine.events_execute i simulator.console
      simp only [fetched?, completion?, hf, hevents]
      cases (simulator.execute i).result with
      | error fault => rfl
      | ok flow =>
        cases flow with
        | halt | goTo pc => simp [traces]

theorem traces_append (simulator : Simulator) (few more : List (UInt32 × Instruction)) :
    simulator.traces (few ++ more) = simulator.traces few ++ simulator.traces more := by
  unfold traces
  cases simulator.traced with
  | true => exact List.map_append
  | false => rfl

theorem mem_traces {simulator : Simulator} {fetches : List (UInt32 × Instruction)}
    {event : Log.Event} (h : event ∈ simulator.traces fetches) : ∃ pc i, event = .fetched pc i := by
  unfold traces at h
  cases ht : simulator.traced with
  | true =>
    rw [ht, if_pos rfl, List.mem_map] at h
    obtain ⟨fetched, -, rfl⟩ := h
    exact ⟨_, _, rfl⟩
  | false => simp [ht] at h

theorem traces_after (simulator : Simulator) (count : Nat)
    (fetches : List (UInt32 × Instruction)) :
    (simulator.after count).traces fetches = simulator.traces fetches := by
  obtain ⟨machine, console, hafter⟩ := simulator.exists_after_eq count
  rw [hafter]
  rfl

section Log

variable {kind : Log.Event → Bool} (simulator : Simulator) (count : Nat)

-- Apart from what is fetched, the log has what was announced.
theorem filter_log (hk : ∀ pc i, kind (.fetched pc i) = false) :
    (simulator.log count).filter kind =
      ((simulator.completions count).flatMap Completion.announced).filter kind := by
  induction count with
  | zero => rfl
  | succ count ih =>
    have htraces : ((simulator.after count).traces
        (simulator.after count).fetched?.toList).filter kind = [] := by
      rw [List.filter_eq_nil_iff]
      intro event hevent
      obtain ⟨pc, i, rfl⟩ := mem_traces hevent
      simp [hk]
    rw [log, completions, events_step, List.filter_append, List.filter_append, ih, htraces,
      List.nil_append, List.flatMap_append, List.filter_append]

theorem countP_log {category : Category} (hk : ∀ pc i, kind (.fetched pc i) = false)
    (hc : ∀ completion : Completion,
      completion.announced.countP kind = if category = completion.category then 1 else 0) :
    (simulator.log count).countP kind = category.among (simulator.completions count) := by
  rw [List.countP_eq_length_filter, filter_log simulator count hk, ← List.countP_eq_length_filter]
  induction simulator.completions count with
  | nil => rfl
  | cons completion past ih =>
    rw [List.flatMap_cons, List.countP_append, ih, hc, Category.among, Category.among,
      List.countP_cons, completion.covers_eq, Nat.add_comm]
    simp only [decide_eq_true_eq]

theorem filter_trace_log :
    (simulator.log count).filter (·.level = .trace) =
      simulator.traces (simulator.fetches count) := by
  induction count with
  | zero =>
    unfold traces
    cases simulator.traced <;> rfl
  | succ count ih =>
    have htraces : (simulator.traces (simulator.after count).fetched?.toList).filter
        (·.level = .trace) = simulator.traces (simulator.after count).fetched?.toList := by
      rw [List.filter_eq_self]
      intro event hevent
      obtain ⟨pc, i, rfl⟩ := mem_traces hevent
      rfl
    have hannounced : ((simulator.after count).completion?.toList.flatMap
        Completion.announced).filter (·.level = .trace) = [] := by
      rw [List.filter_eq_nil_iff]
      intro event hevent
      obtain ⟨completion, -, hmem⟩ := List.mem_flatMap.mp hevent
      rcases Completion.level_of_mem_announced hmem with ⟨hlevel, -⟩ | ⟨hlevel, -⟩ <;>
        simp [hlevel]
    rw [log, fetches, events_step, traces_after, traces_append, List.filter_append,
      List.filter_append, ih, htraces, hannounced, List.append_nil]

end Log

-- Each instruction that is fetched is completed, or it fails.
theorem length_fetched? (simulator : Simulator) :
    simulator.fetched?.toList.length =
      simulator.completion?.toList.length + failures simulator.step.result := by
  have hsteps := simulator.steps_step
  generalize simulator.step.simulator = after at hsteps
  generalize simulator.step.result = result at hsteps ⊢
  cases hsteps with
  | ended he =>
    rw [fetched?_of_isAtEnd he, completion?_of_isAtEnd he]
    rfl
  | lost he hf =>
    simp only [fetched?, completion?, hf]
    rfl
  | faulted i fault he hf hx =>
    have hfaulted := Machine.faulted_of_fails (Machine.fails_of_execute hx).2
    simp only [fetched?, completion?, hf, hx, failures_of_faulted hfaulted]
    rfl
  | halted i he hf hx | moved i pc he hf hx =>
    simp only [fetched?, completion?, hf, hx]
    rfl

theorem length_fetches {simulator : Simulator} {count : Nat} (h : simulator.Continues count) :
    (simulator.fetches count).length = (simulator.completions count).length := by
  induction count with
  | zero => rfl
  | succ count ih =>
    have hlast := (simulator.after count).length_fetched?
    rw [h count (Nat.lt_succ_self count)] at hlast
    rw [fetches, completions, List.length_append, List.length_append, hlast,
      ih (continues_of_le (Nat.le_succ count) h)]
    rfl

theorem topLevelReturn_mem_step_iff (simulator : Simulator) :
    (∃ pc, Log.Event.topLevelReturn pc ∈ simulator.step.events) ↔
      simulator.step.result = .ok (some .halted) := by
  have htraces (pc : UInt32) :
      Log.Event.topLevelReturn pc ∉ simulator.traces simulator.fetched?.toList := by
    intro hmem
    obtain ⟨_, _, hevent⟩ := mem_traces hmem
    cases hevent
  simp only [events_step, List.mem_append, htraces, false_or]
  have hsteps := simulator.steps_step
  generalize simulator.step.simulator = after at hsteps
  generalize simulator.step.result = result at hsteps ⊢
  cases hsteps with
  | ended he =>
    rw [completion?_of_isAtEnd he]
    simp
  | lost he hf =>
    simp [completion?, hf]
  | faulted i fault he hf hx =>
    simp [completion?, hf, hx]
  | halted i he hf hx =>
    have hiff := Machine.topLevelReturn_mem_announced_iff (Machine.completes_of_execute hx)
    simpa [completion?, hf, hx] using hiff
  | moved i pc he hf hx =>
    have hiff := Machine.topLevelReturn_mem_announced_iff (Machine.completes_of_execute hx)
    simp only [completion?, hf, hx]
    split <;> simpa using hiff

theorem mem_log {simulator : Simulator} {count : Nat} {event : Log.Event}
    (h : event ∈ simulator.log count) :
    ∃ earlier < count, event ∈ (simulator.after earlier).step.events := by
  induction count with
  | zero => cases h
  | succ count ih =>
    rw [log, List.mem_append] at h
    rcases h with h | h
    · obtain ⟨earlier, he, hmem⟩ := ih h
      exact ⟨earlier, Nat.lt_succ_of_lt he, hmem⟩
    · exact ⟨count, Nat.lt_succ_self count, h⟩

theorem fetched_or_announced {simulator : Simulator} {count : Nat} {event : Log.Event}
    (h : event ∈ simulator.log count) :
    (∃ pc i, event = .fetched pc i) ∨ ∃ completion : Completion, event ∈ completion.announced := by
  obtain ⟨earlier, -, hmem⟩ := mem_log h
  rw [events_step, List.mem_append] at hmem
  rcases hmem with hmem | hmem
  · exact .inl (mem_traces hmem)
  · obtain ⟨completion, -, hmem⟩ := List.mem_flatMap.mp hmem
    exact .inr ⟨completion, hmem⟩

theorem filter_info_log (simulator : Simulator) (count : Nat) :
    (simulator.log count).filter (·.level = .info) = [] := by
  rw [List.filter_eq_nil_iff]
  intro event hevent
  rcases fetched_or_announced hevent with ⟨pc, i, rfl⟩ | ⟨completion, hmem⟩
  · simp [Log.Event.level]
  · rcases Completion.level_of_mem_announced hmem with ⟨hlevel, -⟩ | ⟨hlevel, -⟩ <;> simp [hlevel]

-- The calls and returns are all that a run reports in detail.
theorem level_eq_debug_iff {simulator : Simulator} {count : Nat} {event : Log.Event}
    (h : event ∈ simulator.log count) : event.level = .debug ↔ event.isTransfer = true := by
  rcases fetched_or_announced h with ⟨pc, i, rfl⟩ | ⟨completion, hmem⟩
  · simp [Log.Event.level, Log.Event.isTransfer]
  · rcases Completion.level_of_mem_announced hmem with ⟨hlevel, ht⟩ | ⟨hlevel, ht⟩ <;>
      simp [hlevel, ht]

theorem topLevelReturn_notMem_log {simulator : Simulator} {count : Nat}
    (h : simulator.Continues count) (pc : UInt32) :
    Log.Event.topLevelReturn pc ∉ simulator.log count := by
  intro hmem
  obtain ⟨earlier, he, hmem⟩ := mem_log hmem
  have hhalted := (simulator.after earlier).topLevelReturn_mem_step_iff.mp ⟨pc, hmem⟩
  rw [h earlier he] at hhalted
  cases hhalted

theorem failures_of_verdict? {result : Except Fault (Option Status)}
    {verdict : Except Fault Status} (h : verdict? result = some verdict) :
    failures result = failures verdict := by
  rcases result with fault | (_ | status)
  · cases h
    cases fault <;> rfl
  · cases h
  · cases h
    rfl

theorem ne_halted_of_interruption? {simulator : Simulator} {status : Status}
    (h : simulator.interruption? = some status) : status ≠ .halted := by
  rintro rfl
  unfold interruption? at h
  cases hc : simulator.cancelled with
  | true => simp [hc] at h
  | false =>
    cases hl : simulator.limit with
    | none => simp [hc, hl] at h
    | some limit => simp [hc, hl] at h

-- A run is some steps and a result. Only the last step may have failed, and only it may have
-- halted the program.
theorem exists_conclude_of_run? {simulator : Simulator} {fuel : Nat} {outcome : Outcome Status}
    (h : simulator.run? fuel = some outcome) :
    ∃ steps result,
      outcome = conclude (simulator.after steps) (simulator.log steps) result ∧
      simulator.Continues (steps - 1) ∧
      (simulator.fetches steps).length =
        (simulator.completions steps).length + failures result ∧
      ((∃ pc, Log.Event.topLevelReturn pc ∈ simulator.log steps) ↔ result = .ok .halted) := by
  have hruns := simulator.runs_run? fuel
  rw [h] at hruns
  cases hruns with
  | interrupted count status hf hgoes hi =>
    have hcontinues : simulator.Continues count := fun earlier he => (hgoes earlier he).2
    refine ⟨count, .ok status, rfl, continues_of_le (Nat.sub_le count 1) hcontinues,
      length_fetches hcontinues, ?_⟩
    have hne := ne_halted_of_interruption? hi
    simp [topLevelReturn_notMem_log hcontinues, hne]
  | stopped count result hf hgoes hi hl =>
    have hcontinues : simulator.Continues count := fun earlier he => (hgoes earlier he).2
    refine ⟨count + 1, result, rfl, hcontinues, ?_, ?_⟩
    · rw [fetches, completions, List.length_append, List.length_append,
        length_fetches hcontinues, length_fetched?, failures_of_verdict? hl, Nat.add_assoc]
    · simp only [log, List.mem_append, topLevelReturn_notMem_log hcontinues, false_or]
      rw [topLevelReturn_mem_step_iff, ← verdict?_eq_ok_iff, hl, Option.some.injEq]

-- The message of what is fetched: the instruction at its address.
def tracedLine (fetched : UInt32 × Instruction) : String :=
  Text.hexLiteral 4 fetched.1.toNat ++ ": " ++ fetched.2.assembly

theorem length_traces (simulator : Simulator) (fetches : List (UInt32 × Instruction)) :
    (simulator.traces fetches).length = if simulator.traced then fetches.length else 0 := by
  unfold traces
  cases simulator.traced with
  | true => exact List.length_map _
  | false => rfl

theorem message_traces (simulator : Simulator) (fetches : List (UInt32 × Instruction)) :
    (simulator.traces fetches).map Log.Event.message =
      if simulator.traced then fetches.map tracedLine else [] := by
  unfold traces
  cases simulator.traced with
  | true =>
    simp only [if_true, List.map_map]
    rfl
  | false => rfl

section Conclude

variable (simulator : Simulator) (past : List Log.Event) (result : Except Fault Status)

theorem filter_conclude {kind : Log.Event → Bool}
    (hk : ∀ status instructions, kind (.finished status instructions) = false) :
    (conclude simulator past result).events.filter kind = past.filter kind := by
  unfold conclude
  cases result with
  | error fault => rfl
  | ok status => simp [hk]

theorem countP_conclude {kind : Log.Event → Bool}
    (hk : ∀ status instructions, kind (.finished status instructions) = false) :
    (conclude simulator past result).events.countP kind = past.countP kind := by
  rw [List.countP_eq_length_filter, filter_conclude _ _ _ hk, ← List.countP_eq_length_filter]

theorem mem_conclude {event : Log.Event} :
    event ∈ (conclude simulator past result).events ↔
      event ∈ past ∨ ∃ status, result = .ok status ∧
        event = .finished status simulator.machine.tally.retired := by
  unfold conclude
  cases result with
  | error fault => simp
  | ok status => simp

end Conclude

-- The log of a run from the reset on agrees with what the run has done and counted. Where it is
-- traced, there is a line for each instruction that was fetched, the one included that has failed
-- at last, and no other. There is one event for each call and each return that was counted, one
-- warning for each word that was skipped, and one last event where the run has a status.
theorem log_agrees_with_run (program : List Instruction) (configuration : Configuration)
    (console : Console) {fuel : Nat} {outcome : Outcome Status}
    (h : (ofProgram program configuration console).run? fuel = some outcome) :
    let start := ofProgram program configuration console
    let tally := outcome.simulator.machine.tally
    (∃ steps, outcome.simulator = start.after steps ∧ start.Continues (steps - 1) ∧
      (outcome.events.filter (·.level = .trace)).map Log.Event.message =
        if configuration.traced then (start.fetches steps).map tracedLine else []) ∧
    outcome.events.countP (·.level = .trace) =
      (if configuration.traced then tally.retired + failures outcome.result else 0) ∧
    outcome.events.countP (·.isTransfer) = tally.call ∧
    (∀ event ∈ outcome.events, event.level = .debug ↔ event.isTransfer = true) ∧
    (∀ pc target returnTo, .called pc target returnTo ∈ outcome.events → returnTo = pc + 4) ∧
    ((∃ pc, .topLevelReturn pc ∈ outcome.events) ↔ outcome.result = .ok .halted) ∧
    outcome.events.countP (·.level = .warn) = tally.unknown ∧
    outcome.events.filter (·.level = .info) =
      match outcome.result with
      | .ok status => [.finished status tally.retired]
      | .error _ => [] := by
  intro start tally
  obtain ⟨steps, result, rfl, hcontinues, hlength, hreturn⟩ := exists_conclude_of_run? h
  have haccounts : tally.Accounts (start.completions steps) :=
    accounts_of_reaches rfl (start.reaches_after steps)
  refine ⟨⟨steps, rfl, hcontinues, ?_⟩, ?_, ?_, ?_, ?_, ?_, ?_, ?_⟩
  · rw [filter_conclude _ _ _ fun _ _ => rfl, filter_trace_log, message_traces]
    rfl
  · rw [countP_conclude _ _ _ fun _ _ => rfl, List.countP_eq_length_filter, filter_trace_log,
      length_traces, hlength, ← haccounts.retired]
    rfl
  · rw [countP_conclude _ _ _ fun _ _ => rfl,
      countP_log start steps (fun _ _ => rfl) Completion.countP_isTransfer_announced]
    exact (haccounts.count .call).symm
  · intro event hmem
    rcases (mem_conclude _ _ _).mp hmem with hmem | ⟨status, -, rfl⟩
    · exact level_eq_debug_iff hmem
    · simp [Log.Event.level, Log.Event.isTransfer]
  · intro pc target returnTo hmem
    rcases (mem_conclude _ _ _).mp hmem with hmem | ⟨status, -, hevent⟩
    · rcases fetched_or_announced hmem with ⟨_, _, hevent⟩ | ⟨completion, hannounced⟩
      · cases hevent
      · exact Completion.returnTo_of_mem_announced hannounced rfl
    · cases hevent
  · show _ ↔ result = .ok .halted
    simpa [mem_conclude] using hreturn
  · rw [countP_conclude _ _ _ fun _ _ => rfl,
      countP_log start steps (fun _ _ => rfl) Completion.countP_warn_announced]
    exact (haccounts.count .unknown).symm
  · have hnone := start.filter_info_log steps
    cases result with
    | error fault => exact hnone
    | ok status =>
      show List.filter _ (start.log steps ++ [.finished status tally.retired]) = _
      rw [List.filter_append, hnone]
      rfl

-- A program that calls what is behind the call, skips a word, returns to it and then from the top.
def detour : Simulator :=
  .ofProgram [.assemble .call 0 0 0, .decode 0xF0000000, .assemble .ret 0 0 0]
    { Configuration.default with policy := .lenient, traced := true } (.ofInput [] .unlimited)

theorem detour_is_logged :
    ∃ outcome, detour.run? 5 = some outcome ∧
      outcome.events.countP (·.level = .trace) = 5 ∧
      outcome.events.countP (·.isTransfer) = 3 ∧
      (∃ pc, .topLevelReturn pc ∈ outcome.events) ∧
      outcome.events.countP (·.level = .warn) = 2 ∧
      outcome.events.filter (·.level = .info) = [.finished .halted 5] := by
  have hends : (detour.run? 5).isSome = true := rfl
  have hrun : detour.run? 5 = some ((detour.run? 5).get hends) := (Option.some_get hends).symm
  obtain ⟨-, htrace, htransfer, -, -, hreturn, hwarn, hinfo⟩ := log_agrees_with_run _ _ _ hrun
  exact ⟨_, hrun, htrace, htransfer, hreturn.mpr rfl, hwarn, hinfo⟩

end Simulator

end WordMachine
