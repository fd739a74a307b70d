import WordMachine.Proofs.Execution.Output
import WordMachine.Proofs.Simulation.Mirror
import WordMachine.Proofs.Simulation.Running
import WordMachine.Proofs.Tally.Entry

namespace WordMachine.Simulator

-- The first steps are neither the last ones nor do they fail.
def Continues (simulator : Simulator) (count : Nat) : Prop :=
  ∀ earlier < count, (simulator.after earlier).step.result = .ok none

-- The step after `count` others is the first one that gives a status or a fault.
structure Stops (simulator : Simulator) (count : Nat) (result : Except Fault Status) : Prop where
  continues : simulator.Continues count
  verdict : verdict? (simulator.after count).step.result = some result

-- The same simulator with a limit of its own.
def limitedTo (simulator : Simulator) (limit : UInt64) : Simulator :=
  { simulator with limit := some limit }

-- A step changes the machine and the console only.
theorem exists_step_eq (simulator : Simulator) :
    ∃ machine console, simulator.step.simulator = { simulator with machine, console } := by
  have hsteps := simulator.steps_step
  generalize simulator.step.simulator = after at hsteps ⊢
  generalize simulator.step.result = result at hsteps
  cases hsteps with
  | ended | lost => exact ⟨simulator.machine, simulator.console, rfl⟩
  | faulted | halted | moved => exact ⟨_, _, rfl⟩

theorem exists_after_eq (simulator : Simulator) (count : Nat) :
    ∃ machine console, simulator.after count = { simulator with machine, console } := by
  induction count with
  | zero => exact ⟨simulator.machine, simulator.console, rfl⟩
  | succ count ih =>
    obtain ⟨machine, console, hafter⟩ := ih
    obtain ⟨machine, console, hstep⟩ := (simulator.after count).exists_step_eq
    exact ⟨machine, console, by rw [after, hstep, hafter]⟩

-- A step does not look at the limit.
theorem mirrorsStep_limitedTo (simulator : Simulator) (limit : UInt64) :
    MirrorsStep (·.limitedTo limit) simulator :=
  mirrorsStep_of_execute ⟨fun _ => rfl, fun _ _ => rfl⟩ (fun _ hf => hf)
    fun i hf => ⟨i, hf, rfl, rfl⟩

theorem after_limitedTo (simulator : Simulator) (limit : UInt64) (count : Nat) :
    (simulator.limitedTo limit).after count = (simulator.after count).limitedTo limit :=
  after_mirror fun _ _ => mirrorsStep_limitedTo _ limit

-- The statuses of a step. The others are those of an interruption.
theorem status_of_step {simulator : Simulator} {status : Status}
    (h : simulator.step.result = .ok (some status)) :
    status = .endOfProgram ∨ status = .halted := by
  have hsteps := simulator.steps_step
  rw [h] at hsteps
  generalize simulator.step.simulator = after at hsteps
  generalize hr : (Except.ok (some status) : Except Fault (Option Status)) = result at hsteps
  cases hsteps with
  | ended =>
    cases hr
    exact .inl rfl
  | lost | faulted => cases hr
  | halted =>
    cases hr
    exact .inr rfl
  | moved i pc he hf hx =>
    split at hr
    · cases hr
      exact .inl rfl
    · cases hr

theorem status_of_stops {simulator : Simulator} {count : Nat} {status : Status}
    (h : simulator.Stops count (.ok status)) : status = .endOfProgram ∨ status = .halted := by
  have hverdict := h.verdict
  cases hl : (simulator.after count).step.result with
  | error fault => simp [hl, verdict?] at hverdict
  | ok status? =>
    cases status? with
    | none => simp [hl, verdict?] at hverdict
    | some other =>
      simp only [hl, verdict?, Option.some.injEq, Except.ok.injEq] at hverdict
      exact status_of_step (hverdict ▸ hl)

-- Every step that goes on retires one instruction.
theorem retired_step {simulator : Simulator} (h : simulator.step.result = .ok none) :
    simulator.step.simulator.machine.tally.retired = simulator.machine.tally.retired + 1 := by
  obtain ⟨completion, hc⟩ := completion?_of_continues h
  exact (enters_of_completion hc).retired

theorem retired_after {simulator : Simulator} {count : Nat} (h : simulator.Continues count) :
    (simulator.after count).machine.tally.retired = simulator.machine.tally.retired + count := by
  induction count with
  | zero => rfl
  | succ count ih =>
    rw [after, retired_step (h count (Nat.lt_succ_self count)),
      ih fun earlier he => h earlier (Nat.lt_succ_of_lt he)]
    rfl

-- Where no step stops, all of them go on.
theorem continues_of_not_stops {simulator : Simulator} {count : Nat}
    (h : ∀ earlier < count, ∀ result, ¬ simulator.Stops earlier result) :
    simulator.Continues count := by
  induction count with
  | zero => exact nofun
  | succ count ih =>
    have hcontinues := ih fun earlier he => h earlier (Nat.lt_succ_of_lt he)
    intro earlier he
    obtain hlt | rfl : earlier < count ∨ earlier = count := by omega
    · exact hcontinues earlier hlt
    · have hnot := h earlier he
      cases hl : (simulator.after earlier).step.result with
      | error fault => exact absurd ⟨hcontinues, by rw [hl]; rfl⟩ (hnot (.error fault))
      | ok status? =>
        cases status? with
        | none => rfl
        | some status => exact absurd ⟨hcontinues, by rw [hl]; rfl⟩ (hnot (.ok status))

section Limit

variable {simulator : Simulator} {count fuel : Nat} {limit : UInt64}
  {result : Except Fault Status}

-- The limit leaves room for one more instruction after `count` others.
def HasRoom (simulator : Simulator) (count : Nat) : Prop :=
  ∀ limit, simulator.limit = some limit →
    simulator.machine.tally.retired + count < limit.toNat

theorem interruption?_of_hasRoom (hc : simulator.cancelled = false)
    (h : simulator.Continues count) (hroom : simulator.HasRoom count) :
    (simulator.after count).interruption? = none := by
  have hretired := retired_after h
  obtain ⟨machine, console, hafter⟩ := simulator.exists_after_eq count
  rw [hafter] at hretired ⊢
  simp only at hretired
  simp only [interruption?, hc, Bool.false_eq_true, ite_false]
  cases hl : simulator.limit with
  | none => rfl
  | some limit =>
    have hlt := hroom limit hl
    exact if_neg (by omega)

theorem interruption?_of_reached (hc : simulator.cancelled = false)
    (h : simulator.Continues count) (hl : simulator.limit = some limit)
    (hreached : limit.toNat ≤ simulator.machine.tally.retired + count) :
    (simulator.after count).interruption? = some .stepLimit := by
  have hretired := retired_after h
  obtain ⟨machine, console, hafter⟩ := simulator.exists_after_eq count
  rw [hafter] at hretired ⊢
  simp only at hretired
  simp only [interruption?, hc, hl, Bool.false_eq_true, ite_false]
  exact if_pos (by omega)

theorem continues_of_le {few many : Nat} (hle : few ≤ many) (h : simulator.Continues many) :
    simulator.Continues few :=
  fun earlier he => h earlier (Nat.lt_of_lt_of_le he hle)

theorem hasRoom_of_le {few many : Nat} (hle : few ≤ many) (h : simulator.HasRoom many) :
    simulator.HasRoom few := by
  intro limit hl
  have hlt := h limit hl
  omega

theorem goesOn_of_continues (hc : simulator.cancelled = false) (h : simulator.Continues count)
    (hroom : ∀ earlier < count, simulator.HasRoom earlier) : simulator.GoesOn count := by
  intro earlier he
  have hearlier := continues_of_le (Nat.le_of_lt he) h
  exact ⟨interruption?_of_hasRoom hc hearlier (hroom earlier he), h earlier he⟩

-- A run that has room for its last step has the result of that step, once it has come so far.
theorem run?_of_stops (hc : simulator.cancelled = false) (h : simulator.Stops count result)
    (hroom : simulator.HasRoom count) (fuel : Nat) :
    simulator.run? fuel =
      if count < fuel then
        some (conclude (simulator.after (count + 1)) (simulator.log (count + 1)) result)
      else none := by
  have hgoes := goesOn_of_continues hc h.continues
    fun earlier he => hasRoom_of_le (Nat.le_of_lt he) hroom
  by_cases hf : count < fuel
  · rw [if_pos hf]
    exact run?_of_verdict hgoes (interruption?_of_hasRoom hc h.continues hroom) h.verdict hf
  · have hle : fuel ≤ count := by omega
    have hcontinues := continues_of_le hle h.continues
    rw [if_neg hf]
    exact run?_of_goesOn (goesOn_of_le hle hgoes)
      (interruption?_of_hasRoom hc hcontinues (hasRoom_of_le hle hroom))

-- A run that is not over before stops at its limit.
theorem run?_of_reached (hc : simulator.cancelled = false) (hl : simulator.limit = some limit)
    (h : simulator.Continues (limit.toNat - simulator.machine.tally.retired)) (fuel : Nat) :
    let steps := limit.toNat - simulator.machine.tally.retired
    simulator.run? fuel =
      if steps ≤ fuel then
        some (conclude (simulator.after steps) (simulator.log steps) (.ok .stepLimit))
      else none := by
  intro steps
  have hroom (earlier : Nat) (he : earlier < steps) : simulator.HasRoom earlier := by
    intro limit' hl'
    cases hl.symm.trans hl'
    omega
  have hgoes : simulator.GoesOn steps := goesOn_of_continues hc h hroom
  by_cases hf : steps ≤ fuel
  · rw [if_pos hf]
    exact run?_of_interruption hgoes (interruption?_of_reached hc h hl (by omega)) hf
  · have hle : fuel ≤ steps := by omega
    rw [if_neg hf]
    exact run?_of_goesOn (goesOn_of_le hle hgoes)
      (interruption?_of_hasRoom hc (continues_of_le hle h) (hroom fuel (by omega)))

-- A run without a limit and without a last step has no outcome.
theorem run?_of_continues (hc : simulator.cancelled = false) (hl : simulator.limit = none)
    (h : ∀ count, simulator.Continues count) (fuel : Nat) : simulator.run? fuel = none := by
  have hroom (count : Nat) : simulator.HasRoom count := by
    intro limit hlimit
    cases hl.symm.trans hlimit
  have hgoes := goesOn_of_continues hc (h fuel) fun earlier _ => hroom earlier
  exact run?_of_goesOn hgoes (interruption?_of_hasRoom hc (h fuel) (hroom fuel))

-- A limit lets every run come to its end, by a step of its own or by the limit.
theorem exists_run?_of_limit (hc : simulator.cancelled = false)
    (hl : simulator.limit = some limit) :
    ∃ outcome, ∀ fuel, limit.toNat - simulator.machine.tally.retired ≤ fuel →
      simulator.run? fuel = some outcome := by
  by_cases hstops : ∃ count < limit.toNat - simulator.machine.tally.retired,
      ∃ result, simulator.Stops count result
  · obtain ⟨count, hlt, result, hstops⟩ := hstops
    have hroom : simulator.HasRoom count := by
      intro limit' hl'
      cases hl.symm.trans hl'
      omega
    exact ⟨_, fun fuel hf => (run?_of_stops hc hstops hroom fuel).trans (if_pos (by omega))⟩
  · have hcontinues : simulator.Continues (limit.toNat - simulator.machine.tally.retired) := by
      apply continues_of_not_stops
      intro earlier he result hs
      exact hstops ⟨earlier, he, result, hs⟩
    exact ⟨_, fun fuel hf => (run?_of_reached hc hl hcontinues fuel).trans (if_pos hf)⟩

end Limit

-- What does not interrupt a run does not interrupt it with a greater limit.
theorem interruption?_limitedTo_of_le {simulator : Simulator} {limit greater : UInt64}
    (hle : limit ≤ greater) (h : (simulator.limitedTo limit).interruption? = none) :
    (simulator.limitedTo greater).interruption? = none := by
  have hle := UInt64.le_iff_toNat_le.mp hle
  unfold interruption? limitedTo at h ⊢
  cases hc : simulator.cancelled with
  | true => simp [hc] at h
  | false =>
    simp only [hc, Bool.false_eq_true, ite_false] at h ⊢
    by_cases hreached : limit.toNat ≤ simulator.machine.tally.retired
    · simp [hreached] at h
    · exact if_neg (by omega)

theorem goesOn_limitedTo_of_le {simulator : Simulator} {limit greater : UInt64} {count : Nat}
    (hle : limit ≤ greater) (h : (simulator.limitedTo limit).GoesOn count) :
    (simulator.limitedTo greater).GoesOn count := by
  intro earlier he
  obtain ⟨hi, hl⟩ := h earlier he
  rw [after_limitedTo] at hi hl ⊢
  rw [(mirrorsStep_limitedTo _ _).result] at hl ⊢
  exact ⟨interruption?_limitedTo_of_le hle hi, hl⟩

-- No step gives the status of the limit, so a run with this status has not made its last step.
theorem after_of_stepLimit {simulator : Simulator} {count : Nat} {outcome : Outcome Status}
    (h : simulator.Ends count outcome) (hstop : outcome.result = .ok .stepLimit) :
    outcome.simulator = simulator.after count := by
  cases h with
  | interrupted status hi hr hs => exact hs
  | stopped status hi hl hr hs =>
    rw [hr] at hstop
    cases hstop
    obtain h | h := status_of_step hl <;> cases h
  | failed fault hi hl hr hs => simp [hr] at hstop

-- A run does not end before a step that goes on.
theorem after_of_ends {simulator : Simulator} {few count : Nat} {outcome : Outcome Status}
    (hgoes : simulator.GoesOn few) (h : simulator.Ends count outcome) :
    ∃ more, outcome.simulator = simulator.after (few + more) := by
  have hcount : few ≤ count := by
    apply Nat.le_of_not_lt
    intro hlt
    obtain ⟨hi, hl⟩ := hgoes count hlt
    cases h with
    | interrupted status hi' hr hs => cases hi.symm.trans hi'
    | stopped status hi' hl' hr hs => cases hl.symm.trans hl'
    | failed fault hi' hl' hr hs => cases hl.symm.trans hl'
  obtain ⟨more, rfl⟩ := Nat.exists_eq_add_of_le hcount
  cases h with
  | interrupted status hi hr hs => exact ⟨more, hs⟩
  | stopped status hi hl hr hs | failed fault hi hl hr hs => exact ⟨more + 1, hs⟩

-- A run that a limit has stopped is the beginning of every run with a greater limit.
theorem run?_of_longer {simulator : Simulator} {limit greater : UInt64} (hle : limit ≤ greater)
    {fuel fuel' : Nat} {outcome longer : Outcome Status}
    (hrun : (simulator.limitedTo limit).run? fuel = some outcome)
    (hstop : outcome.result = .ok .stepLimit)
    (hlonger : (simulator.limitedTo greater).run? fuel' = some longer) :
    ∃ count more, (simulator.limitedTo greater).GoesOn count ∧
      (simulator.limitedTo greater).after count = outcome.simulator.limitedTo greater ∧
      longer.simulator = (simulator.limitedTo greater).after (count + more) := by
  obtain ⟨count, hgoes, hends⟩ := ends_of_run? hrun
  obtain ⟨count', -, hends'⟩ := ends_of_run? hlonger
  have hgoes' := goesOn_limitedTo_of_le hle hgoes
  obtain ⟨more, hmore⟩ := after_of_ends hgoes' hends'
  refine ⟨count, more, hgoes', ?_, hmore⟩
  rw [after_of_stepLimit hends hstop, after_limitedTo, after_limitedTo]
  rfl

-- A run is one step after the other, to the first status or fault. With a limit it comes to an end
-- in any case: by a step of its own while there is room for one, and else by the limit, which a
-- greater limit would only have put off. A status of the last step that there is room for counts.
theorem run_iterates_step (simulator : Simulator) (hc : simulator.cancelled = false) :
    let retired := simulator.machine.tally.retired
    (simulator.limit = none →
      (∀ count result, simulator.Stops count result → ∀ fuel,
        simulator.run? fuel =
          if count < fuel then
            some (conclude (simulator.after (count + 1)) (simulator.log (count + 1)) result)
          else none) ∧
      ((∀ count result, ¬ simulator.Stops count result) →
        ∀ fuel, simulator.run? fuel = none)) ∧
    (∀ limit, simulator.limit = some limit →
      (∀ count result, simulator.Stops count result → retired + count < limit.toNat → ∀ fuel,
        simulator.run? fuel =
          if count < fuel then
            some (conclude (simulator.after (count + 1)) (simulator.log (count + 1)) result)
          else none) ∧
      ((∀ count result, simulator.Stops count result → limit.toNat ≤ retired + count) →
        let steps := limit.toNat - retired
        simulator.Continues steps ∧
          (simulator.after steps).machine.tally.retired = max limit.toNat retired ∧
          ∀ fuel, simulator.run? fuel =
            if steps ≤ fuel then
              some (conclude (simulator.after steps) (simulator.log steps) (.ok .stepLimit))
            else none) ∧
      (∃ outcome, ∀ fuel, limit.toNat - retired ≤ fuel → simulator.run? fuel = some outcome) ∧
      (∀ count status, simulator.Stops count (.ok status) → limit.toNat = retired + count + 1 →
        ∃ outcome, simulator.run? (count + 1) = some outcome ∧ outcome.result = .ok status ∧
          status ≠ .stepLimit)) ∧
    (∀ limit greater, limit ≤ greater → ∀ fuel fuel' outcome longer,
      (simulator.limitedTo limit).run? fuel = some outcome → outcome.result = .ok .stepLimit →
      (simulator.limitedTo greater).run? fuel' = some longer →
      ∃ count more, (simulator.limitedTo greater).GoesOn count ∧
        (simulator.limitedTo greater).after count = outcome.simulator.limitedTo greater ∧
        longer.simulator = (simulator.limitedTo greater).after (count + more) ∧
        outcome.simulator.console.sink.Extends longer.simulator.console.sink) := by
  intro retired
  refine ⟨?_, ?_, ?_⟩
  · intro hl
    refine ⟨?_, ?_⟩
    · intro count result hstops
      apply run?_of_stops hc hstops
      intro limit hlimit
      cases hl.symm.trans hlimit
    · intro hnone
      apply run?_of_continues hc hl
      intro count
      exact continues_of_not_stops fun earlier _ => hnone earlier
  · intro limit hl
    have hroom (count : Nat) (hlt : retired + count < limit.toNat) : simulator.HasRoom count := by
      intro limit' hl'
      cases hl.symm.trans hl'
      exact hlt
    refine ⟨?_, ?_, exists_run?_of_limit hc hl, ?_⟩
    · intro count result hstops hlt
      exact run?_of_stops hc hstops (hroom count hlt)
    · intro hlate steps
      have hcontinues : simulator.Continues steps := by
        apply continues_of_not_stops
        intro earlier he result hstops
        have hreached := hlate earlier result hstops
        omega
      refine ⟨hcontinues, ?_, run?_of_reached hc hl hcontinues⟩
      rw [retired_after hcontinues]
      omega
    · intro count status hstops hlast
      have hrun := run?_of_stops hc hstops (hroom count (by omega)) (count + 1)
      refine ⟨_, hrun.trans (if_pos (Nat.lt_succ_self count)), rfl, ?_⟩
      rintro rfl
      obtain h | h := status_of_stops hstops <;> cases h
  · intro limit greater hle fuel fuel' outcome longer hrun hstop hlonger
    obtain ⟨count, more, hgoes, hafter, hmore⟩ := run?_of_longer hle hrun hstop hlonger
    refine ⟨count, more, hgoes, hafter, hmore, ?_⟩
    rw [hmore, ← after_add, hafter]
    exact extends_after _ more

-- Two programs with a limit of two instructions: one that never ends, and one that ends with its
-- second instruction.
def looping : Simulator :=
  .ofProgram [.assemble (.branch .always) 0 0 (-4)] { Configuration.default with limit := some 2 }
    (.ofInput [] .unlimited)

def straight : Simulator :=
  .ofProgram [.assemble .moveImm 0 0 1, .assemble .moveImm 0 0 2]
    { Configuration.default with limit := some 2 } (.ofInput [] .unlimited)

theorem looping_stops_at_limit :
    looping.cancelled = false ∧ straight.cancelled = false ∧
    looping.run? 2 = some (conclude (looping.after 2) (looping.log 2) (.ok .stepLimit)) ∧
    (looping.after 2).machine.tally.retired = 2 ∧
    ∃ outcome, straight.run? 2 = some outcome ∧ outcome.result = .ok .endOfProgram := by
  have hfirst : verdict? (looping.after 0).step.result = none := rfl
  have hsecond : verdict? (looping.after 1).step.result = none := rfl
  have hlate : ∀ count result, looping.Stops count result → 2 ≤ 0 + count := by
    intro count result hstops
    obtain rfl | rfl | hc : count = 0 ∨ count = 1 ∨ 2 ≤ count := by omega
    · cases hfirst.symm.trans hstops.verdict
    · cases hsecond.symm.trans hstops.verdict
    · omega
  have hgoes : (straight.after 0).step.result = .ok none := rfl
  have hends : verdict? (straight.after 1).step.result = some (.ok .endOfProgram) := rfl
  have hstops : straight.Stops 1 (.ok .endOfProgram) := by
    refine ⟨?_, hends⟩
    intro earlier he
    obtain rfl : earlier = 0 := by omega
    exact hgoes
  obtain ⟨-, hlooping, -⟩ := run_iterates_step looping rfl
  obtain ⟨-, hstraight, -⟩ := run_iterates_step straight rfl
  obtain ⟨-, hlimit, -, -⟩ := hlooping 2 rfl
  obtain ⟨-, -, -, hlast⟩ := hstraight 2 rfl
  obtain ⟨-, hretired, hrun⟩ := hlimit hlate
  obtain ⟨outcome, hend, hresult, -⟩ := hlast 1 .endOfProgram hstops rfl
  exact ⟨rfl, rfl, hrun 2, hretired, outcome, hend, hresult⟩

end WordMachine.Simulator
