import WordMachine.Simulation.Basic

namespace WordMachine.Simulator

-- The simulator after some calls of `step`, whatever each of them gave.
def after (simulator : Simulator) : Nat → Simulator
  | 0 => simulator
  | count + 1 => (simulator.after count).step.simulator

theorem after_step (simulator : Simulator) (count : Nat) :
    simulator.step.simulator.after count = simulator.after (count + 1) := by
  induction count with
  | zero => rfl
  | succ count ih =>
    rw [after, ih]
    rfl

theorem after_add (simulator : Simulator) (few more : Nat) :
    (simulator.after few).after more = simulator.after (few + more) := by
  induction more with
  | zero => rfl
  | succ more ih =>
    rw [after, ih]
    rfl

-- What every step keeps, every number of steps keeps.
theorem after_induction {motive : Simulator → Prop}
    (hstep : ∀ simulator, motive simulator → motive simulator.step.simulator)
    {simulator : Simulator} (h : motive simulator) (count : Nat) :
    motive (simulator.after count) := by
  induction count with
  | zero => exact h
  | succ count ih => exact hstep _ ih

-- The first steps are neither the last ones nor do they fail, and nothing interrupts the run
-- before them.
def GoesOn (simulator : Simulator) (count : Nat) : Prop :=
  ∀ earlier < count, (simulator.after earlier).interruption? = none ∧
    (simulator.after earlier).step.result = .ok none

-- How a run ends that has gone on for `count` steps: it is interrupted before the next step, or
-- the next step gives its result.
inductive Ends (simulator : Simulator) (count : Nat) (outcome : Outcome Status) : Prop where
  | interrupted (status : Status) (hi : (simulator.after count).interruption? = some status)
      (hr : outcome.result = .ok status) (hs : outcome.simulator = simulator.after count)
  | stopped (status : Status) (hi : (simulator.after count).interruption? = none)
      (hl : (simulator.after count).step.result = .ok (some status))
      (hr : outcome.result = .ok status) (hs : outcome.simulator = simulator.after (count + 1))
  | failed (fault : Fault) (hi : (simulator.after count).interruption? = none)
      (hl : (simulator.after count).step.result = .error fault)
      (hr : outcome.result = .error fault) (hs : outcome.simulator = simulator.after (count + 1))

end WordMachine.Simulator
