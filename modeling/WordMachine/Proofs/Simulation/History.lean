import WordMachine.Proofs.Simulation.Step

namespace WordMachine

-- An operation that a step has completed, and where it led.
structure Retirement where
  operation : Operation
  flow : Flow
  deriving DecidableEq, Repr

namespace Simulator

-- The operation that the next step completes, if it completes one. A skipped word has none.
def retirement? (simulator : Simulator) : Option Retirement :=
  match simulator.fetch with
  | .error _ => none
  | .ok i =>
    match (simulator.execute i).result with
    | .error _ => none
    | .ok flow => i.operation?.map (⟨·, flow⟩)

-- What some calls of `step` have completed, in this order.
def history (simulator : Simulator) : Nat → List Retirement
  | 0 => []
  | count + 1 => simulator.history count ++ (simulator.after count).retirement?.toList

-- What a step that executes an instruction completes is the operation of the instruction.
theorem retirement?_of_fetch {simulator : Simulator} {i : Instruction} {flow : Flow}
    (hf : simulator.fetch = .ok i) (hx : (simulator.execute i).result = .ok flow) :
    simulator.retirement? = i.operation?.map (⟨·, flow⟩) := by
  simp only [retirement?, hf, hx]

theorem retirement?_eq_none {simulator : Simulator} (h : ∀ i flow, simulator.fetch = .ok i →
    (simulator.execute i).result ≠ .ok flow) : simulator.retirement? = none := by
  unfold retirement?
  cases hf : simulator.fetch with
  | error fault => rfl
  | ok i =>
    simp only
    cases hx : (simulator.execute i).result with
    | error fault => rfl
    | ok flow => exact absurd hx (h i flow hf)

end Simulator

end WordMachine
