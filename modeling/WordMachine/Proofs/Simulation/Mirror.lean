import WordMachine.Proofs.Simulation.Running
import WordMachine.Proofs.Simulation.Step

namespace WordMachine.Simulator

-- A step of the mirror image gives the same, and leads to the mirror image.
structure MirrorsStep (mirror : Simulator → Simulator) (simulator : Simulator) : Prop where
  result : (mirror simulator).step.result = simulator.step.result
  simulator : (mirror simulator).step.simulator = mirror simulator.step.simulator

-- A map that leaves the program counter its place in the program.
structure KeepsPlace (mirror : Simulator → Simulator) : Prop where
  isAtEnd : ∀ simulator, (mirror simulator).isAtEnd = simulator.isAtEnd
  goTo : ∀ simulator pc, (mirror simulator).goTo pc = mirror (simulator.goTo pc)

-- The same end, on two sides of a mirror. The events may differ.
structure MirrorsOutcome (mirror : Simulator → Simulator) (here there : Outcome Status) :
    Prop where
  result : there.result = here.result
  simulator : there.simulator = mirror here.simulator

section Mirror

variable {mirror : Simulator → Simulator} {simulator : Simulator} {count fuel : Nat}

-- It is enough that the instructions are executed alike.
theorem mirrorsStep_of_execute (hplace : KeepsPlace mirror)
    (hlost : ∀ fault, simulator.fetch = .error fault → (mirror simulator).fetch = .error fault)
    (hfound : ∀ i, simulator.fetch = .ok i → ∃ j, (mirror simulator).fetch = .ok j ∧
      ((mirror simulator).execute j).result = (simulator.execute i).result ∧
      ((mirror simulator).execute j).simulator = mirror (simulator.execute i).simulator) :
    MirrorsStep mirror simulator := by
  have hend := hplace.isAtEnd simulator
  cases he : simulator.isAtEnd with
  | true =>
    rw [he] at hend
    constructor <;> rw [step, step, if_pos hend, if_pos he]
  | false =>
    rw [he] at hend
    cases hf : simulator.fetch with
    | error fault =>
      have hf' := hlost fault hf
      constructor <;> simp only [step, he, hend, hf, hf', Bool.false_eq_true, ite_false]
    | ok i =>
      obtain ⟨j, hf', hresult, hsimulator⟩ := hfound i hf
      cases hx : (simulator.execute i).result with
      | error fault =>
        constructor <;> simp only [step, he, hend, hf, hf', hresult, hx, hsimulator,
          Bool.false_eq_true, ite_false]
      | ok flow =>
        cases flow with
        | halt | goTo pc =>
          constructor <;> simp only [step, he, hend, hf, hf', hresult, hx, hsimulator,
            hplace.goTo, hplace.isAtEnd, Bool.false_eq_true, ite_false]

theorem after_mirror (h : ∀ earlier < count, MirrorsStep mirror (simulator.after earlier)) :
    (mirror simulator).after count = mirror (simulator.after count) := by
  induction count with
  | zero => rfl
  | succ count ih =>
    have hlast := h count (Nat.lt_succ_self count)
    rw [after, ih fun earlier he => h earlier (Nat.lt_succ_of_lt he), hlast.simulator]
    rfl

variable (hmirror : ∀ simulator, (mirror simulator).interruption? = simulator.interruption?)
include hmirror

-- Only the steps that the run makes have to be mirrored.
theorem run?_mirror
    (h : ∀ count < fuel, simulator.GoesOn count → (simulator.after count).interruption? = none →
      MirrorsStep mirror (simulator.after count)) :
    Option.Rel (MirrorsOutcome mirror) (simulator.run? fuel) ((mirror simulator).run? fuel) := by
  apply run?_lockstep id
    (fun count => (mirror simulator).after count = mirror (simulator.after count)) rfl
  · intro count hcount
    rw [hcount, hmirror]
  · intro count hf hgoes hi hcount
    obtain ⟨hresult, hsimulator⟩ := h count hf hgoes hi
    rw [after, hcount, mapError_id]
    exact ⟨hresult, hsimulator⟩
  · intro count result hcount
    rw [mapError_id]
    exact ⟨rfl, hcount⟩

theorem goesOn_mirror (h : ∀ earlier < count, MirrorsStep mirror (simulator.after earlier))
    (hgoes : simulator.GoesOn count) : (mirror simulator).GoesOn count := by
  intro earlier he
  obtain ⟨hi, hl⟩ := hgoes earlier he
  rw [after_mirror fun first hf => h first (Nat.lt_trans hf he)]
  exact ⟨(hmirror _).trans hi, (h earlier he).result.trans hl⟩

end Mirror

end WordMachine.Simulator
