import WordMachine.Proofs.Simulation.Course

namespace WordMachine.Simulator

-- What some calls of `step` have reported, in this order.
def log (simulator : Simulator) : Nat → List Log.Event
  | 0 => []
  | count + 1 => simulator.log count ++ (simulator.after count).step.events

-- What a step gives a run as its result, where the step is the last one.
def verdict? : Except Fault (Option Status) → Option (Except Fault Status)
  | .ok none => none
  | .ok (some status) => some (.ok status)
  | .error fault => some (.error fault)

-- The outcome of a run that has come this far. Only a status is reported.
def conclude (simulator : Simulator) (past : List Log.Event) (result : Except Fault Status) :
    Outcome Status where
  result
  simulator
  events :=
    match result with
    | .ok status => past ++ [.finished status simulator.machine.tally.retired]
    | .error _ => past

theorem simulator_conclude (simulator : Simulator) (past : List Log.Event)
    (result : Except Fault Status) : (conclude simulator past result).simulator = simulator :=
  rfl

theorem log_step (simulator : Simulator) (count : Nat) :
    simulator.step.events ++ simulator.step.simulator.log count = simulator.log (count + 1) := by
  induction count with
  | zero => exact List.append_nil _
  | succ count ih =>
    rw [log, ← List.append_assoc, ih, after_step]
    rfl

theorem goesOn_of_le {simulator : Simulator} {few many : Nat} (hle : few ≤ many)
    (h : simulator.GoesOn many) : simulator.GoesOn few :=
  fun earlier he => h earlier (Nat.lt_of_lt_of_le he hle)

section Run

variable {simulator : Simulator} {count fuel : Nat}

-- As long as a run goes on, it makes one step after the other.
theorem advance_of_goesOn (past : Array Log.Event) (h : simulator.GoesOn count) (fuel : Nat) :
    simulator.advance past (count + fuel) =
      (simulator.after count).advance (past ++ simulator.log count) fuel := by
  induction count generalizing simulator past with
  | zero =>
    rw [Nat.zero_add, log, Array.appendList_nil]
    rfl
  | succ count ih =>
    obtain ⟨hi, hl⟩ := h 0 (Nat.succ_pos count)
    have hrest : simulator.step.simulator.GoesOn count := by
      intro earlier he
      rw [after_step]
      exact h (earlier + 1) (Nat.succ_lt_succ he)
    have hfuel : count + 1 + fuel = count + fuel + 1 := by omega
    rw [after] at hi hl
    rw [hfuel, advance]
    simp only [hi, hl]
    have hpast : past ++ simulator.step.events ++ simulator.step.simulator.log count =
        past ++ simulator.log (count + 1) := by
      rw [← log_step]
      exact Array.ext' (by simp)
    rw [ih (past ++ simulator.step.events) hrest, after_step, hpast]

theorem run?_of_interruption {status : Status} (h : simulator.GoesOn count)
    (hi : (simulator.after count).interruption? = some status) (hf : count ≤ fuel) :
    simulator.run? fuel =
      some (conclude (simulator.after count) (simulator.log count) (.ok status)) := by
  obtain ⟨more, rfl⟩ := Nat.exists_eq_add_of_le hf
  rw [run?, advance_of_goesOn _ h, advance.eq_def]
  simp only [hi, finish, conclude]
  simp

theorem run?_of_verdict {result : Except Fault Status} (h : simulator.GoesOn count)
    (hi : (simulator.after count).interruption? = none)
    (hl : verdict? (simulator.after count).step.result = some result) (hf : count < fuel) :
    simulator.run? fuel =
      some (conclude (simulator.after (count + 1)) (simulator.log (count + 1)) result) := by
  obtain ⟨more, rfl⟩ := Nat.exists_eq_add_of_lt hf
  rw [Nat.add_assoc, run?, advance_of_goesOn _ h, advance]
  simp only [hi]
  cases hs : (simulator.after count).step.result with
  | error fault =>
    simp only [hs, verdict?, Option.some.injEq] at hl
    subst hl
    simp [conclude, log, after]
  | ok status? =>
    cases status? with
    | none => simp [hs, verdict?] at hl
    | some status =>
      simp only [hs, verdict?, Option.some.injEq] at hl
      subst hl
      simp [conclude, log, after, finish]

theorem run?_of_goesOn (h : simulator.GoesOn fuel)
    (hi : (simulator.after fuel).interruption? = none) : simulator.run? fuel = none := by
  have hadvance := advance_of_goesOn #[] h 0
  rw [Nat.add_zero] at hadvance
  rw [run?, hadvance, advance]
  simp only [hi]

end Run

-- All that a run can come to which may make `fuel` steps: it goes on after all of them, or it is
-- interrupted before its next step, or a step gives its result.
inductive Runs (simulator : Simulator) (fuel : Nat) : Option (Outcome Status) → Prop where
  | paused (h : simulator.GoesOn fuel) (hi : (simulator.after fuel).interruption? = none) :
      Runs simulator fuel none
  | interrupted (count : Nat) (status : Status) (hf : count ≤ fuel) (h : simulator.GoesOn count)
      (hi : (simulator.after count).interruption? = some status) :
      Runs simulator fuel
        (some (conclude (simulator.after count) (simulator.log count) (.ok status)))
  | stopped (count : Nat) (result : Except Fault Status) (hf : count < fuel)
      (h : simulator.GoesOn count) (hi : (simulator.after count).interruption? = none)
      (hl : verdict? (simulator.after count).step.result = some result) :
      Runs simulator fuel
        (some (conclude (simulator.after (count + 1)) (simulator.log (count + 1)) result))

theorem goesOn_succ {simulator : Simulator} {count : Nat} (h : simulator.GoesOn count)
    (hi : (simulator.after count).interruption? = none)
    (hl : (simulator.after count).step.result = .ok none) : simulator.GoesOn (count + 1) := by
  intro earlier he
  obtain hlt | rfl : earlier < count ∨ earlier = count := by omega
  · exact h earlier hlt
  · exact ⟨hi, hl⟩

theorem verdict?_eq_none_iff {result : Except Fault (Option Status)} :
    verdict? result = none ↔ result = .ok none := by
  rcases result with fault | (_ | status) <;> simp [verdict?]

theorem verdict?_eq_ok_iff {result : Except Fault (Option Status)} {status : Status} :
    verdict? result = some (.ok status) ↔ result = .ok (some status) := by
  rcases result with fault | (_ | other) <;> simp [verdict?]

theorem exists_runs (simulator : Simulator) (fuel : Nat) :
    ∃ outcome?, simulator.Runs fuel outcome? := by
  have hreached (count : Nat) (h : simulator.GoesOn count) :
      ∃ outcome?, simulator.Runs count outcome? := by
    cases hi : (simulator.after count).interruption? with
    | none => exact ⟨_, .paused h hi⟩
    | some status => exact ⟨_, .interrupted count status (Nat.le_refl count) h hi⟩
  induction fuel with
  | zero => exact hreached 0 nofun
  | succ fuel ih =>
    obtain ⟨outcome?, hruns⟩ := ih
    cases hruns with
    | interrupted count status hf h hi =>
      exact ⟨_, .interrupted count status (Nat.le_succ_of_le hf) h hi⟩
    | stopped count result hf h hi hl =>
      exact ⟨_, .stopped count result (Nat.lt_succ_of_lt hf) h hi hl⟩
    | paused h hi =>
      cases hl : verdict? (simulator.after fuel).step.result with
      | some result => exact ⟨_, .stopped fuel result (Nat.lt_succ_self fuel) h hi hl⟩
      | none => exact hreached (fuel + 1) (goesOn_succ h hi (verdict?_eq_none_iff.mp hl))

theorem runs_run? (simulator : Simulator) (fuel : Nat) :
    simulator.Runs fuel (simulator.run? fuel) := by
  obtain ⟨outcome?, hruns⟩ := simulator.exists_runs fuel
  have hrun : simulator.run? fuel = outcome? := by
    cases hruns with
    | paused h hi => exact run?_of_goesOn h hi
    | interrupted count status hf h hi => exact run?_of_interruption h hi hf
    | stopped count result hf h hi hl => exact run?_of_verdict h hi hl hf
  rw [hrun]
  exact hruns

-- A run that has an outcome is some steps that go on, and one end.
theorem ends_of_run? {simulator : Simulator} {fuel : Nat} {outcome : Outcome Status}
    (h : simulator.run? fuel = some outcome) :
    ∃ count, simulator.GoesOn count ∧ simulator.Ends count outcome := by
  have hruns := simulator.runs_run? fuel
  rw [h] at hruns
  cases hruns with
  | interrupted count status hf hgoes hi =>
    exact ⟨count, hgoes, .interrupted status hi rfl rfl⟩
  | stopped count result hf hgoes hi hl =>
    refine ⟨count, hgoes, ?_⟩
    cases hs : (simulator.after count).step.result with
    | error fault =>
      simp only [hs, verdict?, Option.some.injEq] at hl
      subst hl
      exact .failed fault hi hs rfl rfl
    | ok status? =>
      cases status? with
      | none => simp [hs, verdict?] at hl
      | some status =>
        simp only [hs, verdict?, Option.some.injEq] at hl
        subst hl
        exact .stopped status hi hs rfl rfl

theorem mapError_id (result : Except ε α) : result.mapError id = result := by
  cases result <;> rfl

section Lockstep

variable {here there : Simulator} {fuel : Nat}

theorem verdict?_mapError (carry : Fault → Fault) (result : Except Fault (Option Status)) :
    verdict? (result.mapError carry) = (verdict? result).map (Except.mapError carry) := by
  rcases result with fault | (_ | status) <;> rfl

-- Two runs in lockstep: what relates them after some steps says that both or none are interrupted
-- there, and still holds after a step that gives the same on both sides, but for how a fault is
-- carried over. Then they come to an end at once, and what relates them there decides how their
-- outcomes are related.
theorem run?_lockstep (carry : Fault → Fault) (related : Nat → Prop)
    {ends : Outcome Status → Outcome Status → Prop} (hzero : related 0)
    (hi : ∀ count, related count →
      (there.after count).interruption? = (here.after count).interruption?)
    (hstep : ∀ count < fuel, here.GoesOn count → (here.after count).interruption? = none →
      related count →
        (there.after count).step.result = (here.after count).step.result.mapError carry ∧
          related (count + 1))
    (hends : ∀ count result, related count →
      ends (conclude (here.after count) (here.log count) result)
        (conclude (there.after count) (there.log count) (result.mapError carry))) :
    Option.Rel ends (here.run? fuel) (there.run? fuel) := by
  have hrelated {count : Nat} (hf : count ≤ fuel) (h : here.GoesOn count) : related count := by
    induction count with
    | zero => exact hzero
    | succ count ih =>
      have hgoes := goesOn_of_le (Nat.le_succ count) h
      exact (hstep count hf hgoes (h count (Nat.lt_succ_self count)).1
        (ih (Nat.le_of_lt hf) hgoes)).2
  have hgoesOn {count : Nat} (hf : count ≤ fuel) (h : here.GoesOn count) :
      there.GoesOn count := by
    intro earlier he
    obtain ⟨huninterrupted, hl⟩ := h earlier he
    have hgoes := goesOn_of_le (Nat.le_of_lt he) h
    have hearlier := hrelated (Nat.le_trans (Nat.le_of_lt he) hf) hgoes
    have hresult :=
      (hstep earlier (Nat.lt_of_lt_of_le he hf) hgoes huninterrupted hearlier).1
    rw [hl] at hresult
    exact ⟨(hi earlier hearlier).trans huninterrupted, hresult⟩
  have hruns := here.runs_run? fuel
  generalize here.run? fuel = outcome? at hruns ⊢
  cases hruns with
  | paused h hnone =>
    have hpaused := (hi fuel (hrelated (Nat.le_refl fuel) h)).trans hnone
    rw [run?_of_goesOn (hgoesOn (Nat.le_refl fuel) h) hpaused]
    exact .none
  | interrupted count status hf h hstatus =>
    have hcount := hrelated hf h
    rw [run?_of_interruption (hgoesOn hf h) ((hi count hcount).trans hstatus) hf]
    exact .some (hends count (.ok status) hcount)
  | stopped count result hf h hnone hl =>
    have hcount := hrelated (Nat.le_of_lt hf) h
    obtain ⟨hresult, hnext⟩ := hstep count hf h hnone hcount
    have hl' : verdict? (there.after count).step.result = some (result.mapError carry) := by
      rw [hresult, verdict?_mapError, hl]
      rfl
    rw [run?_of_verdict (hgoesOn (Nat.le_of_lt hf) h) ((hi count hcount).trans hnone) hl' hf]
    exact .some (hends (count + 1) result hnext)

end Lockstep

end WordMachine.Simulator
