import WordMachine.Proofs.Simulation.Passage
import WordMachine.Proofs.Stack.Depth

namespace WordMachine

-- A push, or a call, which pushes the address that it returns to.
def Completion.isPush (completion : Completion) : Bool :=
  completion.operation? = some .push || completion.operation? = some .call

theorem Completion.isPush_iff (completion : Completion) : completion.isPush = true ↔
    completion.operation? = some .push ∨ completion.operation? = some .call := by
  rw [isPush, Bool.or_eq_true, decide_eq_true_iff, decide_eq_true_iff]

namespace Machine

-- A word is put on the stack, and the depth that the stack comes to by that is noted in full.
structure Deepens (before after : Machine) : Prop where
  low : 4 ≤ before.memory.size - after.stackAddress
  high : before.memory.size - after.stackAddress ≤ before.memory.size
  noted : (after.tally.peakDepth : Int) =
    max (before.tally.peakDepth : Int) (before.memory.size - after.stackAddress)

section Effects

variable {i : Instruction} {op : Operation} {machine after : Machine}

theorem peakDepth_of_effects (h : machine.Effects i op after)
    (hop : ¬ (op = .push ∨ op = .call)) : after.tally.peakDepth = machine.tally.peakDepth := by
  cases h with
  | branched condition taken => exact machine.peakDepth_recordBranch taken
  | called hm => exact absurd (.inr rfl) hop
  | pushed value hv hm => exact absurd (.inl rfl) hop
  | _ => rfl

theorem deepens_pushedWord (hs : machine.OnStack) (value : Int32)
    (hm : machine.memory.Holds machine.pushSlot.toInt) :
    machine.Deepens (machine.pushedWord value) := by
  have hbears := bears_pushedWord hs value hm
  have haddress := hbears.stackAddress
  obtain ⟨hlow, hhigh⟩ := hbears.room
  refine ⟨by omega, by omega, ?_⟩
  rw [peakDepth_pushedWord hs value hm, depth, hs]
  omega

theorem deepens_of_effects (hs : machine.OnStack) (h : machine.Effects i op after)
    (hop : op = .push ∨ op = .call) : machine.Deepens after := by
  cases h with
  | called hm => exact deepens_pushedWord hs _ hm
  | pushed value hv hm => exact deepens_pushedWord hs value hm
  | assigned op index value hd hpop hi => obtain rfl | rfl := hop <;> cases hd
  | _ => obtain hop | hop := hop <;> cases hop

theorem deepens_retire (h : machine.Deepens after) (category : Category) :
    machine.Deepens (after.retire category) :=
  ⟨h.low, h.high, (congrArg Int.ofNat (Tally.peakDepth_retire _ _)).trans h.noted⟩

end Effects

section Completes

variable {i : Instruction} {machine after : Machine} {console rest : Console} {flow : Flow}
  (h : machine.Completes i console flow after rest)

include h

theorem peakDepth_of_completes
    (hop : ¬ (i.operation? = some .push ∨ i.operation? = some .call)) :
    after.tally.peakDepth = machine.tally.peakDepth := by
  cases h with
  | skipped hnone hp => exact Tally.peakDepth_retire _ _
  | done op delivered final rest hsome hc he =>
    rw [hsome, Option.some_inj, Option.some_inj] at hop
    exact (Tally.peakDepth_retire _ _).trans (peakDepth_of_effects (effects_of_effect he) hop)

theorem deepens_of_completes (hs : machine.OnStack)
    (hop : i.operation? = some .push ∨ i.operation? = some .call) : machine.Deepens after := by
  cases h with
  | skipped hnone hp => simp [hnone] at hop
  | done op delivered final rest hsome hc he =>
    rw [hsome, Option.some_inj, Option.some_inj] at hop
    exact deepens_retire (deepens_of_effects hs (effects_of_effect he) hop) op.category

end Completes

end Machine

namespace Simulator

-- The stack pointer right after the next step, if that completes a push or a call.
def pushedTo? (simulator : Simulator) : Option Int :=
  match simulator.completion? with
  | none => none
  | some completion =>
    if completion.isPush then some simulator.step.simulator.machine.stackAddress else none

-- The stack pointer right after each push and call that some calls of `step` have completed.
def pushedTo (simulator : Simulator) : Nat → List Int
  | 0 => []
  | count + 1 => simulator.pushedTo count ++ (simulator.after count).pushedTo?.toList

-- The peak is the greatest of these depths, none of which is more than the whole stack.
structure Deepest (size : Nat) (depths : List Int) (peak : Nat) : Prop where
  bounds : ∀ depth ∈ depths, 4 ≤ depth ∧ depth ≤ peak
  attained : depths = [] ∧ peak = 0 ∨ (peak : Int) ∈ depths
  fits : peak ≤ size

section Step

variable {simulator : Simulator}

theorem length_pushedTo? : simulator.pushedTo?.toList.length =
    simulator.completion?.toList.countP (·.isPush) := by
  unfold pushedTo?
  cases simulator.completion? with
  | none => rfl
  | some completion =>
    cases hp : completion.isPush <;> simp [hp]

-- One step notes the depth that it pushes to, and no other depth.
theorem peakDepth_step (hs : simulator.machine.OnStack) :
    (simulator.pushedTo? = none ∧ simulator.step.simulator.machine.tally.peakDepth =
      simulator.machine.tally.peakDepth) ∨
    (simulator.pushedTo? = some simulator.step.simulator.machine.stackAddress ∧
      simulator.machine.Deepens simulator.step.simulator.machine) := by
  unfold pushedTo?
  cases hc : simulator.completion? with
  | none => exact .inl ⟨rfl, by rw [machine_step_of_no_completion hc]⟩
  | some completion =>
    obtain ⟨i, flow, rfl, hx⟩ := executes_of_completion hc
    obtain ⟨machine, rest, hcompletes, hafter⟩ := completes_of_executes hx
    have hpush := Completion.isPush_iff ⟨i, simulator.machine⟩
    by_cases hop : i.operation? = some .push ∨ i.operation? = some .call
    · have hdeepens := Machine.deepens_of_completes hcompletes hs hop
      refine .inr ⟨if_pos (hpush.mpr hop), ?_⟩
      rw [hafter]
      exact ⟨hdeepens.low, hdeepens.high, hdeepens.noted⟩
    · have hpeak := Machine.peakDepth_of_completes hcompletes hop
      refine .inl ⟨if_neg fun h => hop (hpush.mp h), ?_⟩
      rw [hafter]
      exact hpeak

theorem peakDepth_le_step (hs : simulator.machine.OnStack) :
    simulator.machine.tally.peakDepth ≤
      simulator.step.simulator.machine.tally.peakDepth := by
  obtain ⟨-, hsame⟩ | ⟨-, hdeepens⟩ := peakDepth_step hs
  · omega
  · have hnoted := hdeepens.noted
    omega

end Step

section Run

theorem length_pushedTo (simulator : Simulator) (count : Nat) :
    (simulator.pushedTo count).length = (simulator.completions count).countP (·.isPush) := by
  induction count with
  | zero => rfl
  | succ count ih =>
    rw [pushedTo, completions, List.length_append, List.countP_append, ih, length_pushedTo?]

theorem peakDepth_le_after {simulator : Simulator} (hs : simulator.machine.OnStack)
    (count : Nat) :
    simulator.machine.tally.peakDepth ≤ (simulator.after count).machine.tally.peakDepth := by
  induction count with
  | zero => exact Nat.le_refl _
  | succ count ih => exact Nat.le_trans ih (peakDepth_le_step (onStack_after hs count))

theorem deepest_concat {size peak peak' : Nat} {depths : List Int} {depth : Int}
    (h : Deepest size depths peak) (hlow : 4 ≤ depth) (hhigh : depth ≤ size)
    (hpeak : (peak' : Int) = max (peak : Int) depth) :
    Deepest size (depths ++ [depth]) peak' := by
  have hfits := h.fits
  refine ⟨?_, .inr ?_, by omega⟩
  · intro other hother
    obtain hmem | hmem := List.mem_append.mp hother
    · have hbounds := h.bounds other hmem
      omega
    · rw [List.mem_singleton.mp hmem]
      omega
  · by_cases hle : depth ≤ peak
    · obtain ⟨-, hzero⟩ | hmem := h.attained
      · omega
      · rw [hpeak, Int.max_eq_left hle]
        exact List.mem_append_left _ hmem
    · rw [hpeak, Int.max_eq_right (by omega)]
      exact List.mem_append_right _ (List.mem_singleton_self depth)

theorem max?_of_deepest {size peak : Nat} {depths : List Int} (h : Deepest size depths peak) :
    (peak : Int) = depths.max?.getD 0 := by
  obtain ⟨rfl, rfl⟩ | hmem := h.attained
  · rfl
  · have hmax : depths.max? = some (peak : Int) :=
      List.max?_eq_some_iff.mpr ⟨hmem, fun depth hd => (h.bounds depth hd).2⟩
    rw [hmax, Option.getD_some]

-- The induction is on the number of steps. The stack pointer may be anywhere before each of them.
theorem deepest_after {start : Simulator} (hs : start.machine.OnStack)
    (hnew : start.machine.tally.peakDepth = 0) (count : Nat) :
    Deepest start.machine.memory.size
      ((start.pushedTo count).map (start.machine.memory.size - ·))
      (start.after count).machine.tally.peakDepth := by
  induction count with
  | zero =>
    refine ⟨nofun, .inl ⟨rfl, hnew⟩, ?_⟩
    rw [after, hnew]
    exact Nat.zero_le _
  | succ count ih =>
    have hsize := (start.fixed_after count).size
    rw [pushedTo, List.map_append, after]
    obtain ⟨hnone, hsame⟩ | ⟨hsome, hdeepens⟩ := peakDepth_step (onStack_after hs count)
    · rw [hnone, hsame, Option.toList_none, List.map_nil, List.append_nil]
      exact ih
    · obtain ⟨hlow, hhigh, hnoted⟩ := hdeepens
      rw [hsize] at hlow hhigh hnoted
      rw [hsome]
      exact deepest_concat ih hlow hhigh hnoted

end Run

-- The peak depth is the greatest depth that a push or a call has brought the stack to, and zero
-- where there was none, wherever the program has moved the stack pointer in between. Each of these
-- depths is noted: it is never negative, and never more than the whole stack.
theorem peak_depth_is_deepest_push {program : List Instruction} {configuration : Configuration}
    {console : Console} {past : List Completion} {here : Simulator}
    (hsize : configuration.stackSize < 2147483648)
    (h : (ofProgram program configuration console).Reaches past here) :
    let start := ofProgram program configuration console
    let size : Int := configuration.stackSize
    let peak := here.machine.tally.peakDepth
    (∃ count, here = start.after count ∧ past = start.completions count ∧
      (start.pushedTo count).length = past.countP (·.isPush) ∧
      (peak : Int) = ((start.pushedTo count).map (size - ·)).max?.getD 0 ∧
      ∀ address ∈ start.pushedTo count, 4 ≤ size - address ∧ size - address ≤ peak ∧
        size - address < 4294967296) ∧
    peak ≤ size ∧
    here.machine.stackTop.toInt = size ∧
    (∀ more there, here.Reaches more there → peak ≤ there.machine.tally.peakDepth) ∧
    (∀ i fault, (here.execute i).result = .error fault →
      (here.execute i).simulator.machine.tally.peakDepth = peak) ∧
    (∀ i flow, ¬ (i.operation? = some .push ∨ i.operation? = some .call) →
      (here.execute i).result = .ok flow →
        (here.execute i).simulator.machine.tally.peakDepth = peak) := by
  intro start size peak
  have hstacked := Machine.stacked_reset hsize configuration.policy
  have hs : start.machine.OnStack := Machine.onStack_of_stacked hstacked
  obtain ⟨count, rfl, rfl⟩ := after_of_reaches h
  have hmemory : start.machine.memory.size = configuration.stackSize := hstacked.memory
  have hdeepest := deepest_after hs rfl count
  rw [hmemory] at hdeepest
  have hfits := hdeepest.fits
  have htop := (congrArg Int32.toInt (start.fixed_after count).stackTop).trans hstacked.stackTop
  refine ⟨⟨count, rfl, rfl, length_pushedTo start count, max?_of_deepest hdeepest, ?_⟩,
    Int.ofNat_le.mpr hfits, htop, ?_, ?_, ?_⟩
  · intro address ha
    obtain ⟨hlow, hhigh⟩ := hdeepest.bounds _ (List.mem_map_of_mem ha)
    exact ⟨hlow, hhigh, by omega⟩
  · intro more there hmore
    obtain ⟨rest, rfl, -⟩ := after_of_reaches hmore
    exact peakDepth_le_after (onStack_after hs count) rest
  · intro i fault hx
    have hmachine : ((start.after count).execute i).simulator.machine =
        (start.after count).machine := (Machine.fails_of_execute hx).1
    rw [hmachine]
  · intro i flow hop hx
    exact Machine.peakDepth_of_completes (Machine.completes_of_execute hx) hop

-- A call that follows a write of the stack pointer is the deepest one, and the push after another
-- write faults.
def plunging : Simulator :=
  .ofProgram
    [.assemble .push 0 0 0, .assemble .moveImm 6 0 100, .assemble .call 0 0 0,
     .assemble .moveImm 6 0 2, .assemble .push 0 0 0]
    .default (.ofInput [] .unlimited)

theorem plunge_is_noted :
    plunging.pushedTo 4 = [1020, 96] ∧
    (plunging.after 4).machine.tally.peakDepth = 928 ∧
    ((plunging.after 4).execute (.assemble .push 0 0 0)).simulator.machine.tally.peakDepth =
      928 := by
  obtain ⟨-, -, -, -, hfaulted, -⟩ :=
    peak_depth_is_deepest_push (by decide) (reaches_after plunging 4)
  exact ⟨rfl, rfl, hfaulted (.assemble .push 0 0 0) (.memory ⟨-2, 1024⟩ 16) rfl⟩

end Simulator

end WordMachine
