import WordMachine.Proofs.Instruction.Opcode
import WordMachine.Proofs.Simulation.Limit

namespace WordMachine

-- How many of the completed instructions have an opcode of this category.
def Category.among (category : Category) (past : List Completion) : Nat :=
  past.countP fun completion => category.covers completion.instruction.opcode.toNat

namespace Completion

theorem covers_eq (completion : Completion) (category : Category) :
    category.covers completion.instruction.opcode.toNat =
      decide (category = completion.category) := by
  unfold Completion.category operation?
  cases hop : completion.instruction.operation? with
  | none => exact Category.covers_of_no_operation hop category
  | some op => exact Category.covers_of_operation hop category

-- What counts as a branch is a jump, or a conditional branch that was decided one way.
theorem covers_branch (completion : Completion) :
    (if Category.covers .branch completion.instruction.opcode.toNat then 1 else 0) =
      (if completion.isJump then 1 else 0) + (if completion.decides true then 1 else 0) +
        if completion.decides false then 1 else 0 := by
  rw [covers_eq]
  unfold Completion.category isJump decides
  cases completion.operation? with
  | none => rfl
  | some op =>
    cases op with
    | branch condition =>
      by_cases halways : condition = .always
      · subst halways
        rfl
      · cases hholds : completion.machine.registers.flags.holds condition <;>
          simp [halways, hholds, Operation.category]
    | _ => rfl

end Completion

namespace Category

theorem among_append (category : Category) (past : List Completion) (completion : Completion) :
    category.among (past ++ [completion]) =
      category.among past + if category = completion.category then 1 else 0 := by
  simp only [among, List.countP_append, List.countP_singleton, Completion.covers_eq,
    decide_eq_true_eq]

theorem among_le_length (category : Category) (past : List Completion) :
    category.among past ≤ past.length :=
  List.countP_le_length

-- The categories share the opcodes out among them.
theorem length_eq_among (past : List Completion) :
    past.length =
      among .alu past + among .load past + among .store past + among .compare past +
        among .branch past + among .call past + among .stack past + among .console past +
        among .unknown past := by
  induction past with
  | nil => rfl
  | cons completion past ih =>
    simp only [among, List.countP_cons, List.length_cons, Completion.covers_eq,
      decide_eq_true_eq] at ih ⊢
    cases completion.category <;> simp only [reduceCtorEq, ite_true, ite_false] <;> omega

theorem among_branch (past : List Completion) :
    among .branch past =
      past.countP (·.isJump) + past.countP (·.decides true) + past.countP (·.decides false) := by
  induction past with
  | nil => rfl
  | cons completion past ih =>
    have hone := completion.covers_branch
    simp only [among, List.countP_cons] at ih ⊢
    omega

end Category

namespace Tally

-- The tally is the account of these instructions: nothing else was counted, and nothing twice.
structure Accounts (tally : Tally) (past : List Completion) : Prop where
  retired : tally.retired = past.length
  count : ∀ category, tally.count category = category.among past
  taken : tally.taken = past.countP (·.isJump) + past.countP (·.decides true)
  notTaken : tally.notTaken = past.countP (·.decides false)

-- No counter of the tally is above the bound.
structure Within (tally : Tally) (bound : Nat) : Prop where
  count : ∀ category, tally.count category ≤ bound
  taken : tally.taken ≤ bound
  notTaken : tally.notTaken ≤ bound

theorem accounts_zero : zero.Accounts [] where
  retired := rfl
  count category := by cases category <;> rfl
  taken := rfl
  notTaken := rfl

theorem accounts_of_enters {before after : Tally} {past : List Completion}
    {completion : Completion} (h : before.Accounts past) (he : before.Enters completion after) :
    after.Accounts (past ++ [completion]) where
  retired := by rw [he.retired, h.retired, List.length_append, List.length_singleton]
  count category := by rw [he.count, h.count, Category.among_append]
  taken := by
    rw [he.taken, h.taken]
    simp only [List.countP_append, List.countP_singleton]
    omega
  notTaken := by rw [he.notTaken, h.notTaken, List.countP_append, List.countP_singleton]

section Sums

variable {tally : Tally} {past : List Completion} (h : tally.Accounts past)
include h

theorem retired_eq_sum :
    tally.retired = tally.alu + tally.load + tally.store + tally.compare + tally.branch +
      tally.call + tally.stack + tally.console + tally.unknown := by
  have hcount : ∀ category : Category, category.among past = tally.count category :=
    fun category => (h.count category).symm
  rw [h.retired, Category.length_eq_among]
  simp only [hcount, Tally.count]

theorem taken_add_notTaken : tally.taken + tally.notTaken = tally.branch := by
  have hbranch : tally.branch = Category.among .branch past := h.count .branch
  rw [hbranch, Category.among_branch, h.taken, h.notTaken]

theorem within_retired : tally.Within tally.retired := by
  have hcount (category : Category) : tally.count category ≤ tally.retired := by
    rw [h.count, h.retired]
    exact category.among_le_length past
  have hbranches := taken_add_notTaken h
  have hbranch : tally.branch ≤ tally.retired := hcount .branch
  exact ⟨hcount, by omega, by omega⟩

end Sums

theorem hasRoom_of_within {tally : Tally} {more : Nat} (h : tally.Within tally.retired)
    (hlt : tally.retired + more < UInt64.size) : tally.HasRoom more where
  retired := hlt
  count category := Nat.lt_of_le_of_lt (Nat.add_le_add_right (h.count category) more) hlt
  taken := Nat.lt_of_le_of_lt (Nat.add_le_add_right h.taken more) hlt
  notTaken := Nat.lt_of_le_of_lt (Nat.add_le_add_right h.notTaken more) hlt

theorem within_of_le {tally : Tally} {bound greater : Nat} (hle : bound ≤ greater)
    (h : tally.Within bound) : tally.Within greater :=
  ⟨fun category => Nat.le_trans (h.count category) hle, Nat.le_trans h.taken hle,
    Nat.le_trans h.notTaken hle⟩

end Tally

namespace Simulator

-- The account is kept from the reset on, wherever steps and runs lead.
theorem accounts_of_reaches {start here : Simulator} {past : List Completion}
    (hstart : start.machine.tally = .zero) (h : start.Reaches past here) :
    here.machine.tally.Accounts past := by
  apply reaches_induction (motive := fun past machine => machine.tally.Accounts past) h
  · rw [hstart]
    exact Tally.accounts_zero
  · intro past before after i console rest flow pc haccounts hcompletes
    have henters := Machine.enters_of_completes hcompletes
    exact Tally.accounts_of_enters haccounts henters

-- It takes 2^64 instructions from the reset on to fill a counter.
theorem hasRoom_of_reaches {start here : Simulator} {past : List Completion} {more : Nat}
    (hstart : start.machine.tally = .zero) (h : start.Reaches past here)
    (hlt : past.length + more < UInt64.size) : here.machine.tally.HasRoom more := by
  have haccounts := accounts_of_reaches hstart h
  apply Tally.hasRoom_of_within (Tally.within_retired haccounts)
  rwa [haccounts.retired]

theorem retired_step_le (simulator : Simulator) :
    simulator.step.simulator.machine.tally.retired ≤ simulator.machine.tally.retired + 1 := by
  cases hc : simulator.completion? with
  | none =>
    rw [machine_step_of_no_completion hc]
    exact Nat.le_succ _
  | some completion => exact Nat.le_of_eq (enters_of_completion hc).retired

-- A run that is not interrupted before a step has room for the instruction of this step.
theorem retired_lt_of_interruption? {simulator : Simulator} {limit : UInt64}
    (hl : simulator.limit = some limit) (h : simulator.interruption? = none) :
    simulator.machine.tally.retired < limit.toNat := by
  unfold interruption? at h
  cases hc : simulator.cancelled with
  | true => simp [hc] at h
  | false =>
    simp only [hc, hl, Bool.false_eq_true, ite_false] at h
    by_cases hreached : limit.toNat ≤ simulator.machine.tally.retired
    · simp [hreached] at h
    · omega

theorem retired_le_of_run? {simulator : Simulator} {limit : UInt64} {fuel : Nat}
    {outcome : Outcome Status} (hl : simulator.limit = some limit)
    (hstart : simulator.machine.tally.retired ≤ limit.toNat)
    (hr : simulator.run? fuel = some outcome) :
    outcome.simulator.machine.tally.retired ≤ limit.toNat := by
  have hnext (count : Nat) (hi : (simulator.after count).interruption? = none) :
      (simulator.after (count + 1)).machine.tally.retired ≤ limit.toNat := by
    obtain ⟨machine, console, hafter⟩ := simulator.exists_after_eq count
    have hlimit : (simulator.after count).limit = some limit := by rw [hafter, hl]
    have hlt := retired_lt_of_interruption? hlimit hi
    have hle := (simulator.after count).retired_step_le
    rw [after]
    omega
  obtain ⟨count, hgoes, hends⟩ := ends_of_run? hr
  cases hends with
  | interrupted status hi hr hs =>
    rw [hs]
    cases count with
    | zero => exact hstart
    | succ count => exact hnext count (hgoes count (Nat.lt_succ_self count)).1
  | stopped status hi hl hr hs | failed fault hi hl hr hs =>
    rw [hs]
    exact hnext count hi

-- The tally of a program is the account of what it has completed: each instruction is counted in
-- all, in its category and, if it is a branch, by its outcome. A step without an instruction, or
-- with one that fails, is counted nowhere. A run with a limit counts to the limit at most, and no
-- counter is full before 2^64 instructions.
theorem tally_accounts_for_run (program : List Instruction) (configuration : Configuration)
    (console : Console) {past : List Completion} {here : Simulator}
    (h : (ofProgram program configuration console).Reaches past here) :
    let tally := here.machine.tally
    (∀ category, tally.count category = category.among past) ∧
    tally.retired = tally.alu + tally.load + tally.store + tally.compare + tally.branch +
      tally.call + tally.stack + tally.console + tally.unknown ∧
    tally.taken + tally.notTaken = tally.branch ∧
    tally.taken = past.countP (·.isJump) + past.countP (·.decides true) ∧
    (∀ fault, here.step.result = .error fault → here.step.simulator.machine.tally = tally) ∧
    (here.isAtEnd = true →
      here.step.result = .ok (some .endOfProgram) ∧ here.step.simulator.machine.tally = tally) ∧
    tally.Within tally.retired ∧
    (∀ more, past.length + more < UInt64.size → tally.HasRoom more) ∧
    (∀ limit fuel outcome, configuration.limit = some limit →
      (ofProgram program configuration console).run? fuel = some outcome →
        outcome.simulator.machine.tally.retired ≤ limit.toNat ∧
        outcome.simulator.machine.tally.Within limit.toNat) := by
  intro tally
  have haccounts : tally.Accounts past := accounts_of_reaches rfl h
  refine ⟨haccounts.count, Tally.retired_eq_sum haccounts, Tally.taken_add_notTaken haccounts,
    haccounts.taken, ?_, ?_, Tally.within_retired haccounts, ?_, ?_⟩
  · intro fault hfault
    rw [machine_step_of_no_completion (completion?_of_error hfault)]
  · intro hend
    rw [machine_step_of_no_completion (completion?_of_isAtEnd hend), step, if_pos hend]
    exact ⟨rfl, rfl⟩
  · intro more hlt
    exact hasRoom_of_reaches rfl h hlt
  · intro limit fuel outcome hl hrun
    have hretired := retired_le_of_run? hl (Nat.zero_le _) hrun
    have hlast := accounts_of_reaches rfl (Reaches.run fuel .start hrun)
    exact ⟨hretired, Tally.within_of_le hretired (Tally.within_retired hlast)⟩

-- A program with a branch that is taken, one that is not, and a word that is skipped.
def varied : Simulator :=
  .ofProgram
    [.assemble .compare 0 0 0, .assemble (.branch .equal) 0 0 0, .assemble (.branch .less) 0 0 0,
      .decode 0xF0000000, .assemble (.branch .always) 0 0 0]
    { Configuration.default with policy := .lenient } (.ofInput [] .unlimited)

-- One step and a run to the end.
theorem varied_is_accounted :
    ∃ past here, varied.Reaches past here ∧ here.machine.tally.unknown = 1 ∧
      here.machine.tally.unknown = Category.among .unknown past ∧
      here.machine.tally.taken = 2 ∧ here.machine.tally.branch = 3 ∧
      here.machine.tally.taken + here.machine.tally.notTaken = here.machine.tally.branch := by
  have hends : (varied.step.simulator.run? 4).isSome = true := rfl
  have hstart : varied.Reaches [] varied := .start
  have hreaches := Reaches.run 4 hstart.step (Option.some_get hends).symm
  obtain ⟨hcount, -, hbranch, -⟩ := tally_accounts_for_run _ _ _ hreaches
  exact ⟨_, _, hreaches, rfl, hcount .unknown, rfl, rfl, hbranch⟩

end Simulator

end WordMachine
