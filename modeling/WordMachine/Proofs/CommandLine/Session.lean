import WordMachine.Proofs.CommandLine.Acceptance
import WordMachine.Proofs.CommandLine.Loading
import WordMachine.Proofs.Simulation.Limit

namespace WordMachine

namespace Simulator

-- The same simulator with its trace on or off.
def tracing (simulator : Simulator) (traced : Bool) : Simulator :=
  { simulator with traced }

-- A trace adds to the events of a step, and to nothing else.
theorem mirrorsStep_tracing (simulator : Simulator) (traced : Bool) :
    MirrorsStep (·.tracing traced) simulator :=
  mirrorsStep_of_execute ⟨fun _ => rfl, fun _ _ => rfl⟩ (fun _ hf => hf)
    fun i hf => ⟨i, hf, rfl, rfl⟩

theorem run?_tracing (simulator : Simulator) (traced : Bool) (fuel : Nat) :
    Option.Rel (MirrorsOutcome (·.tracing traced)) (simulator.run? fuel)
      ((simulator.tracing traced).run? fuel) :=
  run?_mirror (fun _ => rfl) fun _ _ _ _ => mirrorsStep_tracing _ traced

-- Only what is cancelled from outside ends as such.
theorem result_ne_cancelled {simulator : Simulator} {fuel : Nat} {outcome : Outcome Status}
    (hc : simulator.cancelled = false) (h : simulator.run? fuel = some outcome) :
    outcome.result ≠ .ok .cancelled := by
  obtain ⟨count, -, hends⟩ := ends_of_run? h
  intro hcancelled
  cases hends with
  | interrupted status hi hr hs =>
    obtain ⟨machine, console, hafter⟩ := simulator.exists_after_eq count
    cases hr.symm.trans hcancelled
    rw [hafter, interruption?] at hi
    simp only [hc, Bool.false_eq_true, ite_false] at hi
    split at hi
    · cases hi
    · split at hi <;> cases hi
  | stopped status hi hl hr hs =>
    cases hr.symm.trans hcancelled
    obtain h | h := status_of_step hl <;> cases h
  | failed fault hi hl hr hs => cases hr.symm.trans hcancelled

end Simulator

namespace CommandLine

-- What a session shows of the run of its program: all that was printed, before a fault as well,
-- and how it came to its end. No run of a session is cancelled.
structure Shows (output : Output) (outcome : Simulator.Outcome Status) : Prop where
  stdout : output.stdout = outcome.simulator.console.sink.text
  exitCode : match outcome.result with
    | .ok .halted | .ok .endOfProgram => output.exitCode = 0
    | .ok .stepLimit => output.exitCode = 2
    | .ok .cancelled => False
    | .error _ => output.exitCode = 1

-- An output without its error stream.
def Output.shown (output : Output) : Nat × String :=
  (output.exitCode, output.stdout)

-- Two invocations that differ in nothing but what is logged and reported.
structure Invocation.SameRun (here there : Invocation) : Prop where
  file : there.file = here.file
  configFile : there.configFile = here.configFile
  limit : there.limit = here.limit
  lenient : there.lenient = here.lenient
  disassemble : there.disassemble = here.disassemble

theorem unlines_singleton (line : String) : unlines [line] = line ++ "\n" := by
  simp [unlines, String.join]

theorem validate_of_loadConfiguration {read : Reader} {path? : Option String}
    {configuration : Configuration} (h : loadConfiguration read path? = .ok configuration) :
    configuration.validate = .ok () := by
  cases path? with
  | none =>
    cases h
    rfl
  | some path =>
    simp only [loadConfiguration] at h
    split at h
    · cases h
    · split at h
      · cases h
      · exact Configuration.validate_of_ofJson h

-- What the log says of a configuration that is in force.
def Invocation.opening (invocation : Invocation) (wish : Option String)
    (configuration : Configuration) : String :=
  unlines ((filterFor invocation wish).lines [.configured (invocation.override configuration)])

section Prepare

variable {arguments : List String} {invocation : Invocation}
  (h : Request.ofArguments arguments = .ok (.run invocation)) (wish : Option String)
  {read : Reader} (input : List UInt8) {configuration : Configuration}

include h

-- Nothing is logged before there is a configuration.
theorem prepare_of_configurationError {error : ConfigurationError}
    (hc : loadConfiguration read invocation.configFile = .error error) :
    prepare arguments wish read input =
      .finished ⟨1, "", "" ++ unlines ["Error: " ++ error.message]⟩ := by
  simp only [prepare, h, Invocation.prepare, hc]
  rfl

variable (hc : loadConfiguration read invocation.configFile = .ok configuration)
include hc

theorem prepare_of_loadError {error : LoadError}
    (hl : loadProgram read invocation.file configuration.byteOrder = .error error) :
    prepare arguments wish read input =
      .finished ⟨1, "", invocation.opening wish configuration ++
        unlines ["Error: " ++ error.message]⟩ := by
  simp only [prepare, h, Invocation.prepare, hc, Invocation.override, hl]
  rfl

variable {words : List UInt32} {event : Log.Event}
  (hl : loadProgram read invocation.file configuration.byteOrder = .ok (words, event))
include hl

-- A listing is finished before there is a simulator.
theorem prepare_of_disassemble (hd : invocation.disassemble = true) :
    prepare arguments wish read input =
      .finished ⟨0, unlines (Program.listing (words.map Instruction.decode)),
        invocation.opening wish configuration ++
          unlines ((filterFor invocation wish).lines [event])⟩ := by
  simp only [prepare, h, Invocation.prepare, hc, Invocation.override, hl, hd, ite_true]
  rfl

theorem prepare_of_not_disassemble (hd : invocation.disassemble = false) :
    prepare arguments wish read input =
      .ready ⟨invocation, filterFor invocation wish,
        .ofWords words (invocation.override configuration) (.ofInput input .unlimited),
        invocation.opening wish configuration ++
          unlines ((filterFor invocation wish).lines [event])⟩ := by
  simp only [prepare, h, Invocation.prepare, hc, Invocation.override, hl, hd, Bool.false_eq_true,
    ite_false]
  rfl

end Prepare

section Session

variable {arguments : List String} {wish : Option String} {read : Reader} {input : List UInt8}

theorem session?_of_finished {output : Output}
    (h : prepare arguments wish read input = .finished output) (fuel : Nat) :
    session? arguments wish read input fuel = some output := by
  rw [session?, h]

theorem session?_of_ready {job : Job} (h : prepare arguments wish read input = .ready job)
    (fuel : Nat) :
    session? arguments wish read input fuel = (job.simulator.run? fuel).map job.conclude := by
  rw [session?, h]

theorem shows_conclude (job : Job) {outcome : Simulator.Outcome Status}
    (h : outcome.result ≠ .ok .cancelled) : Shows (job.conclude outcome) outcome := by
  refine ⟨rfl, ?_⟩
  unfold Job.conclude
  cases hr : outcome.result with
  | error fault => rfl
  | ok status =>
    cases status with
    | cancelled => exact h hr
    | halted | endOfProgram | stepLimit => rfl

-- A session is a run of its simulator.
theorem shows_of_ready {job : Job} (h : prepare arguments wish read input = .ready job)
    (hc : job.simulator.cancelled = false) (fuel : Nat) :
    Option.Rel Shows (session? arguments wish read input fuel) (job.simulator.run? fuel) := by
  rw [session?_of_ready h]
  cases hrun : job.simulator.run? fuel with
  | none => exact .none
  | some outcome => exact .some (shows_conclude job (Simulator.result_ne_cancelled hc hrun))

-- A trace is not seen but in the error stream.
theorem shown_of_tracing {others : List String} {wish' : Option String} {job other : Job}
    (h : prepare arguments wish read input = .ready job)
    (h' : prepare others wish' read input = .ready other) (traced : Bool)
    (hsimulator : other.simulator = job.simulator.tracing traced) (fuel : Nat) :
    (session? others wish' read input fuel).map Output.shown =
      (session? arguments wish read input fuel).map Output.shown := by
  have hmirror := job.simulator.run?_tracing traced fuel
  rw [session?_of_ready h, session?_of_ready h', hsimulator, Option.map_map, Option.map_map]
  generalize job.simulator.run? fuel = outcome? at hmirror ⊢
  generalize (job.simulator.tracing traced).run? fuel = other? at hmirror ⊢
  cases hmirror with
  | none => rfl
  | some hends =>
    simp only [Option.map_some, Function.comp, Output.shown, Job.conclude, hends.result,
      hends.simulator]
    rfl

end Session

-- Whatever is asked of the log and of the reports, the exit code and what is printed stay.
theorem shown_of_sameRun {arguments others : List String} {here there : Invocation}
    (h : Request.ofArguments arguments = .ok (.run here))
    (h' : Request.ofArguments others = .ok (.run there)) (hsame : here.SameRun there)
    (wish wish' : Option String) (read : Reader) (input : List UInt8) (fuel : Nat) :
    (session? others wish' read input fuel).map Output.shown =
      (session? arguments wish read input fuel).map Output.shown := by
  have hfinished {output output' : Output}
      (hp : prepare arguments wish read input = .finished output)
      (hp' : prepare others wish' read input = .finished output')
      (hshown : output'.shown = output.shown) :
      (session? others wish' read input fuel).map Output.shown =
        (session? arguments wish read input fuel).map Output.shown := by
    rw [session?_of_finished hp, session?_of_finished hp', Option.map_some, Option.map_some,
      hshown]
  cases hc : loadConfiguration read here.configFile with
  | error error =>
    have hc' := hsame.configFile ▸ hc
    exact hfinished (prepare_of_configurationError h wish input hc)
      (prepare_of_configurationError h' wish' input hc') rfl
  | ok configuration =>
    have hc' := hsame.configFile ▸ hc
    cases hl : loadProgram read here.file configuration.byteOrder with
    | error error =>
      have hl' := hsame.file ▸ hl
      exact hfinished (prepare_of_loadError h wish input hc hl)
        (prepare_of_loadError h' wish' input hc' hl') rfl
    | ok loaded =>
      obtain ⟨words, event⟩ := loaded
      have hl' := hsame.file ▸ hl
      cases hd : here.disassemble with
      | true =>
        have hd' := hsame.disassemble.trans hd
        exact hfinished (prepare_of_disassemble h wish input hc hl hd)
          (prepare_of_disassemble h' wish' input hc' hl' hd') rfl
      | false =>
        have hd' := hsame.disassemble.trans hd
        apply shown_of_tracing (prepare_of_not_disassemble h wish input hc hl hd)
          (prepare_of_not_disassemble h' wish' input hc' hl' hd')
          (there.traced || configuration.traced)
        simp only [Invocation.override, hsame.lenient, hsame.limit]
        rfl

-- What may be behind the message of an error: nothing, or the place where a text is malformed.
def Trails (place : String) (error : ConfigurationError) : Prop :=
  place = "" ∨ ∃ problem, error = .malformed problem

end CommandLine

end WordMachine
