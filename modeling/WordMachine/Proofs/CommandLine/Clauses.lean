import WordMachine.CommandLine.Arguments
import WordMachine.Proofs.Decimal.Acceptance

namespace WordMachine.CommandLine

-- One thing that the arguments ask for: a switch, or a value for what takes one.
inductive Clause where
  | switch (switch : Switch)
  | value (slot : Slot) (text : String)
  deriving DecidableEq, Repr

def Clause.value? (slot : Slot) : Clause → Option String
  | .switch _ => none
  | .value other text => if other = slot then some text else none

-- The switches that can be asked for by a letter.
def Switch.ofLetter? : Char → Option Switch
  | 't' => some .trace
  | 'd' => some .disassemble
  | _ => none

-- An argument that asks for switches, and maybe for a value that is still to come.
inductive Asks : List Char → List Switch → Option Slot → Prop where
  | lenient : Asks "--lenient".toList [.lenient] none
  | trace : Asks "--trace".toList [.trace] none
  | disassemble : Asks "--disassemble".toList [.disassemble] none
  | stats : Asks "--stats".toList [.stats] none
  | dumpState : Asks "--dump-state".toList [.dumpState] none
  | config : Asks "--config".toList [] (some .config)
  | limit : Asks "--max-instructions".toList [] (some .limit)
  | letters {letters : List Char} {switches : List Switch}
      (h : letters.map Switch.ofLetter? = switches.map some) (hne : letters ≠ []) :
      Asks ('-' :: letters) switches none
  | lettersConfig {letters : List Char} {switches : List Switch}
      (h : letters.map Switch.ofLetter? = switches.map some) :
      Asks ('-' :: (letters ++ ['c'])) switches (some .config)

-- An argument that ends with a value: behind an equals sign, or behind the letter that takes it.
inductive Gives : List Char → List Switch → Slot → List Char → Prop where
  | equals {option : List Char} {switches : List Switch} {slot : Slot}
      (h : Asks option switches (some slot)) (value : List Char) :
      Gives (option ++ '=' :: value) switches slot value
  | glued {letters : List Char} {switches : List Switch}
      (h : letters.map Switch.ofLetter? = switches.map some) {c : Char} (hc : c ≠ '=')
      (value : List Char) :
      Gives ('-' :: (letters ++ 'c' :: c :: value)) switches .config (c :: value)

-- A text that stands for itself: it does not begin as an option does.
def IsPlain (argument : List Char) : Prop :=
  ∀ c rest, argument ≠ '-' :: c :: rest

-- The arguments that ask for the clauses, in their order. After `--` there are files alone.
inductive Writes : List Clause → List String → Prop where
  | nothing : Writes [] []
  | switches {argument : String} {switches : List Switch} {clauses : List Clause}
      {arguments : List String} (h : Asks argument.toList switches none)
      (hrest : Writes clauses arguments) :
      Writes (switches.map .switch ++ clauses) (argument :: arguments)
  | given {argument : String} {switches : List Switch} {slot : Slot} {value : List Char}
      {clauses : List Clause} {arguments : List String}
      (h : Gives argument.toList switches slot value) (hrest : Writes clauses arguments) :
      Writes (switches.map .switch ++ .value slot (String.ofList value) :: clauses)
        (argument :: arguments)
  | next {argument value : String} {switches : List Switch} {slot : Slot}
      {clauses : List Clause} {arguments : List String}
      (h : Asks argument.toList switches (some slot)) (hv : IsPlain value.toList)
      (hrest : Writes clauses arguments) :
      Writes (switches.map .switch ++ .value slot value :: clauses)
        (argument :: value :: arguments)
  | file {path : String} {clauses : List Clause} {arguments : List String}
      (h : IsPlain path.toList) (hrest : Writes clauses arguments) :
      Writes (.value .file path :: clauses) (path :: arguments)
  | files (paths : List String) : Writes (paths.map (.value .file)) ("--" :: paths)

-- Nothing is asked for twice, and no value is empty.
structure Orderly (clauses : List Clause) : Prop where
  once : clauses.Nodup
  filled : ∀ slot, .value slot "" ∉ clauses

-- The limit that some texts ask for, of which there is one at most.
inductive Limits : List String → Option UInt64 → Prop where
  | none : Limits [] none
  | some (digits : String) (limit : UInt64) (h : Decimal.Counts digits.toList limit.toNat) :
      Limits [digits] (some limit)

-- What the invocation holds is what the clauses ask for.
structure Invocation.Follows (invocation : Invocation) (clauses : List Clause) : Prop where
  file : clauses.filterMap (Clause.value? .file) = [invocation.file]
  configFile : clauses.filterMap (Clause.value? .config) = invocation.configFile.toList
  limit : Limits (clauses.filterMap (Clause.value? .limit)) invocation.limit
  lenient : invocation.lenient = true ↔ .switch .lenient ∈ clauses
  traced : invocation.traced = true ↔ .switch .trace ∈ clauses
  disassemble : invocation.disassemble = true ↔ .switch .disassemble ∈ clauses
  stats : invocation.stats = true ↔ .switch .stats ∈ clauses
  dumpState : invocation.dumpState = true ↔ .switch .dumpState ∈ clauses

theorem exists_of_bind {ε α β : Type} {x : Except ε α} {f : α → Except ε β} {b : β}
    (h : x >>= f = .ok b) : ∃ a, x = .ok a ∧ f a = .ok b := by
  cases x with
  | error e => cases h
  | ok a => exact ⟨a, rfl, h⟩

theorem ok_of_mapError {ε ε' α : Type} {x : Except ε α} {f : ε → ε'} {a : α}
    (h : x.mapError f = .ok a) : x = .ok a := by
  cases x with
  | error e => cases h
  | ok b => exact congrArg _ (Except.ok.inj h)

namespace Progress

variable {progress after : Progress} {said : List Clause} {slot : Slot}

-- The clause whose value is not looked at yet.
def waiting (progress : Progress) : List Clause :=
  match progress.pending with
  | some (slot, some text) => [.value slot text]
  | _ => []

-- The clauses that were looked at, as far as they can be told from the progress.
structure Took (progress : Progress) (said : List Clause) : Prop where
  switches : ∀ switch, switch ∈ progress.switches ↔ .switch switch ∈ said
  file : said.filterMap (Clause.value? .file) = progress.file.toList
  configFile : said.filterMap (Clause.value? .config) = progress.configFile.toList
  limit : Limits (said.filterMap (Clause.value? .limit)) progress.limit
  orderly : Orderly said

-- All that was said is taken, but for a value that waits.
def Holds (progress : Progress) (said : List Clause) : Prop :=
  ∃ taken, progress.Took taken ∧ said = taken ++ progress.waiting

theorem took_start : start.Took [] := by
  refine ⟨?_, rfl, rfl, .none, .nil, fun _ => List.not_mem_nil⟩
  intro switch
  simp [start]

-- What waits is no part of what was looked at.
theorem took_waiting (h : progress.Took said) (hasFile : Bool)
    (pending : Option (Slot × Option String)) : Took { progress with hasFile, pending } said :=
  ⟨h.switches, h.file, h.configFile, h.limit, h.orderly⟩

theorem holds_of_took (h : progress.Took said) (hp : progress.pending = none) :
    progress.Holds said := by
  refine ⟨said, h, ?_⟩
  rw [waiting, hp]
  exact (List.append_nil said).symm

theorem took_of_holds (h : progress.Holds said) (hp : progress.pending = none) :
    progress.Took said := by
  obtain ⟨taken, htook, rfl⟩ := h
  rwa [waiting, hp, List.append_nil]

-- A path is set once, and is not empty.
theorem setPath_eq_ok_iff {before path : Option String} {value : String} :
    setPath slot before value = .ok path ↔ before = none ∧ value ≠ "" ∧ path = some value := by
  unfold setPath
  cases before with
  | some path => simp
  | none =>
    by_cases hv : value = ""
    · simp [hv]
    · constructor
      · intro h
        simp only [Option.isSome_none, Bool.false_eq_true, ite_false, String.isEmpty_iff, hv] at h
        exact ⟨rfl, hv, (Except.ok.inj h).symm⟩
      · rintro ⟨-, -, rfl⟩
        simp [hv]

theorem orderly_concat {clause : Clause} (h : Orderly said) (hnew : clause ∉ said)
    (hfilled : ∀ slot, clause ≠ .value slot "") : Orderly (said ++ [clause]) := by
  constructor
  · rw [List.nodup_append]
    refine ⟨h.once, by simp, ?_⟩
    intro earlier hmem later hlater heq
    rw [List.mem_singleton.mp hlater] at heq
    exact hnew (heq ▸ hmem)
  · intro slot hmem
    rcases List.mem_append.mp hmem with hmem | hmem
    · exact h.filled slot hmem
    · exact hfilled slot (List.mem_singleton.mp hmem).symm

theorem not_mem_of_filterMap {value : String}
    (h : said.filterMap (Clause.value? slot) = []) : .value slot value ∉ said := by
  intro hmem
  have hnone := List.filterMap_eq_nil_iff.mp h _ hmem
  simp [Clause.value?] at hnone

-- A value that is looked at is the first of its slot.
theorem took_assign {value : String} (h : progress.Took said)
    (ha : progress.assign slot value = .ok after) :
    after.Took (said ++ [.value slot value]) ∧ after.pending = progress.pending := by
  have hswitches (switch : Switch) :
      switch ∈ progress.switches ↔ .switch switch ∈ said ++ [.value slot value] := by
    rw [h.switches, List.mem_append]
    simp
  have hadded : (said ++ [Clause.value slot value]).filterMap (Clause.value? slot) =
      said.filterMap (Clause.value? slot) ++ [value] := by
    simp [List.filterMap_append, Clause.value?]
  have hkept (other : Slot) (hne : slot ≠ other) :
      (said ++ [Clause.value slot value]).filterMap (Clause.value? other) =
        said.filterMap (Clause.value? other) := by
    simp [List.filterMap_append, Clause.value?, hne]
  have horderly (hempty : said.filterMap (Clause.value? slot) = []) (hvalue : value ≠ "") :
      Orderly (said ++ [.value slot value]) := by
    apply orderly_concat h.orderly (not_mem_of_filterMap hempty)
    intro other heq
    cases heq
    exact hvalue rfl
  cases slot with
  | file =>
    obtain ⟨path, hpath, hafter⟩ := exists_of_bind ha
    cases hafter
    obtain ⟨hnone, hvalue, rfl⟩ := setPath_eq_ok_iff.mp hpath
    have hempty : said.filterMap (Clause.value? .file) = [] := by
      rw [h.file, hnone]
      rfl
    refine ⟨⟨hswitches, ?_, (hkept .config (by decide)).trans h.configFile, ?_,
      horderly hempty hvalue⟩, rfl⟩
    · rw [hadded, hempty]
      rfl
    · rw [hkept .limit (by decide)]
      exact h.limit
  | config =>
    obtain ⟨path, hpath, hafter⟩ := exists_of_bind ha
    cases hafter
    obtain ⟨hnone, hvalue, rfl⟩ := setPath_eq_ok_iff.mp hpath
    have hempty : said.filterMap (Clause.value? .config) = [] := by
      rw [h.configFile, hnone]
      rfl
    refine ⟨⟨hswitches, (hkept .file (by decide)).trans h.file, ?_, ?_,
      horderly hempty hvalue⟩, rfl⟩
    · rw [hadded, hempty]
      rfl
    · rw [hkept .limit (by decide)]
      exact h.limit
  | limit =>
    simp only [assign] at ha
    split at ha
    · cases ha
    · next hnone =>
      split at ha
      · next n hread =>
        cases ha
        obtain ⟨hcounts, hlt⟩ := (Decimal.readUnsigned_eq_ok_iff (by decide)).mp hread
        have hlimit : progress.limit = none := by
          cases hl : progress.limit with
          | none => rfl
          | some limit => exact absurd (congrArg Option.isSome hl) hnone
        have hempty : said.filterMap (Clause.value? .limit) = [] := by
          have hlimits := h.limit
          rw [hlimit] at hlimits
          generalize said.filterMap (Clause.value? .limit) = texts at hlimits
          cases hlimits
          rfl
        have hvalue : value ≠ "" := by
          rintro rfl
          cases hread
        refine ⟨⟨hswitches, (hkept .file (by decide)).trans h.file,
          (hkept .config (by decide)).trans h.configFile, ?_, horderly hempty hvalue⟩, rfl⟩
        rw [hadded, hempty]
        refine .some value (UInt64.ofNat n) ?_
        rwa [UInt64.toNat_ofNat_of_lt' hlt]
      · cases ha

-- Nothing is settled while a slot is still without its value.
theorem of_settle (hs : progress.settle = .ok after) :
    progress.awaits? = none ∧
      ∀ said, progress.Holds said → after.Took said ∧ after.pending = none := by
  unfold settle at hs
  split at hs
  · next hp =>
    cases hs
    refine ⟨by rw [awaits?, hp], ?_⟩
    rintro _ ⟨taken, htook, rfl⟩
    rw [waiting, hp, List.append_nil]
    exact ⟨htook, rfl⟩
  · cases hs
  · next slot value hp =>
    refine ⟨by rw [awaits?, hp], ?_⟩
    rintro _ ⟨taken, htook, rfl⟩
    rw [waiting, hp]
    exact took_assign (took_waiting htook _ none) hs

-- The requests for help and for the version are no part of a run.
theorem of_takeSwitch {switch : Switch} (ht : progress.takeSwitch switch = .ok after) :
    progress.awaits? = none ∧ switch ≠ .help ∧ switch ≠ .version ∧
      ∀ said, progress.Holds said →
        after.Took (said ++ [.switch switch]) ∧ after.pending = none := by
  obtain ⟨settled, hs, ht⟩ := exists_of_bind ht
  obtain ⟨hawaits, hsettled⟩ := of_settle (ok_of_mapError hs)
  have hadded : switch ≠ .help ∧ switch ≠ .version ∧ switch ∉ settled.switches ∧
      after = { settled with switches := switch :: settled.switches } := by
    by_cases hmem : switch ∈ settled.switches
    · cases switch <;> simp only [hmem, ite_true] at ht <;> cases ht
    · cases switch <;> simp only [hmem, ite_false] at ht <;> cases ht <;>
        exact ⟨by decide, by decide, hmem, rfl⟩
  obtain ⟨hhelp, hversion, hnew, rfl⟩ := hadded
  refine ⟨hawaits, hhelp, hversion, ?_⟩
  intro said hholds
  obtain ⟨htook, hp⟩ := hsettled said hholds
  have hkept (slot : Slot) : (said ++ [Clause.switch switch]).filterMap (Clause.value? slot) =
      said.filterMap (Clause.value? slot) := by
    rw [List.filterMap_append]
    exact List.append_nil _
  refine ⟨⟨?_, ?_, ?_, ?_, ?_⟩, hp⟩
  · intro other
    rw [List.mem_cons, List.mem_append, List.mem_singleton, htook.switches, Clause.switch.injEq,
      or_comm]
  · rw [hkept, htook.file]
  · rw [hkept, htook.configFile]
  · rw [hkept]
    exact htook.limit
  · rw [htook.switches] at hnew
    exact orderly_concat htook.orderly hnew nofun

theorem of_takeSlot {attached : Option String}
    (ht : progress.takeSlot slot attached = .ok after) :
    progress.awaits? = none ∧ ∀ said, progress.Holds said →
      (attached = none → after.Took said ∧ after.pending = some (slot, none)) ∧
      ∀ value, attached = some value →
        after.Took (said ++ [.value slot value]) ∧ after.pending = none := by
  obtain ⟨settled, hs, ht⟩ := exists_of_bind ht
  obtain ⟨hawaits, hsettled⟩ := of_settle hs
  refine ⟨hawaits, ?_⟩
  intro said hholds
  obtain ⟨htook, hp⟩ := hsettled said hholds
  constructor
  · rintro rfl
    cases ht
    exact ⟨took_waiting htook _ _, rfl⟩
  · rintro value rfl
    obtain ⟨htook', hp'⟩ := took_assign htook ht
    exact ⟨htook', hp'.trans hp⟩

-- What becomes of the progress with an argument that is an option: all of it is taken, or there
-- is a slot at its end whose value is to come.
inductive Reads (argument : List Char) (said : List Clause) (after : Progress) : Prop where
  | switches {switches : List Switch} (h : Asks argument switches none)
      (ht : after.Took (said ++ switches.map .switch)) (hp : after.pending = none)
  | given {switches : List Switch} {slot : Slot} {value : List Char}
      (h : Gives argument switches slot value)
      (ht : after.Took (said ++ (switches.map .switch ++ [.value slot (String.ofList value)])))
      (hp : after.pending = none)
  | toCome {switches : List Switch} {slot : Slot} (h : Asks argument switches (some slot))
      (ht : after.Took (said ++ switches.map .switch)) (hp : after.pending = some (slot, none))

theorem asks_of_switch {name : String} {switch : Switch}
    (h : Flag.ofName? name = some (.switch switch)) (hhelp : switch ≠ .help)
    (hversion : switch ≠ .version) : Asks ('-' :: '-' :: name.toList) [switch] none := by
  unfold Flag.ofName? at h
  split at h <;> cases h
  · exact .lenient
  · exact .trace
  · exact .disassemble
  · exact .stats
  · exact .dumpState
  · exact absurd rfl hhelp
  · exact absurd rfl hversion

theorem asks_of_slot {name : String} (h : Flag.ofName? name = some (.slot slot)) :
    Asks ('-' :: '-' :: name.toList) [] (some slot) := by
  unfold Flag.ofName? at h
  split at h <;> cases h
  · exact .config
  · exact .limit

-- An option by its name, and what is behind an equals sign.
theorem of_takeLong {option : List Char} (ht : progress.takeLong option = .ok after) :
    progress.awaits? = none ∧
      ∀ said, progress.Holds said → Reads ('-' :: '-' :: option) said after := by
  have hoption := List.takeWhile_append_dropWhile (p := (· ≠ '=')) (l := option)
  simp only [takeLong] at ht
  generalize hname : String.ofList (option.takeWhile (· ≠ '=')) = name at ht
  have hchars : option.takeWhile (· ≠ '=') = name.toList := by rw [← hname, String.toList_ofList]
  cases hrest : option.dropWhile (· ≠ '=') with
  | nil =>
    rw [hchars, hrest, List.append_nil] at hoption
    rw [hrest] at ht
    cases hf : Flag.ofName? name with
    | none =>
      rw [hf] at ht
      cases ht
    | some flag =>
      rw [hf] at ht
      cases flag with
      | switch switch =>
        obtain ⟨hawaits, hhelp, hversion, htakes⟩ := of_takeSwitch ht
        refine ⟨hawaits, ?_⟩
        intro said hholds
        obtain ⟨htook, hp⟩ := htakes said hholds
        have hasks : Asks ('-' :: '-' :: option) [switch] none :=
          hoption ▸ asks_of_switch hf hhelp hversion
        exact .switches hasks htook hp
      | slot slot =>
        obtain ⟨hawaits, htakes⟩ := of_takeSlot (ok_of_mapError ht)
        refine ⟨hawaits, ?_⟩
        intro said hholds
        obtain ⟨htook, hp⟩ := (htakes said hholds).1 rfl
        refine .toCome (hoption ▸ asks_of_slot hf) ?_ hp
        rwa [List.map_nil, List.append_nil]
  | cons c value =>
    have hc : c = '=' := by
      have hhead := List.head?_dropWhile_not (· ≠ '=') option
      rw [hrest] at hhead
      simpa using hhead
    rw [hchars, hrest, hc] at hoption
    rw [hrest] at ht
    cases hf : Flag.ofName? name with
    | none =>
      rw [hf] at ht
      cases ht
    | some flag =>
      rw [hf] at ht
      cases flag with
      | switch switch => cases ht
      | slot slot =>
        obtain ⟨hawaits, htakes⟩ := of_takeSlot (ok_of_mapError ht)
        refine ⟨hawaits, ?_⟩
        intro said hholds
        obtain ⟨htook, hp⟩ := (htakes said hholds).2 _ rfl
        have hgives : Gives ('-' :: '-' :: option) [] slot value :=
          hoption ▸ .equals (asks_of_slot hf) value
        exact .given hgives htook hp

theorem ofLetter?_of_switch {letter : Char} {switch : Switch}
    (h : Flag.ofLetter? letter = some (.switch switch)) (hhelp : switch ≠ .help)
    (hversion : switch ≠ .version) : Switch.ofLetter? letter = some switch := by
  unfold Flag.ofLetter? at h
  split at h <;> cases h
  · rfl
  · rfl
  · exact absurd rfl hhelp
  · exact absurd rfl hversion

theorem eq_of_slot {letter : Char} (h : Flag.ofLetter? letter = some (.slot slot)) :
    letter = 'c' ∧ slot = .config := by
  unfold Flag.ofLetter? at h
  split at h <;> cases h
  exact ⟨rfl, rfl⟩

-- The letters of one argument, behind letters of switches that were taken already.
theorem reads_takeLetters {letters : List Char} (ht : progress.takeLetters letters = .ok after)
    {before : List Char} {switches : List Switch}
    (hbefore : before.map Switch.ofLetter? = switches.map some) {said : List Clause}
    (hholds : progress.Holds (said ++ switches.map .switch))
    (hp : before ≠ [] → progress.pending = none) (hne : before ++ letters ≠ []) :
    Reads ('-' :: (before ++ letters)) said after := by
  induction letters generalizing progress before switches with
  | nil =>
    cases ht
    rw [List.append_nil] at hne ⊢
    exact .switches (.letters hbefore hne) (took_of_holds hholds (hp hne)) (hp hne)
  | cons letter letters ih =>
    rw [takeLetters.eq_def] at ht
    simp only at ht
    split at ht
    · cases ht
    · next switch hf =>
      obtain ⟨taken, hs, ht⟩ := exists_of_bind ht
      obtain ⟨-, hhelp, hversion, htakes⟩ := of_takeSwitch hs
      obtain ⟨htook', hp'⟩ := htakes _ hholds
      have hletters : (before ++ [letter]).map Switch.ofLetter? =
          (switches ++ [switch]).map some := by
        rw [List.map_append, List.map_append, hbefore]
        exact congrArg _ (congrArg ([·]) (ofLetter?_of_switch hf hhelp hversion))
      rw [List.append_assoc] at htook'
      have hholds' : taken.Holds (said ++ (switches ++ [switch]).map .switch) := by
        rw [List.map_append]
        exact holds_of_took htook' hp'
      have hrest := ih ht hletters hholds' (fun _ => hp') (by simp)
      rwa [List.append_assoc] at hrest
    · next slot hf =>
      obtain ⟨rfl, rfl⟩ := eq_of_slot hf
      obtain ⟨hnone, hsome⟩ := (of_takeSlot (ok_of_mapError ht)).2 _ hholds
      match letters with
      | [] =>
        obtain ⟨htook, hp'⟩ := hnone rfl
        exact .toCome (.lettersConfig hbefore) htook hp'
      | c :: value =>
        by_cases hc : c = '='
        · subst hc
          obtain ⟨htook, hp'⟩ := hsome _ rfl
          have hgives : Gives ('-' :: (before ++ ['c']) ++ '=' :: value) switches .config value :=
            .equals (.lettersConfig hbefore) value
          rw [List.cons_append, List.append_assoc] at hgives
          rw [List.append_assoc] at htook
          exact .given hgives htook hp'
        · obtain ⟨htook, hp'⟩ := hsome (String.ofList (c :: value)) (by simp [hc])
          rw [List.append_assoc] at htook
          exact .given (.glued hbefore hc value) htook hp'

theorem awaits?_of_takeLetters {letter : Char} {letters : List Char}
    (ht : progress.takeLetters (letter :: letters) = .ok after) : progress.awaits? = none := by
  rw [takeLetters.eq_def] at ht
  simp only at ht
  split at ht
  · cases ht
  · obtain ⟨taken, hs, -⟩ := exists_of_bind ht
    exact (of_takeSwitch hs).1
  · exact (of_takeSlot (ok_of_mapError ht)).1

-- A positional argument is a file, unless it is the value that a slot waits for.
theorem of_takeValue {isTrailing : Bool} {argument : String}
    (h : isTrailing = true ∨ progress.awaits? = none)
    (ht : progress.takeValue isTrailing argument = .ok after) :
    progress.awaits? = none ∧ after.awaits? = none ∧
      ∀ said, progress.Holds said → after.Holds (said ++ [.value .file argument]) := by
  unfold takeValue at ht
  split at ht
  · next slot hslot =>
    rcases h with h | h
    · cases h
    · cases h.symm.trans hslot
  · split at ht
    · cases ht
    · obtain ⟨settled, hs, ht⟩ := exists_of_bind ht
      cases ht
      obtain ⟨hawaits, hsettled⟩ := of_settle hs
      refine ⟨hawaits, rfl, ?_⟩
      intro said hholds
      obtain ⟨htook, -⟩ := hsettled said hholds
      exact ⟨said, took_waiting htook _ _, rfl⟩

theorem of_takeAll_trailing {paths : List String}
    (ht : progress.takeAll true paths = .ok after) :
    progress.awaits? = none ∧
      ∀ said, progress.Holds said → after.Took (said ++ paths.map (.value .file)) := by
  induction paths generalizing progress with
  | nil =>
    obtain ⟨hawaits, hsettled⟩ := of_settle (ok_of_mapError ht)
    refine ⟨hawaits, ?_⟩
    intro said hholds
    rw [List.map_nil, List.append_nil]
    exact (hsettled said hholds).1
  | cons path paths ih =>
    rw [takeAll.eq_def] at ht
    simp only at ht
    obtain ⟨taken, hv, ht⟩ := exists_of_bind ht
    obtain ⟨hawaits, -, htaken⟩ := of_takeValue (.inl rfl) (ok_of_mapError hv)
    refine ⟨hawaits, ?_⟩
    intro said hholds
    have hrest := (ih ht).2 _ (htaken said hholds)
    rwa [List.append_assoc] at hrest

-- From one progress to another, with the arguments between them: they give the rest of the clauses,
-- after the value that is waited for.
structure Goes (progress : Progress) (arguments : List String) (after : Progress) : Prop where
  clauses : ∀ said, progress.Holds said → progress.awaits? = none →
    ∃ clauses, Writes clauses arguments ∧ after.Took (said ++ clauses)
  value : ∀ said slot, progress.Took said → progress.pending = some (slot, none) →
    ∃ value rest clauses, arguments = value :: rest ∧ IsPlain value.toList ∧
      Writes clauses rest ∧ after.Took (said ++ .value slot value :: clauses)

-- No value is to come where none is waited for.
theorem goes_of_awaits? {arguments : List String} (h : progress.awaits? = none)
    (hc : ∀ said, progress.Holds said →
      ∃ clauses, Writes clauses arguments ∧ after.Took (said ++ clauses)) :
    progress.Goes arguments after where
  clauses said hholds _ := hc said hholds
  value said slot _ hp := by
    rw [awaits?, hp] at h
    cases h

theorem goes_of_reads {taken : Progress} {argument : String} {arguments : List String}
    (h : progress.awaits? = none)
    (hr : ∀ said, progress.Holds said → Reads argument.toList said taken)
    (hg : taken.Goes arguments after) : progress.Goes (argument :: arguments) after := by
  apply goes_of_awaits? h
  intro said hholds
  cases hr said hholds with
  | switches h htook hp =>
    have hfree : taken.awaits? = none := by rw [awaits?, hp]
    obtain ⟨clauses, hwrites, hafter⟩ := hg.clauses _ (holds_of_took htook hp) hfree
    rw [List.append_assoc] at hafter
    exact ⟨_, .switches h hwrites, hafter⟩
  | given h htook hp =>
    have hfree : taken.awaits? = none := by rw [awaits?, hp]
    obtain ⟨clauses, hwrites, hafter⟩ := hg.clauses _ (holds_of_took htook hp) hfree
    rw [List.append_assoc, List.append_assoc] at hafter
    exact ⟨_, .given h hwrites, hafter⟩
  | toCome h htook hp =>
    obtain ⟨value, rest, clauses, rfl, hplain, hwrites, hafter⟩ := hg.value _ _ htook hp
    rw [List.append_assoc] at hafter
    exact ⟨_, .next h hplain hwrites, hafter⟩

theorem goes_of_takeAll {arguments : List String}
    (ht : progress.takeAll false arguments = .ok after) : progress.Goes arguments after := by
  induction arguments generalizing progress with
  | nil =>
    obtain ⟨hawaits, hsettled⟩ := of_settle (ok_of_mapError ht)
    apply goes_of_awaits? hawaits
    intro said hholds
    refine ⟨[], .nothing, ?_⟩
    rw [List.append_nil]
    exact (hsettled said hholds).1
  | cons argument arguments ih =>
    rw [takeAll.eq_def] at ht
    simp only at ht
    split at ht
    · next hdashes =>
      have hargument : argument = "--" := String.toList_inj.mp hdashes
      obtain ⟨hawaits, htaken⟩ := of_takeAll_trailing ht
      subst hargument
      apply goes_of_awaits? hawaits
      intro said hholds
      exact ⟨_, .files arguments, htaken said hholds⟩
    · next hargument =>
      obtain ⟨taken, hlong, hrest⟩ := exists_of_bind ht
      obtain ⟨hawaits, hreads⟩ := of_takeLong hlong
      rw [← hargument] at hreads
      exact goes_of_reads hawaits hreads (ih hrest)
    · next letter letters _ _ _ hargument =>
      obtain ⟨taken, hletters, hrest⟩ := exists_of_bind ht
      have hreads (said : List Clause) (hholds : progress.Holds said) :
          Reads argument.toList said taken := by
        rw [hargument]
        have hstart : progress.Holds (said ++ ([] : List Switch).map .switch) := by
          rwa [List.map_nil, List.append_nil]
        have hbefore : ([] : List Char).map Switch.ofLetter? = ([] : List Switch).map some := rfl
        exact reads_takeLetters hletters hbefore hstart (fun hne => absurd rfl hne)
          (List.cons_ne_nil _ _)
      exact goes_of_reads (awaits?_of_takeLetters hletters) hreads (ih hrest)
    · next hdashes hlong hletters =>
      have hplain : IsPlain argument.toList := fun c rest => hletters c rest rfl
      obtain ⟨taken, hvalue, hrest⟩ := exists_of_bind ht
      have hvalue := ok_of_mapError hvalue
      have hgoes := ih hrest
      cases hawaits : progress.awaits? with
      | none =>
        obtain ⟨-, hfree, htaken⟩ := of_takeValue (.inr hawaits) hvalue
        apply goes_of_awaits? hawaits
        intro said hholds
        obtain ⟨clauses, hwrites, hafter⟩ := hgoes.clauses _ (htaken said hholds) hfree
        rw [List.append_assoc] at hafter
        exact ⟨_, .file hplain hwrites, hafter⟩
      | some slot =>
        have htaken : progress.takeValue false argument =
            .ok { progress with pending := some (slot, some argument) } := by
          unfold takeValue
          rw [hawaits]
        cases htaken.symm.trans hvalue
        constructor
        · intro said _ hfree
          cases hfree.symm.trans hawaits
        · intro said other htook hp
          have hother : progress.awaits? = some other := by rw [awaits?, hp]
          cases hawaits.symm.trans hother
          have hholds : Holds { progress with pending := some (slot, some argument) }
              (said ++ [.value slot argument]) :=
            ⟨said, took_waiting htook _ _, rfl⟩
          obtain ⟨clauses, hwrites, hafter⟩ := hgoes.clauses _ hholds rfl
          rw [List.append_assoc] at hafter
          exact ⟨_, _, _, rfl, hplain, hwrites, hafter⟩

theorem follows_of_took {invocation : Invocation} (h : progress.Took said)
    (hi : progress.invocation = .ok invocation) : invocation.Follows said := by
  unfold Progress.invocation at hi
  split at hi
  · cases hi
  · next file hfile =>
    cases hi
    have hasked (switch : Switch) :
        decide (switch ∈ progress.switches) = true ↔ .switch switch ∈ said := by
      rw [decide_eq_true_iff, h.switches]
    exact ⟨by rw [h.file, hfile]; rfl, h.configFile, h.limit, hasked _, hasked _, hasked _, hasked _,
      hasked _⟩

end Progress

-- The invocation of a run holds what its arguments ask for, and nothing else.
theorem exists_writes {arguments : List String} {invocation : Invocation}
    (h : Request.ofArguments arguments = .ok (.run invocation)) :
    ∃ clauses, Writes clauses arguments ∧ Orderly clauses ∧ invocation.Follows clauses := by
  have hstart : Progress.start.Holds [] := Progress.holds_of_took Progress.took_start rfl
  unfold Request.ofArguments at h
  split at h
  · cases h
  · cases h
  · cases h
  · next after ht =>
    obtain ⟨clauses, hwrites, htook⟩ := (Progress.goes_of_takeAll ht).clauses _ hstart rfl
    cases hi : after.invocation with
    | error error =>
      rw [hi] at h
      cases h
    | ok found =>
      rw [hi] at h
      cases h
      exact ⟨clauses, hwrites, htook.orderly, Progress.follows_of_took htook hi⟩

end WordMachine.CommandLine
