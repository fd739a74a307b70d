import WordMachine.Proofs.CommandLine.Clauses

namespace WordMachine.CommandLine

-- What arguments can ask for without being refused: everything once, and only values that fit.
structure Admits (clauses : List Clause) : Prop where
  orderly : Orderly clauses
  single : ∀ slot, (clauses.filterMap (Clause.value? slot)).length ≤ 1
  limit : ∀ text, .value .limit text ∈ clauses →
    ∃ limit : UInt64, Decimal.Counts text.toList limit.toNat

section Limits

variable {texts : List String} {limit : Option UInt64} (h : Limits texts limit)
include h

theorem length_le_of_limits : texts.length ≤ 1 := by
  cases h with
  | none => exact Nat.zero_le 1
  | some digits limit hcounts => exact Nat.le_refl 1

theorem exists_counts_of_limits {text : String} (hmem : text ∈ texts) :
    ∃ limit : UInt64, Decimal.Counts text.toList limit.toNat := by
  cases h with
  | none => cases hmem
  | some digits limit hcounts =>
    cases List.mem_singleton.mp hmem
    exact ⟨limit, hcounts⟩

theorem limits_unique {other : Option UInt64} (h' : Limits texts other) : limit = other := by
  cases h with
  | none =>
    cases h'
    rfl
  | some digits limit hcounts =>
    cases h' with
    | some _ other hcounts' =>
      have hread := (Decimal.readUnsigned_eq_ok_iff (by decide)).mpr ⟨hcounts, limit.toNat_lt⟩
      have hread' := (Decimal.readUnsigned_eq_ok_iff (by decide)).mpr ⟨hcounts', other.toNat_lt⟩
      exact congrArg some (UInt64.toNat_inj.mp (Except.ok.inj (hread.symm.trans hread')))

end Limits

theorem admits_of_follows {invocation : Invocation} {clauses : List Clause} (h : Orderly clauses)
    (hf : invocation.Follows clauses) : Admits clauses := by
  refine ⟨h, ?_, ?_⟩
  · intro slot
    cases slot with
    | file =>
      rw [hf.file]
      exact Nat.le_refl 1
    | config =>
      rw [hf.configFile]
      exact Option.length_toList_le
    | limit => exact length_le_of_limits hf.limit
  · intro text hmem
    exact exists_counts_of_limits hf.limit (List.mem_filterMap.mpr ⟨_, hmem, rfl⟩)

theorem admits_of_append {clauses more : List Clause} (h : Admits (clauses ++ more)) :
    Admits clauses := by
  refine ⟨⟨?_, ?_⟩, ?_, ?_⟩
  · exact (List.nodup_append.mp h.orderly.once).1
  · intro slot hmem
    exact h.orderly.filled slot (List.mem_append_left more hmem)
  · intro slot
    have hall := h.single slot
    rw [List.filterMap_append, List.length_append] at hall
    omega
  · intro text hmem
    exact h.limit text (List.mem_append_left more hmem)

-- Clauses decide the invocation that follows them.
theorem follows_unique {here there : Invocation} {clauses : List Clause}
    (h : here.Follows clauses) (h' : there.Follows clauses) : here = there := by
  have hfile : here.file = there.file := by
    have heq := h.file.symm.trans h'.file
    exact List.head_eq_of_cons_eq heq
  have hconfig : here.configFile = there.configFile := by
    have heq := congrArg List.head? (h.configFile.symm.trans h'.configFile)
    rwa [Option.head?_toList, Option.head?_toList] at heq
  have hlimit := limits_unique h.limit h'.limit
  have hlenient := Bool.eq_iff_iff.mpr (h.lenient.trans h'.lenient.symm)
  have htraced := Bool.eq_iff_iff.mpr (h.traced.trans h'.traced.symm)
  have hdisassemble := Bool.eq_iff_iff.mpr (h.disassemble.trans h'.disassemble.symm)
  have hstats := Bool.eq_iff_iff.mpr (h.stats.trans h'.stats.symm)
  have hdump := Bool.eq_iff_iff.mpr (h.dumpState.trans h'.dumpState.symm)
  cases here
  cases there
  simp_all only

namespace Progress

variable {progress : Progress} {said : List Clause} {slot : Slot} {value : String}

-- All that was said is looked at, the positional argument among it, if there was one.
structure Settled (progress : Progress) (said : List Clause) : Prop where
  took : progress.Took said
  pending : progress.pending = none
  file : progress.hasFile = true → ∃ path, .value .file path ∈ said

-- All that was said is looked at, but for a value that waits.
structure Ready (progress : Progress) (said : List Clause) : Prop where
  holds : progress.Holds said
  free : progress.awaits? = none
  file : progress.hasFile = true → ∃ path, .value .file path ∈ said

theorem exists_file_append (h : progress.Settled said) (more : List Clause)
    (hpath : progress.hasFile = true) : ∃ path, .value .file path ∈ said ++ more := by
  obtain ⟨path, hmem⟩ := h.file hpath
  exact ⟨path, List.mem_append_left more hmem⟩

theorem ready_of_settled (h : progress.Settled said) : progress.Ready said where
  holds := holds_of_took h.took h.pending
  free := by rw [awaits?, h.pending]
  file := h.file

theorem filterMap_of_admits (h : Admits (said ++ [.value slot value])) :
    said.filterMap (Clause.value? slot) = [] := by
  have hsingle := h.single slot
  simp only [List.filterMap_append, List.filterMap_cons, Clause.value?, ite_true,
    List.filterMap_nil, List.length_append, List.length_singleton] at hsingle
  exact List.length_eq_zero_iff.mp (by omega)

-- A value that is admitted is taken.
theorem exists_assign (h : progress.Took said) (ha : Admits (said ++ [.value slot value])) :
    ∃ after, progress.assign slot value = .ok after ∧ after.hasFile = progress.hasFile := by
  have hempty := filterMap_of_admits ha
  have hvalue : value ≠ "" := by
    rintro rfl
    exact ha.orderly.filled slot (by simp)
  cases slot with
  | file =>
    have hnone : progress.file = none := by
      rw [h.file] at hempty
      exact Option.toList_eq_nil_iff.mp hempty
    have hpath : setPath .file progress.file value = .ok (some value) :=
      setPath_eq_ok_iff.mpr ⟨hnone, hvalue, rfl⟩
    simp only [assign, hpath]
    exact ⟨_, rfl, rfl⟩
  | config =>
    have hnone : progress.configFile = none := by
      rw [h.configFile] at hempty
      exact Option.toList_eq_nil_iff.mp hempty
    have hpath : setPath .config progress.configFile value = .ok (some value) :=
      setPath_eq_ok_iff.mpr ⟨hnone, hvalue, rfl⟩
    simp only [assign, hpath]
    exact ⟨_, rfl, rfl⟩
  | limit =>
    have hnone : progress.limit = none := by
      have hlimits := h.limit
      rw [hempty] at hlimits
      generalize progress.limit = limit at hlimits
      cases hlimits
      rfl
    obtain ⟨limit, hcounts⟩ := ha.limit value (by simp)
    have hread := (Decimal.readUnsigned_eq_ok_iff (by decide)).mpr ⟨hcounts, limit.toNat_lt⟩
    simp only [assign, hnone, hread]
    exact ⟨_, rfl, rfl⟩

theorem exists_settle (h : progress.Ready said) (ha : Admits said) :
    ∃ after, progress.settle = .ok after ∧ after.Settled said := by
  have hsettles : ∃ after, progress.settle = .ok after ∧ after.hasFile = progress.hasFile := by
    obtain ⟨taken, htook, rfl⟩ := h.holds
    have hfree := h.free
    unfold settle
    cases hp : progress.pending with
    | none => exact ⟨_, rfl, rfl⟩
    | some waiting =>
      obtain ⟨slot, value?⟩ := waiting
      cases value? with
      | none =>
        rw [awaits?, hp] at hfree
        cases hfree
      | some value =>
        rw [Progress.waiting, hp] at ha
        exact exists_assign (took_waiting htook _ none) ha
  obtain ⟨after, hs, hfile⟩ := hsettles
  obtain ⟨htook, hp⟩ := (of_settle hs).2 said h.holds
  exact ⟨after, hs, htook, hp, hfile ▸ h.file⟩

theorem exists_takeSwitch {switch : Switch} (h : progress.Ready said)
    (ha : Admits (said ++ [.switch switch])) (hhelp : switch ≠ .help)
    (hversion : switch ≠ .version) :
    ∃ after, progress.takeSwitch switch = .ok after ∧
      after.Settled (said ++ [.switch switch]) := by
  obtain ⟨settled, hs, hsettled⟩ := exists_settle h (admits_of_append ha)
  have hnew : switch ∉ settled.switches := by
    rw [hsettled.took.switches]
    intro hmem
    have honce := (List.nodup_append.mp ha.orderly.once).2.2
    exact honce _ hmem _ (List.mem_singleton_self _) rfl
  have htakes : progress.takeSwitch switch =
      .ok { settled with switches := switch :: settled.switches } := by
    rw [takeSwitch, hs]
    cases switch <;> first | contradiction | exact if_neg hnew
  obtain ⟨htook, hp⟩ := (of_takeSwitch htakes).2.2.2 said h.holds
  exact ⟨_, htakes, htook, hp, exists_file_append hsettled _⟩

-- A value that is attached to its option.
theorem exists_takeSlot (h : progress.Ready said) (ha : Admits (said ++ [.value slot value])) :
    ∃ after, progress.takeSlot slot (some value) = .ok after ∧
      after.Ready (said ++ [.value slot value]) := by
  obtain ⟨settled, hs, hsettled⟩ := exists_settle h (admits_of_append ha)
  obtain ⟨after, hassign, hfile⟩ := exists_assign hsettled.took ha
  have htakes : progress.takeSlot slot (some value) = .ok after := by
    rw [takeSlot, hs]
    exact hassign
  obtain ⟨-, hsome⟩ := (of_takeSlot htakes).2 said h.holds
  obtain ⟨htook, hp⟩ := hsome value rfl
  exact ⟨after, htakes, holds_of_took htook hp, by rw [awaits?, hp],
    hfile ▸ exists_file_append hsettled _⟩

-- The positional argument.
theorem exists_takeValue (isTrailing : Bool) (h : progress.Ready said) {path : String}
    (ha : Admits (said ++ [.value .file path])) :
    ∃ after, progress.takeValue isTrailing path = .ok after ∧
      after.Ready (said ++ [.value .file path]) := by
  have hunset : progress.hasFile = false := by
    rw [Bool.eq_false_iff]
    intro hpath
    obtain ⟨other, hmem⟩ := h.file hpath
    have hempty := filterMap_of_admits ha
    exact not_mem_of_filterMap hempty hmem
  obtain ⟨settled, hs, hsettled⟩ := exists_settle h (admits_of_append ha)
  let after := { settled with hasFile := true, pending := some (.file, some path) }
  have htakes : progress.takeValue isTrailing path = .ok after := by
    unfold takeValue
    rw [h.free, hunset, hs]
    cases isTrailing <;> rfl
  have hholds : after.Holds (said ++ [.value .file path]) :=
    ⟨said, took_waiting hsettled.took _ _, rfl⟩
  exact ⟨after, htakes, hholds, rfl, fun _ => ⟨path, by simp⟩⟩

theorem of_letter {letter : Char} {switch : Switch} (h : Switch.ofLetter? letter = some switch) :
    Flag.ofLetter? letter = some (.switch switch) ∧ switch ≠ .help ∧ switch ≠ .version ∧
      letter ≠ '-' := by
  unfold Switch.ofLetter? at h
  split at h <;> cases h
  · exact ⟨rfl, by decide, by decide, by decide⟩
  · exact ⟨rfl, by decide, by decide, by decide⟩

-- Letters of switches, with other letters behind them.
theorem exists_takeLetters {letters : List Char} {switches : List Switch}
    (hl : letters.map Switch.ofLetter? = switches.map some) (h : progress.Ready said)
    (ha : Admits (said ++ switches.map .switch)) :
    ∃ after : Progress,
      (∀ rest, progress.takeLetters (letters ++ rest) = after.takeLetters rest) ∧
      after.Ready (said ++ switches.map .switch) := by
  induction letters generalizing progress said switches with
  | nil =>
    cases List.map_eq_nil_iff.mp hl.symm
    rw [List.map_nil, List.append_nil]
    exact ⟨progress, fun _ => rfl, h⟩
  | cons letter letters ih =>
    match switches with
    | [] => cases hl
    | switch :: switches =>
      obtain ⟨hletter, hl⟩ := List.cons.inj hl
      obtain ⟨hflag, hhelp, hversion, -⟩ := of_letter hletter
      have hsaid : said ++ (switch :: switches).map Clause.switch =
          said ++ [.switch switch] ++ switches.map .switch := by simp
      rw [hsaid] at ha ⊢
      obtain ⟨taken, htakes, hsettled⟩ := exists_takeSwitch h (admits_of_append ha) hhelp hversion
      obtain ⟨after, hrest, hready⟩ := ih hl (ready_of_settled hsettled) ha
      refine ⟨after, ?_, hready⟩
      intro rest
      rw [List.cons_append, takeLetters.eq_def]
      simp only [hflag, htakes]
      exact hrest rest

section Arguments

variable {argument : String} (arguments : List String)

theorem takeAll_long {option : List Char} (h : argument.toList = '-' :: '-' :: option)
    (hne : option ≠ []) :
    progress.takeAll false (argument :: arguments) =
      progress.takeLong option >>= fun taken => taken.takeAll false arguments := by
  rw [takeAll.eq_def]
  simp only [h]

-- The name of an option with a value, whether the value is attached or not.
theorem takeAll_slot {option : List Char} (h : argument.toList = '-' :: '-' :: option)
    (hne : option ≠ []) {attached : Option String} {taken : Progress}
    (hlong : progress.takeLong option = (progress.takeSlot slot attached).mapError .refused)
    (htakes : progress.takeSlot slot attached = .ok taken) :
    progress.takeAll false (argument :: arguments) = taken.takeAll false arguments := by
  rw [takeAll_long arguments h hne, hlong, htakes]
  rfl

theorem takeAll_letters {letter : Char} {letters : List Char}
    (h : argument.toList = '-' :: letter :: letters) (hne : letter ≠ '-') :
    progress.takeAll false (argument :: arguments) =
      progress.takeLetters (letter :: letters) >>= fun taken => taken.takeAll false arguments := by
  rw [takeAll.eq_def]
  simp only [h]
  split
  · next heq => exact absurd (List.cons.inj (List.cons.inj heq).2).1 hne
  · next heq => exact absurd (List.cons.inj (List.cons.inj heq).2).1 hne
  · next heq =>
    cases heq
    rfl
  · next hletters => exact absurd rfl (hletters letter letters rfl)

theorem takeAll_plain (h : IsPlain argument.toList) :
    progress.takeAll false (argument :: arguments) =
      (progress.takeValue false argument).mapError .refused >>= fun taken =>
        taken.takeAll false arguments := by
  rw [takeAll.eq_def]
  simp only
  split
  · next heq => exact absurd heq (h _ _)
  · next heq => exact absurd heq (h _ _)
  · next heq => exact absurd heq (h _ _)
  · rfl

-- A value that is the next argument is kept until something else comes.
theorem exists_of_value (h : progress.Ready said) (ha : Admits said) (slot : Slot)
    (hplain : IsPlain argument.toList) :
    ∃ waiting after : Progress, progress.takeSlot slot none = .ok waiting ∧
      waiting.takeAll false (argument :: arguments) = after.takeAll false arguments ∧
      after.Ready (said ++ [.value slot argument]) := by
  obtain ⟨settled, hs, hsettled⟩ := exists_settle h ha
  let waiting := { settled with pending := some (slot, none) }
  let after := { settled with pending := some (slot, some argument) }
  have htakes : progress.takeSlot slot none = .ok waiting := by
    rw [takeSlot, hs]
    rfl
  have hvalue : waiting.takeValue false argument = .ok after := rfl
  have hall : waiting.takeAll false (argument :: arguments) = after.takeAll false arguments := by
    rw [takeAll_plain arguments hplain, hvalue]
    rfl
  have hholds : after.Holds (said ++ [.value slot argument]) :=
    ⟨said, took_waiting hsettled.took _ _, rfl⟩
  exact ⟨waiting, after, htakes, hall, hholds, rfl, exists_file_append hsettled _⟩

-- The name of a switch.
theorem exists_of_name {option : List Char} {switch : Switch}
    (hargument : argument.toList = '-' :: '-' :: option) (hne : option ≠ [])
    (hlong : progress.takeLong option = progress.takeSwitch switch) (hhelp : switch ≠ .help)
    (hversion : switch ≠ .version) (h : progress.Ready said)
    (ha : Admits (said ++ [.switch switch])) :
    ∃ after : Progress,
      progress.takeAll false (argument :: arguments) = after.takeAll false arguments ∧
        after.Ready (said ++ [.switch switch]) := by
  obtain ⟨after, htakes, hsettled⟩ := exists_takeSwitch h ha hhelp hversion
  refine ⟨after, ?_, ready_of_settled hsettled⟩
  rw [takeAll_long arguments hargument hne, hlong, htakes]
  rfl

-- The letters of some switches, and what is behind them.
theorem exists_of_letters {letters rest : List Char} {switches : List Switch}
    (hargument : argument.toList = '-' :: (letters ++ rest))
    (hl : letters.map Switch.ofLetter? = switches.map some) (hne : letters ++ rest ≠ [])
    (hrest : rest.head? ≠ some '-') (h : progress.Ready said)
    (ha : Admits (said ++ switches.map .switch)) :
    ∃ after : Progress,
      progress.takeAll false (argument :: arguments) =
        (after.takeLetters rest >>= fun taken => taken.takeAll false arguments) ∧
      after.Ready (said ++ switches.map .switch) := by
  obtain ⟨after, htakes, hready⟩ := exists_takeLetters hl h ha
  refine ⟨after, ?_, hready⟩
  rw [← htakes rest]
  match letters, rest, switches, hl with
  | [], [], _, _ => exact absurd rfl hne
  | [], letter :: rest, _, _ =>
    have hletter : letter ≠ '-' := by
      rintro rfl
      exact hrest rfl
    exact takeAll_letters arguments hargument hletter
  | letter :: letters, rest, switch :: switches, hl =>
    obtain ⟨-, -, -, hletter⟩ := of_letter (List.cons.inj hl).1
    exact takeAll_letters arguments hargument hletter

-- An argument that asks for switches alone.
theorem exists_of_switches {switches : List Switch} (hasks : Asks argument.toList switches none)
    (h : progress.Ready said) (ha : Admits (said ++ switches.map .switch)) :
    ∃ after : Progress,
      progress.takeAll false (argument :: arguments) = after.takeAll false arguments ∧
        after.Ready (said ++ switches.map .switch) := by
  generalize hchars : argument.toList = chars at hasks
  cases hasks with
  | lenient | trace | disassemble | stats | dumpState =>
    exact exists_of_name arguments (hchars.trans rfl) (by decide) rfl (by decide) (by decide) h ha
  | @letters letters _ hl hne =>
    have hchars : argument.toList = '-' :: (letters ++ []) := by rw [hchars, List.append_nil]
    have hne : letters ++ [] ≠ [] := by rwa [List.append_nil]
    exact exists_of_letters arguments hchars hl hne (by decide) h ha

-- The letter of the option with a value, and the value right behind it.
theorem exists_of_letter {letters rest : List Char} {switches : List Switch} {chars : List Char}
    (hargument : argument.toList = '-' :: (letters ++ 'c' :: rest))
    (hl : letters.map Switch.ofLetter? = switches.map some)
    (hvalue : ∀ taken : Progress, taken.takeLetters ('c' :: rest) =
      (taken.takeSlot .config (some (String.ofList chars))).mapError .refused)
    (h : progress.Ready said)
    (ha : Admits (said ++ switches.map .switch ++ [.value .config (String.ofList chars)])) :
    ∃ after : Progress,
      progress.takeAll false (argument :: arguments) = after.takeAll false arguments ∧
        after.Ready (said ++ switches.map .switch ++ [.value .config (String.ofList chars)]) := by
  obtain ⟨taken, hletters, hready⟩ :=
    exists_of_letters arguments hargument hl (by simp) (by simp) h (admits_of_append ha)
  obtain ⟨after, htakes, hready⟩ := exists_takeSlot hready ha
  refine ⟨after, ?_, hready⟩
  rw [hletters, hvalue, htakes]
  rfl

-- An argument that ends with a value.
theorem exists_of_given {switches : List Switch} {chars : List Char}
    (hgives : Gives argument.toList switches slot chars) (h : progress.Ready said)
    (ha : Admits (said ++ switches.map .switch ++ [.value slot (String.ofList chars)])) :
    ∃ after : Progress,
      progress.takeAll false (argument :: arguments) = after.takeAll false arguments ∧
        after.Ready (said ++ switches.map .switch ++ [.value slot (String.ofList chars)]) := by
  generalize hchars : argument.toList = written at hgives
  cases hgives with
  | equals hasks value =>
    cases hasks with
    | config | limit =>
      rw [List.map_nil, List.append_nil] at ha ⊢
      obtain ⟨after, htakes, hready⟩ := exists_takeSlot h ha
      exact ⟨after, takeAll_slot arguments (hchars.trans rfl) (List.cons_ne_nil _ _) rfl htakes,
        hready⟩
    | @lettersConfig letters _ hl =>
      have hargument : argument.toList = '-' :: (letters ++ 'c' :: '=' :: chars) := by
        rw [hchars]
        simp
      exact exists_of_letter arguments hargument hl (fun _ => rfl) h ha
  | @glued letters _ hl c hc value =>
    apply exists_of_letter arguments hchars hl ?_ h ha
    intro taken
    rw [takeLetters.eq_def]
    simp [Flag.ofLetter?, hc]

-- An option whose value is the next argument.
theorem exists_of_next {switches : List Switch} {value : String}
    (hasks : Asks argument.toList switches (some slot)) (hv : IsPlain value.toList)
    (h : progress.Ready said)
    (ha : Admits (said ++ switches.map .switch ++ [.value slot value])) :
    ∃ after : Progress,
      progress.takeAll false (argument :: value :: arguments) = after.takeAll false arguments ∧
        after.Ready (said ++ switches.map .switch ++ [.value slot value]) := by
  generalize hchars : argument.toList = written at hasks
  cases hasks with
  | config | limit =>
    rw [List.map_nil, List.append_nil] at ha ⊢
    obtain ⟨waiting, after, htakes, hall, hready⟩ :=
      exists_of_value arguments h (admits_of_append ha) _ hv
    refine ⟨after, ?_, hready⟩
    rw [← hall]
    exact takeAll_slot _ (hchars.trans rfl) (List.cons_ne_nil _ _) rfl htakes
  | @lettersConfig letters _ hl =>
    obtain ⟨taken, hletters, hready⟩ :=
      exists_of_letters (value :: arguments) hchars hl (by simp) (by simp) h (admits_of_append ha)
    obtain ⟨waiting, after, htakes, hall, hready⟩ :=
      exists_of_value arguments hready (admits_of_append ha) .config hv
    have hletter : taken.takeLetters ['c'] = .ok waiting := by
      show (taken.takeSlot .config none).mapError _ = _
      rw [htakes]
      rfl
    refine ⟨after, ?_, hready⟩
    rw [hletters, hletter]
    exact hall

end Arguments

-- After the two dashes there are files alone.
theorem exists_of_files {paths : List String} (h : progress.Ready said)
    (ha : Admits (said ++ paths.map (.value .file))) :
    ∃ after, progress.takeAll true paths = .ok after ∧
      after.Took (said ++ paths.map (.value .file)) := by
  induction paths generalizing progress said with
  | nil =>
    rw [List.map_nil, List.append_nil] at ha ⊢
    obtain ⟨after, hs, hsettled⟩ := exists_settle h ha
    refine ⟨after, ?_, hsettled.took⟩
    rw [takeAll.eq_def, hs]
    rfl
  | cons path paths ih =>
    have hsaid : said ++ (path :: paths).map (Clause.value .file) =
        said ++ [.value .file path] ++ paths.map (.value .file) := by simp
    rw [hsaid] at ha ⊢
    obtain ⟨taken, htakes, hready⟩ := exists_takeValue true h (admits_of_append ha)
    obtain ⟨after, hall, htook⟩ := ih hready ha
    refine ⟨after, ?_, htook⟩
    rw [takeAll.eq_def]
    simp only [htakes]
    exact hall

-- Arguments that ask for nothing but what is admitted are all taken.
theorem exists_of_writes {clauses : List Clause} {arguments : List String}
    (hw : Writes clauses arguments) (h : progress.Ready said) (ha : Admits (said ++ clauses)) :
    ∃ after, progress.takeAll false arguments = .ok after ∧ after.Took (said ++ clauses) := by
  induction hw generalizing progress said with
  | nothing =>
    rw [List.append_nil] at ha ⊢
    obtain ⟨after, hs, hsettled⟩ := exists_settle h ha
    refine ⟨after, ?_, hsettled.took⟩
    rw [takeAll.eq_def, hs]
    rfl
  | switches hasks hrest ih =>
    rw [← List.append_assoc] at ha ⊢
    obtain ⟨taken, htakes, hready⟩ := exists_of_switches _ hasks h (admits_of_append ha)
    rw [htakes]
    exact ih hready ha
  | given hgives hrest ih =>
    rw [← List.append_assoc, List.append_cons] at ha ⊢
    obtain ⟨taken, htakes, hready⟩ := exists_of_given _ hgives h (admits_of_append ha)
    rw [htakes]
    exact ih hready ha
  | next hasks hplain hrest ih =>
    rw [← List.append_assoc, List.append_cons] at ha ⊢
    obtain ⟨taken, htakes, hready⟩ := exists_of_next _ hasks hplain h (admits_of_append ha)
    rw [htakes]
    exact ih hready ha
  | file hplain hrest ih =>
    rw [List.append_cons] at ha ⊢
    obtain ⟨taken, htakes, hready⟩ := exists_takeValue false h (admits_of_append ha)
    rw [takeAll_plain _ hplain, htakes]
    exact ih hready ha
  | files paths =>
    obtain ⟨after, hall, htook⟩ := exists_of_files h ha
    refine ⟨after, ?_, htook⟩
    rw [takeAll.eq_def]
    exact hall

theorem exists_invocation (h : progress.Took said) {path : String}
    (hf : said.filterMap (Clause.value? .file) = [path]) :
    ∃ invocation, progress.invocation = .ok invocation := by
  have hfile : progress.file = some path := by
    have heq := congrArg List.head? (h.file.symm.trans hf)
    rwa [Option.head?_toList] at heq
  rw [Progress.invocation, hfile]
  exact ⟨_, rfl⟩

end Progress

-- The arguments of a run are those that ask for what it holds, each thing once.
theorem ofArguments_eq_run_iff {arguments : List String} {invocation : Invocation} :
    Request.ofArguments arguments = .ok (.run invocation) ↔
      ∃ clauses, Writes clauses arguments ∧ Orderly clauses ∧ invocation.Follows clauses := by
  constructor
  · exact exists_writes
  · rintro ⟨clauses, hwrites, horderly, hfollows⟩
    have hstart : Progress.start.Ready [] :=
      ⟨Progress.holds_of_took Progress.took_start rfl, rfl, nofun⟩
    obtain ⟨after, htakes, htook⟩ :=
      Progress.exists_of_writes hwrites hstart (admits_of_follows horderly hfollows)
    obtain ⟨found, hfound⟩ := Progress.exists_invocation htook hfollows.file
    cases follows_unique (Progress.follows_of_took htook hfound) hfollows
    rw [Request.ofArguments, htakes]
    simp only [hfound]
    rfl

end WordMachine.CommandLine
