import WordMachine.Configuration.Reader
import WordMachine.Proofs.Json.Record

namespace WordMachine

namespace Configuration

open Json (Given Lexeme Literal Value)

variable (c : Configuration)

-- No limit is written as `null`.
def limitLiteral : Option UInt64 → Literal
  | none => .null
  | some limit => .integer false limit.toNat

-- Members that give the general settings. Those that have their default may be left out, and names
-- that mean nothing may be there.
structure WritesGeneral (members : List (String × Literal)) : Prop where
  traced : Given "trace_instructions" (c.traced = default.traced) (· = .boolean c.traced) members
  limit : Given "max_instructions" (c.limit = default.limit) (· = limitLiteral c.limit) members
  policy : Given "unknown_opcode" (c.policy = default.policy) (· = .text c.policy.name) members

structure WritesMemory (members : List (String × Literal)) : Prop where
  stackSize : Given "stack_size" (c.stackSize = default.stackSize)
    (· = .integer false c.stackSize) members
  byteOrder : Given "byte_order" (c.byteOrder = default.byteOrder)
    (· = .text c.byteOrder.name) members

-- A whole configuration. A section that is left out gives nothing.
structure Writes (document : List (String × Value)) : Prop where
  general : Given "general" (WritesGeneral c [])
    (fun value => ∃ members, value = .object members ∧ WritesGeneral c members) document
  memory : Given "memory" (WritesMemory c [])
    (fun value => ∃ members, value = .object members ∧ WritesMemory c members) document
  others : ∀ key value, (key, value) ∈ document → key ≠ "general" → key ≠ "memory" →
    ∃ literal, value = .literal literal

-- A field that comes to a value: it has it now, or the members that remain give it.
def Awaits {β : Type} (name : String) (written : Literal) (missing value : β) (current : Option β)
    (members : List (String × Literal)) : Prop :=
  Given name (current.getD missing = value) (fun literal => current = none ∧ literal = written)
    members

section Awaits

variable {β : Type} {name : String} {written : Literal} {missing value : β}
  {members : List (String × Literal)}

theorem awaits_of_given (h : Given name (value = missing) (· = written) members) :
    Awaits name written missing value none members :=
  h.mono Eq.symm fun _ hwritten => ⟨rfl, hwritten⟩

theorem of_awaits {current : Option β} {literal : Literal}
    (h : Awaits name written missing value current ((name, literal) :: members)) :
    current = none ∧ literal = written ∧
      Awaits name written missing value (some value) members := by
  obtain ⟨⟨hunset, hwritten⟩, habsent⟩ := Json.given_cons_self.mp h
  exact ⟨hunset, hwritten, habsent.mono (fun _ => rfl) fun _ hfalse => hfalse.elim⟩

theorem awaits_cons_of_ne {current : Option β} {key : String} {literal : Literal}
    (h : Awaits name written missing value current ((key, literal) :: members)) (hne : key ≠ name) :
    Awaits name written missing value current members :=
  (Json.given_cons_of_ne hne).mp h

end Awaits

-- Nothing of a section is given yet.
def unsetGeneral : GeneralSection :=
  ⟨none, none, none⟩

def unsetMemory : MemorySection :=
  ⟨none, none⟩

structure AwaitsGeneral (state : GeneralSection) (members : List (String × Literal)) : Prop where
  traced : Awaits "trace_instructions" (.boolean c.traced) default.traced c.traced state.traced
    members
  limit : Awaits "max_instructions" (limitLiteral c.limit) default.limit c.limit state.limit members
  policy : Awaits "unknown_opcode" (.text c.policy.name) default.policy c.policy state.policy
    members

structure AwaitsMemory (state : MemorySection) (members : List (String × Literal)) : Prop where
  stackSize : Awaits "stack_size" (.integer false c.stackSize) default.stackSize c.stackSize
    state.stackSize members
  byteOrder : Awaits "byte_order" (.text c.byteOrder.name) default.byteOrder c.byteOrder
    state.byteOrder members

theorem takes_general :
    Json.Record.Takes GeneralSection.fields Literal.lexemes (AwaitsGeneral c) := by
  intro state key literal members h
  by_cases htraced : key = "trace_instructions"
  · subst htraced
    obtain ⟨hunset, rfl, hset⟩ := of_awaits h.traced
    refine ⟨{ state with traced := some c.traced }, ⟨hset, ?_, ?_⟩, ?_⟩
    · exact awaits_cons_of_ne h.limit (by decide)
    · exact awaits_cons_of_ne h.policy (by decide)
    · intro rest
      exact Json.Record.member_of_field rfl (congrArg Option.isSome hunset) rfl
  by_cases hlimit : key = "max_instructions"
  · subst hlimit
    obtain ⟨hunset, rfl, hset⟩ := of_awaits h.limit
    refine ⟨{ state with limit := some c.limit }, ⟨?_, hset, ?_⟩, ?_⟩
    · exact awaits_cons_of_ne h.traced (by decide)
    · exact awaits_cons_of_ne h.policy (by decide)
    · intro rest
      apply Json.Record.member_of_field rfl (congrArg Option.isSome hunset)
      cases c.limit with
      | none => rfl
      | some limit =>
        have htokens : (limitLiteral (some limit)).lexemes.map Lexeme.token ++ rest =
            .scalar (.ok (.number (.natural limit.toNat))) (.ok ()) :: rest := by
          simp [limitLiteral, Literal.lexemes, Lexeme.token, Literal.token_natural limit.toNat_lt]
        have hvalue : UInt64.ofNat limit.toNat = limit := UInt64.ofNat_toNat
        rw [htokens]
        exact congrArg (fun value : UInt64 =>
          Except.ok ({ state with limit := some (some value) }, rest)) hvalue
  by_cases hpolicy : key = "unknown_opcode"
  · subst hpolicy
    obtain ⟨hunset, rfl, hset⟩ := of_awaits h.policy
    refine ⟨{ state with policy := some c.policy }, ⟨?_, ?_, hset⟩, ?_⟩
    · exact awaits_cons_of_ne h.traced (by decide)
    · exact awaits_cons_of_ne h.limit (by decide)
    · intro rest
      apply Json.Record.member_of_field rfl (congrArg Option.isSome hunset)
      cases c.policy <;> rfl
  · refine ⟨state, ⟨awaits_cons_of_ne h.traced htraced, awaits_cons_of_ne h.limit hlimit,
      awaits_cons_of_ne h.policy hpolicy⟩, ?_⟩
    have hunknown : key ∉ GeneralSection.fields.map (·.name) := by
      show key ∉ ["trace_instructions", "max_instructions", "unknown_opcode"]
      simp [htraced, hlimit, hpolicy]
    exact Json.Record.member_of_unknown hunknown state literal

theorem takes_memory (hsize : c.stackSize < UInt64.size) :
    Json.Record.Takes MemorySection.fields Literal.lexemes (AwaitsMemory c) := by
  intro state key literal members h
  by_cases hstack : key = "stack_size"
  · subst hstack
    obtain ⟨hunset, rfl, hset⟩ := of_awaits h.stackSize
    refine ⟨{ state with stackSize := some c.stackSize }, ⟨hset, ?_⟩, ?_⟩
    · exact awaits_cons_of_ne h.byteOrder (by decide)
    · intro rest
      apply Json.Record.member_of_field rfl (congrArg Option.isSome hunset)
      have htokens : (Literal.integer false c.stackSize).lexemes.map Lexeme.token ++ rest =
          .scalar (.ok (.number (.natural c.stackSize))) (.ok ()) :: rest := by
        simp [Literal.lexemes, Lexeme.token, Literal.token_natural hsize]
      rw [htokens]
      rfl
  by_cases horder : key = "byte_order"
  · subst horder
    obtain ⟨hunset, rfl, hset⟩ := of_awaits h.byteOrder
    refine ⟨{ state with byteOrder := some c.byteOrder }, ⟨?_, hset⟩, ?_⟩
    · exact awaits_cons_of_ne h.stackSize (by decide)
    · intro rest
      apply Json.Record.member_of_field rfl (congrArg Option.isSome hunset)
      cases c.byteOrder <;> rfl
  · refine ⟨state, ⟨awaits_cons_of_ne h.stackSize hstack, awaits_cons_of_ne h.byteOrder horder⟩,
      ?_⟩
    have hunknown : key ∉ MemorySection.fields.map (·.name) := by
      show key ∉ ["stack_size", "byte_order"]
      simp [hstack, horder]
    exact Json.Record.member_of_unknown hunknown state literal

structure AwaitsSections (state : Sections) (document : List (String × Value)) : Prop where
  general : Given "general" (AwaitsGeneral c (state.general.getD unsetGeneral) [])
    (fun value => state.general = none ∧
      ∃ members, value = .object members ∧ AwaitsGeneral c unsetGeneral members) document
  memory : Given "memory" (AwaitsMemory c (state.memory.getD unsetMemory) [])
    (fun value => state.memory = none ∧
      ∃ members, value = .object members ∧ AwaitsMemory c unsetMemory members) document
  others : ∀ key value, (key, value) ∈ document → key ≠ "general" → key ≠ "memory" →
    ∃ literal, value = .literal literal

theorem takes_sections (hsize : c.stackSize < UInt64.size) :
    Json.Record.Takes Sections.fields Value.lexemes (AwaitsSections c) := by
  intro state key value document h
  have hothers : ∀ key value, (key, value) ∈ document → key ≠ "general" → key ≠ "memory" →
      ∃ literal, value = .literal literal :=
    fun key value hmem => h.others key value (List.mem_cons_of_mem _ hmem)
  by_cases hgeneral : key = "general"
  · subst hgeneral
    obtain ⟨⟨hunset, members, rfl, hmembers⟩, habsent⟩ := Json.given_cons_self.mp h.general
    obtain ⟨last, hlast, hread⟩ :=
      Json.Record.read_object (takes_general c) "struct GeneralConfig" hmembers
    refine ⟨{ state with general := some last }, ⟨?_, ?_, hothers⟩, ?_⟩
    · exact habsent.mono (fun _ => hlast) fun _ hfalse => hfalse.elim
    · exact (Json.given_cons_of_ne (by decide)).mp h.memory
    · intro rest
      apply Json.Record.member_of_field rfl (congrArg Option.isSome hunset)
      exact congrArg (· >>= fun read =>
        Except.ok ({ state with general := some read.1 }, read.2)) (hread rest)
  by_cases hmemory : key = "memory"
  · subst hmemory
    obtain ⟨⟨hunset, members, rfl, hmembers⟩, habsent⟩ := Json.given_cons_self.mp h.memory
    obtain ⟨last, hlast, hread⟩ :=
      Json.Record.read_object (takes_memory c hsize) "struct MemoryConfig" hmembers
    refine ⟨{ state with memory := some last }, ⟨?_, ?_, hothers⟩, ?_⟩
    · exact (Json.given_cons_of_ne (by decide)).mp h.general
    · exact habsent.mono (fun _ => hlast) fun _ hfalse => hfalse.elim
    · intro rest
      apply Json.Record.member_of_field rfl (congrArg Option.isSome hunset)
      exact congrArg (· >>= fun read =>
        Except.ok ({ state with memory := some read.1 }, read.2)) (hread rest)
  · obtain ⟨literal, rfl⟩ := h.others key value (List.mem_cons_self ..) hgeneral hmemory
    refine ⟨state, ⟨(Json.given_cons_of_ne hgeneral).mp h.general,
      (Json.given_cons_of_ne hmemory).mp h.memory, hothers⟩, ?_⟩
    have hunknown : key ∉ Sections.fields.map (·.name) := by
      show key ∉ ["general", "memory"]
      simp [hgeneral, hmemory]
    exact Json.Record.member_of_unknown hunknown state literal

variable {c}

theorem awaitsGeneral_of_writes {members : List (String × Literal)} (h : WritesGeneral c members) :
    AwaitsGeneral c unsetGeneral members :=
  ⟨awaits_of_given h.traced, awaits_of_given h.limit, awaits_of_given h.policy⟩

theorem awaitsMemory_of_writes {members : List (String × Literal)} (h : WritesMemory c members) :
    AwaitsMemory c unsetMemory members :=
  ⟨awaits_of_given h.stackSize, awaits_of_given h.byteOrder⟩

theorem awaitsSections_of_writes {document : List (String × Value)} (h : Writes c document) :
    AwaitsSections c ⟨none, none⟩ document := by
  refine ⟨h.general.mono awaitsGeneral_of_writes ?_, h.memory.mono awaitsMemory_of_writes ?_,
    h.others⟩
  · rintro value ⟨members, rfl, hmembers⟩
    exact ⟨rfl, members, rfl, awaitsGeneral_of_writes hmembers⟩
  · rintro value ⟨members, rfl, hmembers⟩
    exact ⟨rfl, members, rfl, awaitsMemory_of_writes hmembers⟩

-- Where nothing remains, all settings are those that were to be given.
theorem ofSections_eq {sections : Sections} (h : AwaitsSections c sections []) :
    ofSections sections = c := by
  obtain ⟨general, memory⟩ := sections
  have hgeneral : AwaitsGeneral c (general.getD unsetGeneral) [] := h.general
  have hmemory : AwaitsMemory c (memory.getD unsetMemory) [] := h.memory
  have htraced : (general.getD unsetGeneral).traced.getD default.traced = c.traced :=
    hgeneral.traced
  have hlimit : (general.getD unsetGeneral).limit.getD default.limit = c.limit :=
    hgeneral.limit
  have hpolicy : (general.getD unsetGeneral).policy.getD default.policy = c.policy :=
    hgeneral.policy
  have hstack : (memory.getD unsetMemory).stackSize.getD default.stackSize = c.stackSize :=
    hmemory.stackSize
  have horder : (memory.getD unsetMemory).byteOrder.getD default.byteOrder = c.byteOrder :=
    hmemory.byteOrder
  calc ofSections ⟨general, memory⟩
    _ = ⟨(general.getD unsetGeneral).traced.getD default.traced,
          (general.getD unsetGeneral).limit.getD default.limit,
          (general.getD unsetGeneral).policy.getD default.policy,
          (memory.getD unsetMemory).stackSize.getD default.stackSize,
          (memory.getD unsetMemory).byteOrder.getD default.byteOrder⟩ := by
      cases general <;> cases memory <;> rfl
    _ = c := by rw [htraced, hlimit, hpolicy, hstack, horder]

theorem ofJson_of_writes (hvalid : c.validate = .ok ()) {document : List (String × Value)}
    (h : Writes c document) {text : String}
    (ht : Json.Spells (Lexeme.object Value.lexemes document) text.toList) :
    ofJson text = .ok c := by
  have hsize : c.stackSize < UInt64.size := by
    obtain ⟨-, -, hlt⟩ := (validate_eq_ok_iff c).mp hvalid
    exact Nat.lt_trans hlt (by decide)
  obtain ⟨sections, hsections, hread⟩ := Json.Record.read_object (takes_sections c hsize)
    "struct Config" (awaitsSections_of_writes h)
  have hscan := Json.Token.scan_of_spells ht (Lexeme.isChain_object Json.isChain_value document)
  have hall := hread []
  rw [List.append_nil, ← hscan] at hall
  simp only [ofJson, Json.readAll, hall, bind, Except.bind, pure, Except.pure,
    ofSections_eq hsections, hvalid]

section Whole

variable (c)

-- The members that give every setting.
def wholeGeneral : List (String × Literal) :=
  [("trace_instructions", .boolean c.traced), ("max_instructions", limitLiteral c.limit),
   ("unknown_opcode", .text c.policy.name)]

def wholeMemory : List (String × Literal) :=
  [("stack_size", .integer false c.stackSize), ("byte_order", .text c.byteOrder.name)]

def whole : List (String × Value) :=
  [("general", .object c.wholeGeneral), ("memory", .object c.wholeMemory)]

theorem writes_whole : c.Writes c.whole := by
  have hgeneral : c.WritesGeneral c.wholeGeneral := ⟨rfl, rfl, rfl⟩
  have hmemory : c.WritesMemory c.wholeMemory := ⟨rfl, rfl⟩
  refine ⟨⟨_, rfl, hgeneral⟩, ⟨_, rfl, hmemory⟩, ?_⟩
  intro key value hmem hkey hkey'
  simp [whole, hkey, hkey'] at hmem

theorem plain_whole : ∀ lexeme ∈ Lexeme.object Value.lexemes c.whole, lexeme.Plain := by
  have htraced : (Literal.boolean c.traced).Plain := trivial
  have hlimit : (limitLiteral c.limit).Plain := by
    cases c.limit <;> exact trivial
  have hpolicy : (Literal.text c.policy.name).Plain := by
    cases c.policy <;> decide
  have hstack : (Literal.integer false c.stackSize).Plain := trivial
  have horder : (Literal.text c.byteOrder.name).Plain := by
    cases c.byteOrder <;> decide
  have hnames : ∀ name ∈ ["general", "trace_instructions", "max_instructions", "unknown_opcode",
      "memory", "stack_size", "byte_order"], (Literal.text name).Plain := by
    decide
  simp [whole, wholeGeneral, wholeMemory, Lexeme.object, Lexeme.tail, Value.lexemes,
    Literal.lexemes, Lexeme.Plain, htraced, hlimit, hpolicy, hstack, horder, hnames]

end Whole

-- A usable configuration is read from any text that gives it: the sections and the fields stand in
-- any order, what is the default may be left out, and other names and white space may stand in
-- between. No text is read as a configuration that is of no use.
theorem reading_inverts_writing :
    (∀ (c : Configuration) (document : List (String × Value)) (text : String),
      0 < c.stackSize → 4 ∣ c.stackSize → c.stackSize < 0x80000000 → c.Writes document →
      Json.Spells (Lexeme.object Value.lexemes document) text.toList → ofJson text = .ok c) ∧
    (∀ c : Configuration, ∃ document text, c.Writes document ∧
      Json.Spells (Lexeme.object Value.lexemes document) (String.toList text)) ∧
    ∀ (text : String) (c : Configuration), ofJson text = .ok c →
      c.validate = .ok () ∧ 0 < c.stackSize ∧ 4 ∣ c.stackSize ∧ c.stackSize < 0x80000000 := by
  refine ⟨?_, ?_, ?_⟩
  · intro c document text hpositive hwhole hlt hwrites hspells
    exact ofJson_of_writes ((validate_eq_ok_iff c).mpr ⟨hpositive, hwhole, hlt⟩) hwrites hspells
  · intro c
    let lexemes := Lexeme.object Value.lexemes c.whole
    refine ⟨c.whole, String.ofList (lexemes.flatMap fun lexeme => lexeme.spelling ++ []),
      c.writes_whole, ?_⟩
    rw [String.toList_ofList]
    exact Json.spells_flatMap c.plain_whole fun _ hmem => absurd hmem List.not_mem_nil
  · intro text c h
    have hvalid := validate_of_ofJson h
    exact ⟨hvalid, (validate_eq_ok_iff c).mp hvalid⟩

-- The sections are turned round, and a name that means nothing stands between them.
theorem big_order_is_read :
    let c : Configuration := { default with limit := some 7, byteOrder := .big }
    let text := "\x7b \"memory\" : \x7b \"byte_order\" : \"Big\" \x7d , \"x\" : -12 , " ++
      "\"general\" : \x7b \"max_instructions\" : 7 \x7d \x7d "
    ofJson text = .ok c ∧ c.validate = .ok () := by
  intro c text
  obtain ⟨hread, -, hvalid⟩ := reading_inverts_writing
  let document : List (String × Value) :=
    [("memory", .object [("byte_order", .text "Big")]), ("x", .literal (.integer true 12)),
     ("general", .object [("max_instructions", .integer false 7)])]
  have hwrites : c.Writes document := by
    refine ⟨⟨_, rfl, rfl, rfl, rfl⟩, ⟨_, rfl, rfl, rfl⟩, ?_⟩
    intro key value hmem hgeneral hmemory
    simp [document, hgeneral, hmemory] at hmem
    exact ⟨_, hmem.2⟩
  have hspells : Json.Spells (Lexeme.object Value.lexemes document) text.toList := by
    have htext : text.toList =
        (Lexeme.object Value.lexemes document).flatMap fun lexeme => lexeme.spelling ++ [' '] := by
      decide
    rw [htext]
    exact Json.spells_flatMap (by decide) (by simp [Json.Token.isSpace])
  have hok := hread c document text (by decide) (by decide) (by decide) hwrites hspells
  exact ⟨hok, (hvalid text c hok).1⟩

end Configuration

end WordMachine
