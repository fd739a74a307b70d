import WordMachine.Configuration.Basic
import WordMachine.Json.Record

namespace WordMachine

-- Why there is no configuration: the file cannot be read, its text has no reading, or a value in
-- it is of no use.
inductive ConfigurationError where
  | unreadable (path : String) (reason : String)
  | malformed (problem : Json.Problem)
  | invalid (error : StackSizeError)
  deriving DecidableEq, Repr

-- The message of a malformed text goes on with a place in the text, which is left out.
def ConfigurationError.message : ConfigurationError → String
  | unreadable path reason => "unable to read config '" ++ path ++ "': " ++ reason
  | malformed problem => "malformed config: " ++ problem.message
  | invalid error => "invalid config: " ++ error.message

namespace Configuration

open Json (Reading)

-- The fields of the section `general`, as far as they are given.
structure GeneralSection where
  traced : Option Bool
  limit : Option (Option UInt64)
  policy : Option UnknownPolicy
  deriving DecidableEq, Repr

-- The fields of the section `memory`, as far as they are given.
structure MemorySection where
  stackSize : Option Nat
  byteOrder : Option ByteOrder
  deriving DecidableEq, Repr

structure Sections where
  general : Option GeneralSection
  memory : Option MemorySection
  deriving DecidableEq, Repr

-- A field whose value is put into the state.
private def field (name : String) (isSet : σ → Bool) (set : σ → α → σ) (reading : Reading α) :
    Json.Field σ where
  name
  isSet
  read state tokens := do
    let (value, rest) ← reading tokens
    return (set state value, rest)

def GeneralSection.fields : List (Json.Field GeneralSection) :=
  [field "trace_instructions" (·.traced.isSome) ({ · with traced := some · }) Reading.boolean,
   field "max_instructions" (·.limit.isSome)
     (fun state limit => { state with limit := some (limit.map UInt64.ofNat) })
     (Reading.optional (Reading.natural "u64")),
   field "unknown_opcode" (·.policy.isSome) ({ · with policy := some · })
     (Reading.choice ([.strict, .lenient].map fun policy : UnknownPolicy =>
       (policy.name, policy)))]

def MemorySection.fields : List (Json.Field MemorySection) :=
  [field "stack_size" (·.stackSize.isSome) ({ · with stackSize := some · })
     (Reading.natural "usize"),
   field "byte_order" (·.byteOrder.isSome) ({ · with byteOrder := some · })
     (Reading.choice ([.native, .little, .big].map fun order : ByteOrder =>
       (order.name, order)))]

def Sections.fields : List (Json.Field Sections) :=
  [field "general" (·.general.isSome) ({ · with general := some · })
     (Json.Record.read "struct GeneralConfig" GeneralSection.fields ⟨none, none, none⟩),
   field "memory" (·.memory.isSome) ({ · with memory := some · })
     (Json.Record.read "struct MemoryConfig" MemorySection.fields ⟨none, none⟩)]

-- The settings that are given, and the default ones for the others.
def ofSections (sections : Sections) : Configuration where
  traced := (sections.general.bind (·.traced)).getD default.traced
  limit := (sections.general.bind (·.limit)).getD default.limit
  policy := (sections.general.bind (·.policy)).getD default.policy
  stackSize := (sections.memory.bind (·.stackSize)).getD default.stackSize
  byteOrder := (sections.memory.bind (·.byteOrder)).getD default.byteOrder

-- The configuration that a JSON text describes, with a stack size that can be used.
def ofJson (text : String) : Except ConfigurationError Configuration :=
  let reading := Json.Record.read "struct Config" Sections.fields ⟨none, none⟩
  match Json.readAll reading text with
  | .error problem => .error (.malformed problem)
  | .ok sections =>
    let configuration := ofSections sections
    match configuration.validate with
    | .error error => .error (.invalid error)
    | .ok () => .ok configuration

theorem validate_of_ofJson {text : String} {configuration : Configuration}
    (h : ofJson text = .ok configuration) : configuration.validate = .ok () := by
  simp only [ofJson] at h
  split at h
  · cases h
  · split at h
    · cases h
    · next hvalid => cases h; exact hvalid

end Configuration

end WordMachine
