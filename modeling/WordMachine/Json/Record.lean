import WordMachine.Json.Reading
import WordMachine.Json.Skipping

namespace WordMachine.Json

-- One field of a record that is read into a state: its name, whether the state has it already, and
-- how its value is read.
structure Field (σ : Type) where
  name : String
  isSet : σ → Bool
  read : σ → Reading σ

namespace Record

private def closeList : List Token → Except Problem (List Token)
  | [] => .error .endInList
  | .closeBracket :: rest => .ok rest
  | .comma :: .closeBracket :: _ => .error .trailingComma
  | _ => .error .trailingCharacters

-- The fields of a record that is written as a list, in their order. A list may end early.
def elements (fields : List (Field σ)) (isFirst : Bool) (state : σ) : Reading σ :=
  fun tokens =>
    match fields with
    | [] => do return (state, ← closeList tokens)
    | field :: fields => do
      match tokens, isFirst with
      | [], _ => throw .endInList
      | .closeBracket :: rest, _ => return (state, rest)
      | tokens, true =>
        let (state, rest) ← field.read state tokens
        elements fields false state rest
      | .comma :: rest, false =>
        match rest with
        | [] => throw .endInValue
        | .closeBracket :: _ => throw .trailingComma
        | rest =>
          let (state, rest) ← field.read state rest
          elements fields false state rest
      | _, false => throw .expectedListSeparator

-- One member of a record, from after its key. A key that is no field has any value.
def member (fields : List (Field σ)) (key : String) (state : σ) : Reading σ :=
  fun tokens => do
    match fields.find? (·.name = key) with
    | some field =>
      if field.isSet state then throw (.duplicateField key)
      let ((), rest) ← Reading.colon tokens
      field.read state rest
    | none =>
      let ((), rest) ← Reading.colon tokens
      return (state, ← skip rest)

-- The members of a record that is written as an object, of at most `fuel` tokens.
def members (fields : List (Field σ)) (fuel : Nat) (isFirst : Bool) (state : σ) : Reading σ :=
  fun tokens =>
    match fuel with
    | 0 => .error .endInObject
    | fuel + 1 => do
      match tokens, isFirst with
      | [], _ => throw .endInObject
      | .closeBrace :: rest, _ => return (state, rest)
      | .text key _ :: rest, true =>
        let (state, rest) ← member fields (← key) state rest
        members fields fuel false state rest
      | _, true => throw .keyNotString
      | .comma :: rest, false =>
        match rest with
        | [] => throw .endInValue
        | .closeBrace :: _ => throw .trailingComma
        | .text key _ :: rest =>
          let (state, rest) ← member fields (← key) state rest
          members fields fuel false state rest
        | _ => throw .keyNotString
      | _, false => throw .expectedMemberSeparator

-- A record, as an object or as a list.
def read (expected : String) (fields : List (Field σ)) (start : σ) : Reading σ
  | [] => .error .endInValue
  | .openBracket :: rest => elements fields true start rest
  | .openBrace :: rest => members fields (rest.length + 1) true start rest
  | token :: _ => .error (mismatch token expected)

end Record

-- A whole text as one value, with nothing after it.
def readAll (reading : Reading α) (text : String) : Except Problem α := do
  let (value, rest) ← reading (Token.scan text.toList)
  match rest with
  | [] => return value
  | _ => throw .trailingCharacters

end WordMachine.Json
