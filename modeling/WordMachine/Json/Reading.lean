import WordMachine.Json.Token

namespace WordMachine.Json

-- A reading takes a value off the front of some tokens and gives the others back.
abbrev Reading (α : Type) := List Token → Except Problem (α × List Token)

-- What is wrong with a value that begins with a token, where something else was wanted. Its own
-- misspelling comes first.
def mismatch (token : Token) (expected : String) : Problem :=
  match token with
  | .scalar (.ok value) _ => .invalidType (.scalar value) expected
  | .text (.ok value) _ => .invalidType (.text value) expected
  | .scalar (.error problem) _ | .text (.error problem) _ => problem
  | .openBracket => .invalidType .sequence expected
  | .openBrace => .invalidType .map expected
  | _ => .expectedValue

namespace Reading

def boolean : Reading Bool
  | [] => .error .endInValue
  | .scalar (.ok (.boolean b)) _ :: rest => .ok (b, rest)
  | token :: _ => .error (mismatch token "a boolean")

-- A natural number below 2^64, named `expected` in problems.
def natural (expected : String) : Reading Nat
  | [] => .error .endInValue
  | .scalar (.ok (.number (.natural n))) _ :: rest => .ok (n, rest)
  | .scalar (.ok (.number (.negative n))) _ :: _ =>
    .error (.invalidValue (.scalar (.number (.negative n))) expected)
  | token :: _ => .error (mismatch token expected)

-- A value, or nothing for `null`.
def optional (reading : Reading α) : Reading (Option α)
  | .scalar (.ok .null) _ :: rest => .ok (none, rest)
  | tokens => do
    let (value, rest) ← reading tokens
    return (some value, rest)

private def unit : Reading Unit
  | [] => .error .endInValue
  | .scalar (.ok .null) _ :: rest => .ok ((), rest)
  | token :: _ => .error (mismatch token "unit")

-- The colon after a key.
def colon : Reading Unit
  | [] => .error .endInObject
  | .colon :: rest => .ok ((), rest)
  | _ => .error .expectedColon

private def variant (known : List (String × α)) (name : String) : Except Problem α :=
  match known.lookup name with
  | some value => .ok value
  | none => .error (.unknownVariant name (known.map (·.1)))

-- One of some named values, as a string or as an object with the name for its one key and `null`.
def choice (known : List (String × α)) : Reading α
  | [] => .error .endInValue
  | .text name _ :: rest => do
    return (← variant known (← name), rest)
  | .openBrace :: .text name _ :: rest => do
    let value ← variant known (← name)
    let ((), rest) ← colon rest
    let ((), rest) ← unit rest
    match rest with
    | [] => throw .endInObject
    | .closeBrace :: rest => return (value, rest)
    | _ => throw .expectedValue
  | [.openBrace] => .error .endInObject
  | .openBrace :: .closeBrace :: _ => .error .expectedValue
  | .openBrace :: _ => .error .keyNotString
  | _ => .error .expectedValue

end Reading

end WordMachine.Json
