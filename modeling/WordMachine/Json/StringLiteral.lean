import WordMachine.Json.Problem

namespace WordMachine.Json.StringLiteral

private def hexDigit? (c : Char) : Option Nat :=
  if '0' ≤ c ∧ c ≤ '9' then some (c.toNat - '0'.toNat)
  else if 'a' ≤ c ∧ c ≤ 'f' then some (c.toNat - 'a'.toNat + 10)
  else if 'A' ≤ c ∧ c ≤ 'F' then some (c.toNat - 'A'.toNat + 10)
  else none

-- The code unit that four hexadecimal digits spell. A text of fewer than four bytes ends too
-- early, whatever it holds.
def codeUnit (text : List Char) : Except Problem Nat :=
  if (String.ofList (text.take 4)).utf8ByteSize < 4 then .error .endInString
  else
    match (text.take 4).mapM hexDigit? with
    | some [a, b, c, d] => .ok (((a * 16 + b) * 16 + c) * 16 + d)
    | _ => .error .invalidEscape

-- The character that a letter stands for after a backslash.
def shorthand? : Char → Option Char
  | '"' => some '"'
  | '\\' => some '\\'
  | '/' => some '/'
  | 'b' => some '\x08'
  | 'f' => some '\x0c'
  | 'n' => some '\n'
  | 'r' => some '\r'
  | 't' => some '\t'
  | _ => none

def isLeading (unit : Nat) : Bool := 0xD800 ≤ unit && unit < 0xDC00

def isTrailing (unit : Nat) : Bool := 0xDC00 ≤ unit && unit < 0xE000

-- The character of an escape by number, and how many characters spell it after the `u`. A leading
-- surrogate needs a trailing one, in an escape of its own, right after it.
private def numbered (text : List Char) : Except Problem (Char × Nat) := do
  let unit ← codeUnit text
  if isTrailing unit then throw .loneSurrogate
  else if !isLeading unit then return (Char.ofNat unit, 4)
  else
    match text.drop 4 with
    | [] | ['\\'] => throw .endInString
    | '\\' :: 'u' :: text =>
      let trailing ← codeUnit text
      if isTrailing trailing then
        return (Char.ofNat (0x10000 + (unit - 0xD800) * 0x400 + (trailing - 0xDC00)), 10)
      else throw .loneSurrogate
    | _ => throw .unfinishedSurrogate

-- The character of an escape, and how many characters spell it after the backslash.
def escaped : List Char → Except Problem (Char × Nat)
  | [] => .error .endInString
  | 'u' :: text => (fun (c, used) => (c, used + 1)) <$> numbered text
  | c :: _ =>
    match shorthand? c with
    | some d => .ok (d, 1)
    | none => .error .invalidEscape

-- How many characters spell an escape after the backslash, whether or not it makes a character.
def escapeLength : List Char → Except Problem Nat
  | [] => .error .endInString
  | 'u' :: text => (fun _ => 5) <$> codeUnit text
  | c :: _ => if (shorthand? c).isSome then .ok 1 else .error .invalidEscape

-- The text of a string literal, from after its opening quote. The characters so far are in
-- `before`, the last one first.
def readFrom (before : List Char) : List Char → Except Problem String
  | [] => .error .endInString
  | c :: text =>
    if c = '"' then .ok (String.ofList before.reverse)
    else if c = '\\' then
      match escaped text with
      | .ok (d, used) => readFrom (d :: before) (text.drop used)
      | .error problem => .error problem
    else if c.toNat < 0x20 then .error .controlCharacter
    else readFrom (c :: before) text
termination_by text => text.length
decreasing_by all_goals simp only [List.length_cons, List.length_drop]; omega

def read (text : List Char) : Except Problem String :=
  readFrom [] text

-- What follows a string literal whose text is of no interest.
def skip : List Char → Except Problem (List Char)
  | [] => .error .endInString
  | c :: text =>
    if c = '"' then .ok text
    else if c = '\\' then
      match escapeLength text with
      | .ok used => skip (text.drop used)
      | .error problem => .error problem
    else if c.toNat < 0x20 then .error .controlCharacter
    else skip text
termination_by text => text.length
decreasing_by all_goals simp only [List.length_cons, List.length_drop]; omega

end WordMachine.Json.StringLiteral
