import WordMachine.Json.Token

namespace WordMachine.Json

-- A list or an object that is open.
inductive Enclosure where
  | list
  | object
  deriving DecidableEq, Repr

namespace Enclosure

def isClosedBy : Enclosure → Token → Bool
  | list, .closeBracket | object, .closeBrace => true
  | _, _ => false

def ending : Enclosure → Problem
  | list => .endInList
  | object => .endInObject

def separator : Enclosure → Problem
  | list => .expectedListSeparator
  | object => .expectedMemberSeparator

end Enclosure

-- What comes next in a value that is skipped: a value, the first element or member of what was
-- just opened, whatever follows a value, a key, or the colon after a key.
inductive Place where
  | value
  | opened
  | after
  | key
  | colon
  deriving DecidableEq, Repr

-- Where a value stands that is being skipped: what comes next, and the enclosures that are open,
-- the innermost first.
structure Skipping where
  place : Place
  enclosures : List Enclosure
  deriving DecidableEq, Repr

namespace Skipping

-- The value is complete.
def isDone (skipping : Skipping) : Bool :=
  skipping.place = .after && skipping.enclosures.isEmpty

-- What is wrong with the end of the text here.
def ending (skipping : Skipping) : Problem :=
  match skipping.place, skipping.enclosures with
  | .opened, enclosure :: _ | .after, enclosure :: _ => enclosure.ending
  | .key, _ | .colon, _ => .endInObject
  | _, _ => .endInValue

private def takeValue (enclosures : List Enclosure) : Token → Except Problem Skipping
  | .scalar _ skipped | .text _ skipped => (fun () => ⟨.after, enclosures⟩) <$> skipped
  | .openBracket => .ok ⟨.opened, .list :: enclosures⟩
  | .openBrace => .ok ⟨.opened, .object :: enclosures⟩
  | _ => .error .expectedValue

private def takeKey (enclosures : List Enclosure) : Token → Except Problem Skipping
  | .text _ skipped => (fun () => ⟨.colon, enclosures⟩) <$> skipped
  | _ => .error .keyNotString

def take (skipping : Skipping) (token : Token) : Except Problem Skipping :=
  match skipping.place, skipping.enclosures, token with
  | .value, enclosures, token => takeValue enclosures token
  | .key, enclosures, token => takeKey enclosures token
  | .colon, enclosures, .colon => .ok ⟨.value, enclosures⟩
  | .colon, _, _ => .error .expectedColon
  | .opened, enclosure :: outer, token =>
    if enclosure.isClosedBy token then .ok ⟨.after, outer⟩
    else
      match enclosure with
      | .list => takeValue (enclosure :: outer) token
      | .object => takeKey (enclosure :: outer) token
  | .after, enclosure :: outer, token =>
    if enclosure.isClosedBy token then .ok ⟨.after, outer⟩
    else
      match enclosure, token with
      | .list, .comma => .ok ⟨.value, enclosure :: outer⟩
      | .object, .comma => .ok ⟨.key, enclosure :: outer⟩
      | _, _ => .error enclosure.separator
  | .opened, [], token | .after, [], token => takeValue [] token

-- What follows the value.
def rest (skipping : Skipping) (tokens : List Token) : Except Problem (List Token) :=
  if skipping.isDone then .ok tokens
  else
    match tokens with
    | [] => .error skipping.ending
    | token :: tokens => do (← skipping.take token).rest tokens

end Skipping

-- Skips a value of any shape.
def skip (tokens : List Token) : Except Problem (List Token) :=
  Skipping.rest ⟨.value, []⟩ tokens

end WordMachine.Json
