import WordMachine.Console.Sink
import WordMachine.Text.Blank
import WordMachine.Text.Quoted
import WordMachine.Text.Utf8

namespace WordMachine

-- The console of a machine: the input that is still to be read, as bytes, the tokens of the line
-- that was read last, and the sink for the output.
structure Console where
  pending : List String
  unread : List UInt8
  sink : Sink
  deriving DecidableEq, Repr

namespace Console

def ofInput (input : List UInt8) (sink : Sink) : Console :=
  ⟨[], input, sink⟩

-- The first line of some bytes, with its line feed, and the bytes after it.
def firstLine : List UInt8 → List UInt8 × List UInt8
  | [] => ([], [])
  | byte :: bytes =>
    if byte = 10 then ([byte], bytes)
    else
      let (line, rest) := firstLine bytes
      (byte :: line, rest)

theorem firstLine_append (bytes : List UInt8) :
    (firstLine bytes).1 ++ (firstLine bytes).2 = bytes := by
  induction bytes with
  | nil => rfl
  | cons byte bytes ih =>
    simp only [firstLine]
    split
    · rfl
    · simpa using ih

theorem length_firstLine_snd_lt (byte : UInt8) (bytes : List UInt8) :
    (firstLine (byte :: bytes)).2.length < (byte :: bytes).length := by
  have hlength := congrArg List.length (firstLine_append bytes)
  simp only [List.length_append] at hlength
  simp only [firstLine]
  split
  · simp
  · simp only [List.length_cons]
    omega

-- The tokens of one line, or nothing for a line that is not UTF-8.
def lineTokens? (line : List UInt8) : Option (List String) :=
  (Text.Utf8.decode? line).map fun text => (Text.tokens text).map String.ofList

-- What a request for a token gives: a token, the end of the input, or a line that could not be
-- read. Such a line is lost as a whole.
inductive Delivery where
  | token (text : String)
  | endOfInput
  | badLine
  deriving DecidableEq, Repr

-- Reads lines until one of them has a token.
def firstToken (unread : List UInt8) : Delivery × List String × List UInt8 :=
  match unread with
  | [] => (.endOfInput, [], [])
  | byte :: bytes =>
    let parts := firstLine (byte :: bytes)
    match lineTokens? parts.1 with
    | none => (.badLine, [], parts.2)
    | some [] => firstToken parts.2
    | some (token :: pending) => (.token token, pending, parts.2)
termination_by unread.length
decreasing_by exact length_firstLine_snd_lt byte bytes

def nextToken (console : Console) : Delivery × Console :=
  match console.pending with
  | token :: pending => (.token token, { console with pending })
  | [] =>
    let (delivery, pending, unread) := firstToken console.unread
    (delivery, { console with pending, unread })

def writeLine (console : Console) (line : String) : Except SinkFault Unit × Console :=
  let (result, sink) := console.sink.writeLine line
  (result, { console with sink })

-- More input, after all that is still to be read.
def feed (console : Console) (input : List UInt8) : Console :=
  { console with unread := console.unread ++ input }

def takeOutput (console : Console) : String × Console :=
  (console.sink.text, { console with sink := { console.sink with text := "" } })

-- A line about the console that shows the tokens at hand.
def summary (console : Console) : String :=
  "StreamConsole \x7b pending: [" ++ ", ".intercalate (console.pending.map Text.quote)
    ++ "], .. \x7d"

end Console

end WordMachine
